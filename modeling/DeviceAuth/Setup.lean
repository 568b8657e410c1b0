import DeviceAuth.Base64
import DeviceAuth.Config
import DeviceAuth.P256.Key

namespace DeviceAuth

structure Setup where
  applicationKey : String
  applicationSecret : String
  masterKey : String
  externalKey : Option Key := none
  instanceId : String := "default"
  deriving DecidableEq

namespace Setup

def storageName (s : Setup) (c : Config) : String :=
  s!"{c.namespaceText}.{s.instanceId}"

def check (s : Setup) : Except Failure P256.PublicKey := do
  if s.applicationKey.isEmpty || s.applicationSecret.isEmpty then throw (.format .credentials)
  if s.instanceId.isEmpty then throw (.format .instanceId)
  let master ← (Base64.decode s.masterKey).mapError .format
  match P256.PublicKey.ofBytes master with
  | .ok key => return key
  | .error _ => throw (.format .masterKey)

end Setup

end DeviceAuth
