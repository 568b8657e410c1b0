import DeviceAuth.Activation.Status
import DeviceAuth.ProtectedKeys
import DeviceAuth.Text

namespace DeviceAuth.Activation

inductive Health where
  | valid
  | blocked
  | deadlock
  deriving DecidableEq, Repr

namespace Health

def all : List Health :=
  [.valid, .blocked, .deadlock]

def name : Health → String
  | .valid => "Valid"
  | .blocked => "Blocked"
  | .deadlock => "Deadlock"

def status : Health → Status
  | .valid => .valid
  | .blocked => .blocked
  | .deadlock => .deadlock

end Health

structure Record where
  id : String
  serverKey : Bytes
  deviceKey : Bytes
  sealedPrivateKey : Bytes
  sealedRecovery : Option Bytes
  keys : ProtectedKeys
  counter : Counter
  external : Bool
  health : Health
  pendingUpgrade : Option Version
  deriving DecidableEq

namespace Record

def version (r : Record) : Version :=
  r.counter.version

def fingerprint (r : Record) : String :=
  FactorSignature.decimal (sha256 (r.deviceKey ++ Text.utf8 r.id ++ r.serverKey))

def complete (r : Record) : Bool :=
  !r.id.isEmpty && !r.serverKey.isEmpty && !r.deviceKey.isEmpty && !r.sealedPrivateKey.isEmpty

end Record

end DeviceAuth.Activation
