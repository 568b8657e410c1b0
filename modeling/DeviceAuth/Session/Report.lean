import DeviceAuth.Session.Activate
import DeviceAuth.ServerStatus

namespace DeviceAuth.Session

open Activation

def readStatus (transport : Key) (encrypted : String) : Except Failure ServerStatus := do
  let b ← (Base64.decode encrypted).mapError .format
  if b.length ≠ 32 then throw (.format .encryptedStatus)
  let plain := Cbc.decrypt (Aes.Schedule.ofLong transport) (Fixed.zero 16) b
  (ServerStatus.decode plain).mapError .format

def decodeStatus (s : Session) (encrypted : String) (unlock : UnlockKeys) :
    Except Failure ServerStatus := do
  let r ← s.committed
  let transport ← r.keys.unlockTransport unlock
  readStatus transport encrypted

def effectiveLookahead (config : Config) (status : ServerStatus) : UInt8 :=
  if status.lookahead = 0 then UInt8.ofNat (min config.lookahead.toNat 255) else status.lookahead

def distance (counter : Counter) (status : ServerStatus) : UInt8 :=
  counter.steps.toUInt8 - status.counterByte

def inSync (config : Config) (counter : Counter) (status : ServerStatus) (transport : Key) : Bool :=
  let ahead := distance counter status
  if effectiveLookahead config status < ahead then false
  else if ahead = 0 ∧ counter.version = .v3 then
    Hmac.fold (hmac transport.bytes counter.data) = status.chainDigest
  else true

def healthAfter (s : Session) (r : Record) (status : ServerStatus) (transport : Key) :
    Option Health :=
  match status.state with
  | .removed => none
  | .blocked => some .blocked
  | .active => some (if inSync s.config r.counter status transport then .valid else .deadlock)
  | .created | .pendingCommit => some r.health

def applyStatus (encrypted : String) (unlock : UnlockKeys) (s : Session) : Plan ServerStatus :=
  .orRefuse s do
    let r ← s.committed
    let transport ← r.keys.unlockTransport unlock
    let status ← readStatus transport encrypted
    match s.healthAfter r status transport with
    | none => return s.discard status
    | some health =>
        if health = r.health then return .keep s status
        return s.commit { r with health } status

end DeviceAuth.Session
