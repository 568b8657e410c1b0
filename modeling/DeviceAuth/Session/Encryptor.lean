import DeviceAuth.Session.Activate

namespace DeviceAuth.Session

inductive Scope where
  | application
  | activation
  deriving DecidableEq, Repr

def encryptor (s : Session) (scope : Scope) (unlock : UnlockKeys) (info : Bytes) :
    Except Failure Envelope.Encryptor := do
  match scope with
  | .application => return s.applicationEncryptor info
  | .activation =>
      let r ← s.valid
      let transport ← r.keys.unlockTransport unlock
      let secret := hmac transport.bytes (Text.utf8 s.setup.applicationSecret)
      Envelope.Encryptor.ofBytes r.serverKey info secret.bytes s.payloadLimit

end DeviceAuth.Session
