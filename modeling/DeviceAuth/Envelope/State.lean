namespace DeviceAuth.Envelope

inductive State where
  | fresh
  | encrypted
  | decrypted
  | consumed
  deriving DecidableEq, Repr

def State.name : State → String
  | .fresh => "Fresh"
  | .encrypted => "Encrypted"
  | .decrypted => "Decrypted"
  | .consumed => "Consumed"

inductive Call where
  | encryptRequest
  | decryptResponse
  | decryptRequest
  | encryptResponse
  deriving DecidableEq, Repr

def Call.name : Call → String
  | .encryptRequest => "encrypt"
  | .decryptResponse => "response decryption"
  | .decryptRequest => "decrypt"
  | .encryptResponse => "response encryption"

end DeviceAuth.Envelope
