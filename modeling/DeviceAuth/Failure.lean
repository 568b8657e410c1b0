import DeviceAuth.Activation.Status
import DeviceAuth.Envelope.State
import DeviceAuth.Factor

namespace DeviceAuth

def hexByte (b : UInt8) : String :=
  String.ofList [digit (b / 16), digit (b % 16)]
where
  digit (d : UInt8) : Char := Char.ofNat (if d < 10 then 48 + d.toNat else 87 + d.toNat)

inductive KeyFault where
  | initialVector
  | aesLength (length : Nat)
  | pointEncoding (tag : Option UInt8) (length : Nat)
  | point
  | scalarLength (length : Nat)
  | scalar
  | described (text : String)
  deriving DecidableEq, Repr

def KeyFault.message : KeyFault → String
  | .initialVector => "Invalid Length"
  | .aesLength n => s!"Unsupported AES key length: {n}"
  | .pointEncoding tag n => s!"Unsupported EC public key encoding: tag {tagText tag}, {n} bytes"
  | .point => "Invalid EC public key: crypto error"
  | .scalarLength n => s!"EC private key must be 32 bytes, got {n}"
  | .scalar => "Invalid EC private key: crypto error"
  | .described text => text
where
  tagText : Option UInt8 → String
    | none => "None"
    | some b => s!"Some({b.toNat})"

inductive DerivationFault where
  | emptySecret
  | described (text : String)
  deriving DecidableEq, Repr

def DerivationFault.message : DerivationFault → String
  | .emptySecret => "Master secret cannot be empty"
  | .described text => text

inductive DecryptionFault where
  | length
  | padding
  | tooShort
  | unauthentic
  | described (text : String)
  deriving DecidableEq, Repr

def DecryptionFault.message : DecryptionFault → String
  | .length => "Invalid ciphertext length"
  | .padding => "Invalid padding"
  | .tooShort => "Invalid ciphertext: too short"
  | .unauthentic => "AES-GCM: aead::Error"
  | .described text => text

inductive InputFault where
  | saltLength (length : Nat)
  | iterations (count : Nat)
  | unaligned (length : Nat)
  | shortPassword
  | missingUnlockKey (factor : Factor)
  | weakUnlockKey (factor : Factor)
  | missingPassword
  | emptyKeySource
  | factorCombination (factors : FactorSet)
  | missingFactorKey (factor : Factor)
  | emptyTarget
  | payloadSize (size limit : Nat)
  | vaultWithoutPossession
  | vaultOffline
  | counterSeed
  | emptySignature
  | described (text : String)
  deriving DecidableEq, Repr

def InputFault.message : InputFault → String
  | .saltLength n => s!"Invalid salt length: expected 16, got {n}"
  | .iterations n => s!"PBKDF2 iterations below protocol minimum: {n}"
  | .unaligned n => s!"Data length {n} is not a multiple of the AES block size"
  | .shortPassword => "Password must have at least 4 bytes"
  | .missingUnlockKey f => s!"Missing {f.name} unlock key"
  | .weakUnlockKey f => s!"Weak {f.name} unlock key"
  | .missingPassword => "Missing user password"
  | .emptyKeySource => "Unlock key source must not be empty"
  | .factorCombination fs => s!"Unsupported signature factor combination: {fs.bits}"
  | .missingFactorKey f => s!"Missing {f.name} signature key"
  | .emptyTarget => "HTTP method and URI must not be empty"
  | .payloadSize n limit => s!"ECIES payload of {n} bytes exceeds limit of {limit} bytes"
  | .vaultWithoutPossession => "Vault unlock requires the possession factor"
  | .vaultOffline => "Vault unlock cannot be signed offline"
  | .counterSeed => "Counter data must be 32 bytes"
  | .emptySignature => "Empty signature"
  | .described text => text

inductive PrimitiveFault where
  | key (cause : KeyFault)
  | derivation (cause : DerivationFault)
  | encryption (text : String)
  | decryption (cause : DecryptionFault)
  | signing (text : String)
  | verification (text : String)
  | input (cause : InputFault)
  deriving DecidableEq, Repr

namespace PrimitiveFault

def badSignature : PrimitiveFault :=
  .verification "signature error"

def message : PrimitiveFault → String
  | .key c => s!"Invalid key: {c.message}"
  | .derivation c => s!"Key derivation failed: {c.message}"
  | .encryption text => s!"Encryption failed: {text}"
  | .decryption c => s!"Decryption failed: {c.message}"
  | .signing text => s!"Signing failed: {text}"
  | .verification text => s!"Signature verification failed: {text}"
  | .input c => s!"Invalid input: {c.message}"

end PrimitiveFault

inductive FormatFault where
  | truncatedLength
  | componentLength (declared available : Nat)
  | base64
  | size (what : String) (expected actual : Nat)
  | envelopeNonce
  | noEphemeralKey
  | notUtf8 (what : String)
  | componentCount (expected : String) (actual : Nat)
  | emptyActivationId
  | emptyCodeSignature
  | codeShape
  | base32
  | signedRecoveryCode
  | recoveryCode
  | recoveryPuk
  | statusBlob
  | activationState (value : UInt8)
  | protocolVersion (value : UInt8)
  | credentials
  | instanceId
  | masterKey
  | encryptedStatus
  | described (text : String)
  deriving DecidableEq, Repr

def FormatFault.message : FormatFault → String
  | .truncatedLength => "Truncated length prefix"
  | .componentLength n rest => s!"Component length {n} exceeds remaining {rest} bytes"
  | .base64 => "Base64 decode failed"
  | .size what expected actual => s!"{what} must be {expected} bytes, got {actual}"
  | .envelopeNonce => "ECIES nonce must be 16 bytes"
  | .noEphemeralKey => "Missing ephemeral public key"
  | .notUtf8 what => s!"{what} is not UTF-8"
  | .componentCount expected actual => s!"Expected {expected} components, got {actual}"
  | .emptyActivationId => "Empty activation ID"
  | .emptyCodeSignature => "Empty activation code signature"
  | .codeShape => "Activation code must be four groups of five Base32 characters"
  | .base32 => "Invalid Base32 activation code"
  | .signedRecoveryCode => "Recovery code cannot be signed"
  | .recoveryCode => "Invalid recovery code"
  | .recoveryPuk => "Recovery PUK must be 10 digits"
  | .statusBlob => "Invalid activation status blob"
  | .activationState b => s!"Unknown activation state {b.toNat}"
  | .protocolVersion b => s!"Unknown protocol version {b.toNat}"
  | .credentials => "Application key and secret must not be empty"
  | .instanceId => "Instance identifier must not be empty"
  | .masterKey => "Invalid master server public key"
  | .encryptedStatus => "Encrypted status must be 32 bytes"
  | .described text => text

inductive StateFault where
  | alreadyActivated
  | notStarted
  | nothingToConfirm
  | noActivation
  | nothingToRemove
  | notCommitted
  | notValid (status : Activation.Status)
  | offlineDuringUpgrade
  | noBiometry
  | externalKeyUnset
  | externalKeyConflict
  | externalKeyUnused
  | externalKeyUsed
  | upgradePending
  | upgradeNotPending
  | upgradeNotNeeded
  | upgradeApplied
  | upgradeNotApplied
  | noRecoveryData
  | envelopeOrder (call : Envelope.Call) (state : Envelope.State)
  | described (text : String)
  deriving DecidableEq, Repr

def StateFault.message : StateFault → String
  | .alreadyActivated => "Activation can be started only when there is no activation"
  | .notStarted => "No activation has been started"
  | .nothingToConfirm => "No activation is pending commit"
  | .noActivation => "There is no activation"
  | .nothingToRemove => "There is no activation to remove"
  | .notCommitted => "There is no committed activation"
  | .notValid status =>
      s!"Operation requires a valid activation, current status is {status.name}"
  | .offlineDuringUpgrade => "Offline signature is not available during protocol upgrade"
  | .noBiometry => "Biometry factor is not configured"
  | .externalKeyUnset => "External encryption key is not set"
  | .externalKeyConflict => "Different external encryption key is already set"
  | .externalKeyUnused => "Activation does not use an external encryption key"
  | .externalKeyUsed => "Activation already uses an external encryption key"
  | .upgradePending => "Protocol upgrade is already pending"
  | .upgradeNotPending => "No protocol upgrade is pending"
  | .upgradeNotNeeded => "Activation already uses the latest protocol version"
  | .upgradeApplied => "Upgrade data has already been applied"
  | .upgradeNotApplied => "Upgrade data must be applied before finishing the upgrade"
  | .noRecoveryData => "Activation has no recovery data"
  | .envelopeOrder call state => s!"ECIES {call.name} is not allowed in state {state.name}"
  | .described text => text

inductive CryptoFault where
  | primitive (cause : PrimitiveFault)
  | envelopeBody
  | codeSignature
  | serverSignature
  | vaultKeyLength
  | vaultKeyRejected
  | vaultKeyForeign
  | described (text : String)
  deriving DecidableEq, Repr

def CryptoFault.message : CryptoFault → String
  | .primitive c => c.message
  | .envelopeBody => "ECIES decryption failed"
  | .codeSignature => "Activation code signature is invalid"
  | .serverSignature => "Server activation data signature is invalid"
  | .vaultKeyLength => "Invalid vault key"
  | .vaultKeyRejected => "Vault key does not open the device private key"
  | .vaultKeyForeign => "Vault key does not belong to this activation"
  | .described text => text

inductive CorruptionFault where
  | unreadable
  | blobLength
  | digest
  | magic
  | formatVersion (value : UInt8)
  | incomplete
  | flags (value : UInt8)
  | protectedKey
  | recoveryData
  | described (text : String)
  deriving DecidableEq, Repr

def CorruptionFault.message : CorruptionFault → String
  | .unreadable => "Deserialization failed"
  | .blobLength => "Status blob is too short"
  | .digest => "Status blob digest mismatch"
  | .magic => "Unknown status blob magic"
  | .formatVersion b => s!"Unsupported status blob version {b.toNat}"
  | .incomplete => "Incomplete activation data"
  | .flags b => s!"Unexpected status flags 0x{hexByte b}"
  | .protectedKey => "Protected key must be 32 bytes"
  | .recoveryData => "Malformed recovery data"
  | .described text => text

inductive StoreFault where
  | read
  | write
  | described (text : String)
  deriving DecidableEq, Repr

def StoreFault.message : StoreFault → String
  | .read => "Read rejected"
  | .write => "Write rejected"
  | .described text => text

inductive Failure where
  | format (cause : FormatFault)
  | checksum
  | input (cause : InputFault)
  | state (cause : StateFault)
  | crypto (cause : CryptoFault)
  | mac
  | alreadyUsed
  | counterOutOfSync
  | corrupted (cause : CorruptionFault)
  | signatureRequired
  | store (cause : StoreFault)
  deriving DecidableEq, Repr

inductive FailureKind where
  | format
  | state
  | crypto
  | counter
  | corruption
  | signature
  | store
  deriving DecidableEq, Repr

namespace Failure

def message : Failure → String
  | .format c => s!"Invalid format: {c.message}"
  | .checksum => "Invalid checksum"
  | .input c => s!"Invalid input: {c.message}"
  | .state c => s!"Invalid state: {c.message}"
  | .crypto c => s!"Cryptography error: {c.message}"
  | .mac => "Invalid MAC"
  | .alreadyUsed => "Envelope already used"
  | .counterOutOfSync => "Signature counter is out of sync"
  | .corrupted c => s!"Corrupted data: {c.message}"
  | .signatureRequired => "Valid signature is required"
  | .store c => s!"Storage error: {c.message}"

def kind : Failure → FailureKind
  | .format _ | .checksum | .input _ => .format
  | .state _ | .alreadyUsed => .state
  | .crypto _ | .mac => .crypto
  | .counterOutOfSync => .counter
  | .corrupted _ => .corruption
  | .signatureRequired => .signature
  | .store _ => .store

def ofPrimitive : PrimitiveFault → Failure
  | .input c => .input c
  | fault => .crypto (.primitive fault)

def lift {α : Type} (answer : Except PrimitiveFault α) : Except Failure α :=
  answer.mapError ofPrimitive

end Failure

end DeviceAuth
