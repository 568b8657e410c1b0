import DeviceAuth.Bytes
import DeviceAuth.Text
import DeviceAuth.Sha256
import DeviceAuth.Hmac
import DeviceAuth.Pbkdf2
import DeviceAuth.Aes.Cipher
import DeviceAuth.Failure
import DeviceAuth.Version
import DeviceAuth.Cbc
import DeviceAuth.Gcm
import DeviceAuth.P256.Signature
import DeviceAuth.Framing
import DeviceAuth.ActivationCode
import DeviceAuth.ProtectedKeys
import DeviceAuth.Envelope
import DeviceAuth.Activation.Payload
import DeviceAuth.ServerStatus
import DeviceAuth.HttpRequest
import DeviceAuth.Query
import DeviceAuth.Setup
import DeviceAuth.Activation.StoredStatus
import DeviceAuth.Entropy
import DeviceAuth.Lock
import DeviceAuth.Store
import DeviceAuth.Session.Activate
import DeviceAuth.Session.Factors
import DeviceAuth.Session.Report
import DeviceAuth.Session.Upgrade
import DeviceAuth.Session.Vault
import DeviceAuth.Session.Encryptor
import DeviceAuth.World
import DeviceAuth.Json.Message
import DeviceAuth.Text.Quoted
import DeviceAuth.Proofs.Codec
import DeviceAuth.Proofs.StoredStatus
import DeviceAuth.Proofs.ProtectedKeys
import DeviceAuth.Proofs.Session.Effect
import DeviceAuth.Proofs.Activation.Payload
import DeviceAuth.Proofs.Gcm
import DeviceAuth.Proofs.Session.Soundness
import DeviceAuth.Proofs.Sharing.Site
import DeviceAuth.Proofs.Sharing.Turn
import DeviceAuth.Proofs.Sharing.World
import DeviceAuth.Proofs.Sharing.Coherence
import DeviceAuth.Proofs.Sharing.Signing
import DeviceAuth.Proofs.ActivationCode
import DeviceAuth.Proofs.ActivationCode.Grammar
import DeviceAuth.Proofs.Session.Validation
import DeviceAuth.Proofs.Aes
import DeviceAuth.Proofs.Cbc
import DeviceAuth.Proofs.P256.Field
import DeviceAuth.Proofs.P256.Addition
import DeviceAuth.Proofs.P256.Curve
import DeviceAuth.Proofs.P256.Key
import DeviceAuth.Proofs.Envelope
import DeviceAuth.Proofs.P256.Signature
import DeviceAuth.Proofs.Session.Exchange
import DeviceAuth.Proofs.Session.Agreement
import DeviceAuth.Proofs.Base64
import DeviceAuth.Proofs.FactorSignature
import DeviceAuth.Proofs.ServerStatus
import DeviceAuth.Proofs.Session.Window
import DeviceAuth.Proofs.Session.Delivery
import DeviceAuth.Proofs.Sharing.Upkeep
import DeviceAuth.Proofs.Sharing.Confirmation
import DeviceAuth.Proofs.Sharing.Maintenance
import DeviceAuth.Proofs.Sharing.OutdatedKey
import DeviceAuth.Proofs.Session.Refusal
import DeviceAuth.Proofs.Session.Vault
import DeviceAuth.Proofs.Sharing.Unaltered
import DeviceAuth.Proofs.Sharing.VaultToken
import DeviceAuth.Proofs.Sharing.VaultContents
import DeviceAuth.Proofs.Sharing.UpgradeWindow
import DeviceAuth.Proofs.Session.Calls
import DeviceAuth.Proofs.Sharing.Discipline
import DeviceAuth.Proofs.Session.Course
import DeviceAuth.Proofs.Session.Lifecycle
import DeviceAuth.Proofs.Session.UpgradePath
import DeviceAuth.Proofs.Session.Restoring
import DeviceAuth.Proofs.Envelope.RoundTrip
import DeviceAuth.Proofs.Envelope.OneShot
import DeviceAuth.Proofs.Envelope.Tampering
import DeviceAuth.Proofs.Envelope.Attempts
import DeviceAuth.Proofs.Envelope.OutOfTurn
import DeviceAuth.Proofs.Envelope.PayloadLimit
import DeviceAuth.Proofs.HttpRequest
import DeviceAuth.Proofs.Crc16
import DeviceAuth.Proofs.Crc16.Burst
import DeviceAuth.Proofs.ActivationCode.Typing
import DeviceAuth.Proofs.Query
import DeviceAuth.Proofs.FactorSignature.Acceptance
import DeviceAuth.Proofs.FactorSignature.Codes
import DeviceAuth.Proofs.ProtectedKeys.ExternalLayer
import DeviceAuth.Proofs.Session.ServerReport
import DeviceAuth.Proofs.Framing.Exact
import DeviceAuth.Proofs.ProtectedKeys.InPlace
import DeviceAuth.Proofs.Sharing.Isolation
import DeviceAuth.Proofs.KeyDerivation
