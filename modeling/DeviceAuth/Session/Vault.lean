import DeviceAuth.ActivationCode
import DeviceAuth.Framing
import DeviceAuth.Gcm
import DeviceAuth.Session.Sign
import DeviceAuth.Text.Lossy

namespace DeviceAuth.Session

open Activation

def vaultRefusal? (request : HttpRequest) (factors : FactorSet) : Option Failure :=
  if !factors.possession then some (.input .vaultWithoutPossession)
  else if request.isOffline then some (.input .vaultOffline)
  else none

def signVault (request : HttpRequest) (factors : FactorSet) (unlock : UnlockKeys)
    (nonce token : Fixed 16) (s : Session) : Plan (HttpSignature × VaultProof) :=
  .orRefuse s do
    let r ← s.valid
    let answer ← s.signature r request factors unlock nonce
    let r := { r with counter := r.counter.next }
    return .write s (.save (.activated r)) { s with phase := .active r, vaultToken := some token }
      (answer, ⟨token⟩)

def openPrivateKey (r : Record) (vaultKey : Key) : Except Failure P256.PrivateKey :=
  match Gcm.opened vaultKey r.sealedPrivateKey with
  | .ok b => Failure.lift (P256.PrivateKey.ofBytes b)
  | .error _ => .error (.crypto .vaultKeyRejected)

def openVaultKey (r : Record) (encrypted : String) (unlock : UnlockKeys) : Except Failure Key := do
  let transport ← r.keys.unlockTransport unlock
  let b ← (Base64.decode encrypted).mapError .format
  let plain ← Failure.lift
    ((Cbc.decryptPadded (Aes.Schedule.ofLong transport) (Fixed.zero 16) b).mapError .decryption)
  match Fixed.ofBytes? 32 plain with
  | none => throw (.crypto .vaultKeyLength)
  | some vaultKey =>
      let _ ← openPrivateKey r vaultKey
      return vaultKey

def proves (s : Session) (proof : Option VaultProof) : Bool :=
  match proof, s.vaultToken with
  | some p, some token => p.token == token
  | _, _ => false

structure VaultRequest where
  proof : Option VaultProof
  encryptedKey : String
  unlock : UnlockKeys
  deriving DecidableEq

-- Uses the vault key. Once the activation is known to be valid the token is spent, whatever comes
-- of it.
def withVault {α : Type} (request : VaultRequest) (s : Session)
    (use : Session → Record → Key → Except Failure (Plan α)) : Plan α :=
  match s.valid with
  | .error why => .refuse s why
  | .ok r =>
      let spent := { s with vaultToken := none }
      if s.proves request.proof then
        .orRefuse spent do
          let vaultKey ← openVaultKey r request.encryptedKey request.unlock
          use spent r vaultKey
      else .refuse spent .signatureRequired

def unlockVault (request : VaultRequest) (s : Session) : Plan Key :=
  s.withVault request fun s _ vaultKey => .ok (.keep s vaultKey)

def deriveVault (request : VaultRequest) (index : UInt64) (s : Session) : Plan Key :=
  s.withVault request fun s _ vaultKey =>
    .ok (.keep s (KeyDerivation.subkey vaultKey.bytes index))

def signDevice (request : VaultRequest) (data : Bytes) (s : Session) : Plan Bytes :=
  s.withVault request fun s r vaultKey => do
    let key ← openPrivateKey r vaultKey
    let signature ← Failure.lift (key.sign data)
    return .keep s signature

def openRecovery (vaultKey : Key) (sealedRecovery : Bytes) : Except Failure Recovery := do
  let plain ← Failure.lift ((Gcm.opened vaultKey sealedRecovery).mapError .decryption)
  match ← (Framing.split plain).mapError .format with
  | [code, puk] => return ⟨Text.lossy code, Text.lossy puk⟩
  | _ => throw (.corrupted .recoveryData)

-- Asking for recovery data that were never issued spends the token too.
def recovery (request : VaultRequest) (s : Session) : Plan Recovery :=
  match s.valid with
  | .error why => .refuse s why
  | .ok r =>
      match r.sealedRecovery with
      | none => .refuse { s with vaultToken := none } (.state .noRecoveryData)
      | some sealedRecovery =>
          s.withVault request fun s _ vaultKey => do
            let answer ← openRecovery vaultKey sealedRecovery
            return .keep s answer

def addBiometry (request : VaultRequest) (s : Session) : Plan Unit :=
  match request.unlock.requireBiometry with
  | .error why => .refuse s why
  | .ok unlockKey =>
      s.withVault request fun s r vaultKey => do
        let privateKey ← openPrivateKey r vaultKey
        let serverKey ← Failure.lift (P256.PublicKey.ofBytes r.serverKey)
        let derived := DerivedKeys.ofSecret (privateKey.agree serverKey).bytes
        if derived.vault ≠ vaultKey then throw (.crypto .vaultKeyForeign)
        let external ← s.externalKeyFor r
        let locked ← ProtectedKeys.lockBiometry derived.biometry unlockKey external
        return s.commit { r with keys := { r.keys with biometry := some locked } } ()

end DeviceAuth.Session
