import DeviceAuth.Activation.Payload
import DeviceAuth.Gcm
import DeviceAuth.P256.Signature
import DeviceAuth.Session.Plan

namespace DeviceAuth.Session

open Activation

def activationInfo : Bytes :=
  Text.utf8 "/pa/activation"

def applicationEncryptor (s : Session) (info : Bytes) : Envelope.Encryptor :=
  .new s.masterKey info (sha256 (Text.utf8 s.setup.applicationSecret)).bytes s.payloadLimit

def checkCode (s : Session) : Option OfferedCode → Except Failure Unit
  | some { text, signature := some signature } =>
      (s.masterKey.verify (Text.utf8 text) signature).mapError fun _ => .crypto .codeSignature
  | _ => .ok ()

def request (code : Option OfferedCode) (device ephemeral : P256.PrivateKey)
    (nonce : Fixed 16) (s : Session) : Except Failure (Plan Cryptogram) := do
  s.checkCode code
  let plain : Request := ⟨code.map OfferedCode.text, device.publicKey.compressed⟩
  let (sealedRequest, encryptor) :=
    (s.applicationEncryptor activationInfo).encryptRequest ephemeral nonce plain.encode
  return .keep { s with phase := .started ⟨device, encryptor⟩ } (← sealedRequest)

-- A new request replaces one that has not been answered.
def start (code : Option OfferedCode) (device ephemeral : P256.PrivateKey) (nonce : Fixed 16)
    (s : Session) : Plan Cryptogram :=
  match s.phase with
  | .empty | .started _ => .orRefuse s (s.request code device ephemeral nonce)
  | _ => .refuse s (.state .alreadyActivated)

structure Activated where
  activationId : String
  fingerprint : String
  deriving DecidableEq

structure ValidationDraws where
  salt : Fixed 16
  keyNonce : Fixed 12
  recoveryNonce : Fixed 12
  deriving DecidableEq

def sealRecovery (vaultKey : Key) (nonce : Fixed 12) (r : Recovery) : Bytes :=
  Gcm.sealed vaultKey nonce (Framing.join [Text.utf8 r.code, Text.utf8 r.puk])

def issuedRecovery (response : Response) : Except Failure (Option Recovery) :=
  match response.recovery with
  | none => .ok none
  | some r => if r.isEmpty then .ok none else r.check.map fun _ => some r

def initialCounter (response : Response) : Counter :=
  match response.counterSeed with
  | some seed => .ofSeed seed
  | none => .numeric 0

def recordOf (s : Session) (pending : Pending) (response : Response) (unlock : UnlockKeys)
    (draws : ValidationDraws) : Except Failure Record := do
  (s.masterKey.verify response.signedData response.signature).mapError fun _ =>
    Failure.crypto .serverSignature
  let recovery ← issuedRecovery response
  let serverKey ← Failure.lift (P256.PublicKey.ofBytes response.serverKey)
  let derived := DerivedKeys.ofSecret (pending.privateKey.agree serverKey).bytes
  let keys ← ProtectedKeys.lock derived unlock s.externalKey draws.salt
  return {
    id := response.activationId
    serverKey := response.serverKey
    deviceKey := pending.privateKey.publicKey.compressed
    sealedPrivateKey := Gcm.sealed derived.vault draws.keyNonce pending.privateKey.bytes
    sealedRecovery := recovery.map (sealRecovery derived.vault draws.recoveryNonce)
    keys
    counter := initialCounter response
    external := s.externalKey.isSome
    health := .valid
    pendingUpgrade := none }

-- Any failure ends the activation that was started.
def validate (response : Cryptogram) (unlock : UnlockKeys) (draws : ValidationDraws)
    (s : Session) : Plan Activated :=
  match s.phase with
  | .started pending =>
      .orRefuse { s with phase := .empty } do
        let plain ← (pending.encryptor.decryptResponse response).1
        let response ← (Response.decode plain).mapError .format
        let r ← s.recordOf pending response unlock draws
        return .keep { s with phase := .pendingCommit r } ⟨r.id, r.fingerprint⟩
  | _ => .refuse s (.state .notStarted)

def confirm (s : Session) : Plan Unit :=
  match s.phase with
  | .pendingCommit r => s.commit r ()
  | .active r => if r.health = .valid then .keep s () else .refuse s (.state .nothingToConfirm)
  | _ => .refuse s (.state .nothingToConfirm)

def discard {α : Type} (s : Session) (answer : α) : Plan α :=
  .write s (.save .removed) { s with phase := .removed, vaultToken := none } answer

def remove (s : Session) : Plan Unit :=
  match s.phase with
  | .empty | .started _ => .refuse s (.state .nothingToRemove)
  | _ => s.discard ()

def reset (s : Session) : Plan Unit :=
  .write s .remove { s with phase := .empty, vaultToken := none } ()

-- Takes over a status without storing it; a corrupted one leaves no activation.
def deserialize (blob : Bytes) (s : Session) : Plan Unit :=
  let s := { s with vaultToken := none }
  match StoredStatus.decode blob with
  | .ok status => .keep { s with phase := .ofStored status } ()
  | .error why => .refuse { s with phase := .empty } why

end DeviceAuth.Session
