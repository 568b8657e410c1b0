import DeviceAuth.Cbc
import DeviceAuth.KeyDerivation
import DeviceAuth.P256.Key

namespace DeviceAuth

structure Cryptogram where
  ephemeralKey : Option Bytes
  body : Bytes
  mac : Bytes
  nonce : Bytes
  deriving DecidableEq

namespace Envelope

structure Keys where
  encryption : Fixed 16
  authentication : Fixed 16
  vector : Fixed 16
  deriving DecidableEq

namespace Keys

open KeyDerivation

def derive (secret : Key) (info ephemeralKey : Bytes) : Keys :=
  let material := stream secret.bytes (info ++ ephemeralKey) 48
  have h : material.length = 48 := length_stream _ _ _
  { encryption := ⟨material.take 16, by simp [h]⟩
    authentication := ⟨(material.drop 16).take 16, by simp [h]⟩
    vector := ⟨material.drop 32, by simp [h]⟩ }

def initialVector (k : Keys) (nonce : Bytes) : Fixed 16 :=
  Hmac.fold (hmac k.vector.bytes nonce)

def mac (k : Keys) (body info : Bytes) : Key :=
  hmac k.authentication.bytes (body ++ info)

def sealMessage (k : Keys) (nonce : Fixed 16) (info plain : Bytes) : Cryptogram :=
  let body := Cbc.encryptPadded (Aes.Schedule.ofShort k.encryption) (k.initialVector nonce.bytes) plain
  { ephemeralKey := none
    body
    mac := (k.mac body info).bytes
    nonce := nonce.bytes }

def openMessage (k : Keys) (info : Bytes) (c : Cryptogram) : Except Failure Bytes :=
  if c.nonce.length ≠ 16 then .error (.format .envelopeNonce)
  else if (k.mac c.body info).bytes ≠ c.mac then .error .mac
  else
    match Cbc.decryptPadded (Aes.Schedule.ofShort k.encryption) (k.initialVector c.nonce) c.body with
    | .ok plain => .ok plain
    | .error _ => .error (.crypto .envelopeBody)

end Keys

inductive Stage where
  | fresh
  | encrypted (keys : Keys)
  | decrypted (keys : Keys)
  | consumed
  deriving DecidableEq

def Stage.state : Stage → State
  | .fresh => .fresh
  | .encrypted _ => .encrypted
  | .decrypted _ => .decrypted
  | .consumed => .consumed

def checkSize (limit size : Nat) : Except Failure Unit :=
  if size ≤ limit then .ok () else .error (.input (.payloadSize size limit))

def outOfOrder (call : Call) (stage : Stage) : Failure :=
  .state (.envelopeOrder call stage.state)

def checkFresh (call : Call) : Stage → Except Failure Unit
  | .fresh => .ok ()
  | .consumed => .error (outOfOrder call .consumed)
  | _ => .error .alreadyUsed

structure Encryptor where
  peer : P256.PublicKey
  info1 : Bytes
  info2 : Bytes
  limit : Nat
  stage : Stage
  deriving DecidableEq

namespace Encryptor

def new (peer : P256.PublicKey) (info1 info2 : Bytes) (limit : Nat) : Encryptor :=
  { peer, info1, info2, limit, stage := .fresh }

def ofBytes (peer info1 info2 : Bytes) (limit : Nat) : Except Failure Encryptor := do
  let peer ← Failure.lift (P256.PublicKey.ofBytes peer)
  return new peer info1 info2 limit

def state (e : Encryptor) : State :=
  e.stage.state

def requestKeys (e : Encryptor) (ephemeral : P256.PrivateKey) : Keys :=
  Keys.derive (ephemeral.agree e.peer) e.info1 ephemeral.publicKey.compressed

def encryptRequest (e : Encryptor) (ephemeral : P256.PrivateKey) (nonce : Fixed 16)
    (plain : Bytes) : Except Failure Cryptogram × Encryptor :=
  match checkFresh .encryptRequest e.stage, checkSize e.limit plain.length with
  | .error f, _ => (.error f, e)
  | _, .error f => (.error f, e)
  | .ok _, .ok _ =>
      let keys := e.requestKeys ephemeral
      let c := keys.sealMessage nonce e.info2 plain
      (.ok { c with ephemeralKey := some ephemeral.publicKey.compressed },
        { e with stage := .encrypted keys })

def decryptResponse (e : Encryptor) (c : Cryptogram) : Except Failure Bytes × Encryptor :=
  match e.stage with
  | .encrypted keys => (keys.openMessage e.info2 c, { e with stage := .consumed })
  | stage => (.error (outOfOrder .decryptResponse stage), e)

end Encryptor

structure Decryptor where
  privateKey : P256.PrivateKey
  info1 : Bytes
  info2 : Bytes
  limit : Nat
  stage : Stage
  deriving DecidableEq

namespace Decryptor

def new (privateKey : P256.PrivateKey) (info1 info2 : Bytes) (limit : Nat) : Decryptor :=
  { privateKey, info1, info2, limit, stage := .fresh }

def ofBytes (privateKey info1 info2 : Bytes) (limit : Nat) : Except Failure Decryptor := do
  let privateKey ← Failure.lift (P256.PrivateKey.ofBytes privateKey)
  return new privateKey info1 info2 limit

def state (d : Decryptor) : State :=
  d.stage.state

def readRequest (d : Decryptor) (ephemeralKey : Bytes) (c : Cryptogram) :
    Except Failure (Keys × Bytes) := do
  let peer ← Failure.lift (P256.PublicKey.ofBytes ephemeralKey)
  let keys := Keys.derive (d.privateKey.agree peer) d.info1 ephemeralKey
  let plain ← keys.openMessage d.info2 c
  return (keys, plain)

-- A request without an ephemeral key, or with too long a body, leaves the end fresh; any other
-- refused request consumes it.
def decryptRequest (d : Decryptor) (c : Cryptogram) : Except Failure Bytes × Decryptor :=
  match checkFresh .decryptRequest d.stage, c.ephemeralKey with
  | .error f, _ => (.error f, d)
  | .ok _, none => (.error (.format .noEphemeralKey), d)
  | .ok _, some ephemeralKey =>
      match checkSize d.limit (c.body.length - 16) with
      | .error f => (.error f, d)
      | .ok _ =>
          match d.readRequest ephemeralKey c with
          | .error f => (.error f, { d with stage := .consumed })
          | .ok (keys, plain) => (.ok plain, { d with stage := .decrypted keys })

-- The size is judged before the order of the calls.
def encryptResponse (d : Decryptor) (nonce : Fixed 16) (plain : Bytes) :
    Except Failure Cryptogram × Decryptor :=
  match checkSize d.limit plain.length, d.stage with
  | .error f, _ => (.error f, d)
  | .ok _, .decrypted keys => (.ok (keys.sealMessage nonce d.info2 plain), { d with stage := .consumed })
  | .ok _, stage => (.error (outOfOrder .encryptResponse stage), d)

end Decryptor

end Envelope

end DeviceAuth
