import DeviceAuth.P256.Signature
import DeviceAuth.Session.Plan

namespace DeviceAuth.Session

open Activation

def offlineSecret : String :=
  "offline"

def requestNonce (request : HttpRequest) (nonce : Fixed 16) : Except Failure String :=
  match request.offlineNonce with
  | some given => ((Base64.decodeFixed 16 "Offline nonce" given).mapError .format).map fun _ => given
  | none => .ok (Base64.encode nonce.bytes)

def applicationKey (s : Session) (request : HttpRequest) : String :=
  if request.isOffline then offlineSecret else s.setup.applicationKey

def applicationSecret (s : Session) (request : HttpRequest) : String :=
  if request.isOffline then offlineSecret else s.setup.applicationSecret

-- Possession alone never needs the external key.
def signingKey (s : Session) (r : Record) (factors : FactorSet) : Except Failure (Option Key) :=
  if factors = .possessionOnly then .ok none else s.externalKeyFor r

def signature (s : Session) (r : Record) (request : HttpRequest) (factors : FactorSet)
    (unlock : UnlockKeys) (nonce : Fixed 16) : Except Failure HttpSignature := do
  request.check
  factors.check
  if request.isOffline && r.pendingUpgrade.isSome then throw (.state .offlineDuringUpgrade)
  let nonce ← requestNonce request nonce
  let external ← s.signingKey r factors
  let keys ← r.keys.unlock factors unlock external
  let data := request.normalizedData nonce (s.applicationSecret request)
  let signature ← FactorSignature.compute factors keys r.counter data
  return {
    version := r.version.name
    activationId := r.id
    applicationKey := s.applicationKey request
    nonce
    factor := factors.typeName
    signature }

def sign (request : HttpRequest) (factors : FactorSet) (unlock : UnlockKeys) (nonce : Fixed 16)
    (s : Session) : Plan HttpSignature :=
  .orRefuse s do
    let r ← s.valid
    let answer ← s.signature r request factors unlock nonce
    return s.commit { r with counter := r.counter.next } answer

inductive ServerKey where
  | master
  | personalized
  deriving DecidableEq, Repr

def verifyServer (s : Session) (key : ServerKey) (data signature : Bytes) : Except Failure Unit := do
  if signature.isEmpty then throw (.input .emptySignature)
  let key ← match key with
    | .master => pure s.masterKey
    | .personalized => do
        let r ← s.committed
        Failure.lift (P256.PublicKey.ofBytes r.serverKey)
  Failure.lift (key.verify data signature)

end DeviceAuth.Session
