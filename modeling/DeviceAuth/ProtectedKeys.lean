import DeviceAuth.Cbc
import DeviceAuth.FactorSignature
import DeviceAuth.KeyDerivation
import DeviceAuth.Secret

namespace DeviceAuth

structure ProtectedKeys where
  possession : Bytes
  knowledge : Bytes
  biometry : Option Bytes
  transport : Bytes
  salt : Fixed 16
  iterations : UInt32
  deriving DecidableEq

namespace ProtectedKeys

open Aes

def sealKey (key secret : Key) : Bytes :=
  Cbc.encrypt (Schedule.ofLong key) (Fixed.zero 16) secret.bytes

def openKey (key : Key) (locked : Bytes) : Except Failure Key :=
  if h : locked.length = 32 then
    .ok ⟨Cbc.decrypt (Schedule.ofLong key) (Fixed.zero 16) locked, by
      rw [Cbc.length_decrypt, h]⟩
  else .error (.corrupted .protectedKey)

def wrap (external : Option Key) (locked : Bytes) : Except Failure Bytes :=
  match external with
  | none => .ok locked
  | some e => (Cbc.encryptAligned (Schedule.ofLong e) (Fixed.zero 16) locked).mapError .input

def unwrap (external : Option Key) (locked : Bytes) : Except Failure Bytes :=
  match external with
  | none => .ok locked
  | some e => (Cbc.decryptAligned (Schedule.ofLong e) (Fixed.zero 16) locked).mapError .input

def passwordKey (password : Password) (salt : Fixed 16) (iterations : UInt32) :
    Except Failure Key :=
  (KeyDerivation.ofPassword password.bytes salt iterations).mapError .input

def lockKnowledge (knowledge : Key) (password : Password) (salt : Fixed 16) (iterations : UInt32)
    (external : Option Key) : Except Failure Bytes := do
  let key ← passwordKey password salt iterations
  wrap external (sealKey key knowledge)

def lockBiometry (biometry unlock : Key) (external : Option Key) : Except Failure Bytes :=
  wrap external (sealKey unlock biometry)

def lock (keys : DerivedKeys) (unlock : UnlockKeys) (external : Option Key) (salt : Fixed 16) :
    Except Failure ProtectedKeys := do
  let possession ← unlock.requirePossession
  let password ← unlock.requirePassword
  let biometry ← match unlock.biometry with
    | none => pure none
    | some _ => do
        let key ← unlock.requireBiometry
        let locked ← lockBiometry keys.biometry key external
        pure (some locked)
  let iterations := KeyDerivation.minimalIterations
  let knowledge ← lockKnowledge keys.knowledge password salt iterations external
  return {
    possession := sealKey possession keys.possession
    knowledge
    biometry
    transport := sealKey possession keys.transport
    salt
    iterations }

def unlockKnowledge (p : ProtectedKeys) (password : Password) (external : Option Key) :
    Except Failure Key := do
  let key ← passwordKey password p.salt p.iterations
  let locked ← unwrap external p.knowledge
  openKey key locked

def unlockFactor (p : ProtectedKeys) (unlock : UnlockKeys) (external : Option Key) :
    Factor → Except Failure Key
  | .possession => do
      let key ← unlock.requirePossession
      openKey key p.possession
  | .knowledge => do
      let password ← unlock.requirePassword
      p.unlockKnowledge password external
  | .biometry => do
      match p.biometry with
      | none => throw (.state .noBiometry)
      | some wrapped =>
          let locked ← unwrap external wrapped
          let key ← unlock.requireBiometry
          openKey key locked

def unlock (p : ProtectedKeys) (factors : FactorSet) (unlock : UnlockKeys)
    (external : Option Key) : Except Failure FactorKeys := do
  factors.check
  let one (f : Factor) : Except Failure (Option Key) :=
    if factors.contains f then some <$> p.unlockFactor unlock external f else pure none
  let possession ← one .possession
  let knowledge ← one .knowledge
  let biometry ← one .biometry
  return { possession, knowledge, biometry }

def unlockTransport (p : ProtectedKeys) (unlock : UnlockKeys) : Except Failure Key := do
  let key ← unlock.requirePossession
  openKey key p.transport

-- The old password is not checked here: a wrong one leads to a wrong knowledge key.
def changePassword (p : ProtectedKeys) (old new : Password) (external : Option Key)
    (salt : Fixed 16) : Except Failure ProtectedKeys := do
  let knowledge ← p.unlockKnowledge old external
  let iterations := KeyDerivation.minimalIterations
  let locked ← lockKnowledge knowledge new salt iterations external
  return { p with knowledge := locked, salt, iterations }

-- Applies `layer` to knowledge and then to biometry. A refusal at biometry comes after knowledge
-- has changed.
def relayer (layer : Bytes → Except Failure Bytes) (p : ProtectedKeys) :
    Except Failure Unit × ProtectedKeys :=
  match layer p.knowledge with
  | .error e => (.error e, p)
  | .ok knowledge =>
      let p := { p with knowledge }
      match p.biometry with
      | none => (.ok (), p)
      | some biometry =>
          match layer biometry with
          | .error e => (.error e, p)
          | .ok biometry => (.ok (), { p with biometry := some biometry })

def addExternal (p : ProtectedKeys) (external : Key) : Except Failure Unit × ProtectedKeys :=
  relayer (wrap (some external)) p

def removeExternal (p : ProtectedKeys) (external : Key) : Except Failure Unit × ProtectedKeys :=
  relayer (unwrap (some external)) p

end ProtectedKeys

end DeviceAuth
