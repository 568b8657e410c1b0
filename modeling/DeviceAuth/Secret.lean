import DeviceAuth.Failure
import DeviceAuth.Sha256

namespace DeviceAuth

structure Password where
  bytes : Bytes
  long : 4 ≤ bytes.length
  deriving DecidableEq

namespace Password

def ofBytes (b : Bytes) : Except Failure Password :=
  if h : 4 ≤ b.length then .ok ⟨b, h⟩ else .error (.input .shortPassword)

def masked (_ : Password) : String :=
  "Password(***)"

end Password

structure UnlockKeys where
  possession : Option Key := none
  biometry : Option Key := none
  password : Option Password := none
  deriving DecidableEq

namespace UnlockKeys

def usable (f : Factor) : Option Key → Except Failure Key
  | none => .error (.input (.missingUnlockKey f))
  | some k => if k.isZero then .error (.input (.weakUnlockKey f)) else .ok k

def requirePossession (u : UnlockKeys) : Except Failure Key :=
  usable .possession u.possession

def requireBiometry (u : UnlockKeys) : Except Failure Key :=
  usable .biometry u.biometry

def requirePassword (u : UnlockKeys) : Except Failure Password :=
  match u.password with
  | some p => .ok p
  | none => .error (.input .missingPassword)

def normalize (source : Bytes) : Except Failure Key :=
  if source.isEmpty then .error (.input .emptyKeySource) else .ok (sha256 source)

end UnlockKeys

end DeviceAuth
