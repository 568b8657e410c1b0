import DeviceAuth.Failure
import DeviceAuth.Pbkdf2

namespace DeviceAuth.KeyDerivation

def subkey (secret : Bytes) (index : UInt64) : Key :=
  hmac secret (Bytes.bigEndian 8 index.toNat)

def derive (secret : Bytes) (index : UInt64) : Except PrimitiveFault Key :=
  if secret.isEmpty then .error (.derivation .emptySecret) else .ok (subkey secret index)

def possessionIndex : UInt64 := 1
def knowledgeIndex : UInt64 := 2
def biometryIndex : UInt64 := 3
def transportIndex : UInt64 := 1000
def vaultIndex : UInt64 := 2000

def saltLength : Nat := 16

def minimalIterations : UInt32 := 10000

def ofPassword (password : Bytes) (salt : Fixed 16) (iterations : UInt32) :
    Except InputFault Key :=
  if iterations < minimalIterations then .error (.iterations iterations.toNat)
  else .ok (Pbkdf2.stretch password salt.bytes iterations.toNat)

-- The length of the salt is judged before the number of iterations.
def ofPasswordChecked (password salt : Bytes) (iterations : UInt32) : Except InputFault Key :=
  match Fixed.ofBytes? 16 salt with
  | none => .error (.saltLength salt.length)
  | some s => ofPassword password s iterations

-- Which of the two happens past the last number is a setting of the build.
inductive Overflow where
  | halts
  | wraps
  deriving DecidableEq

def Overflow.succ? : Overflow → UInt32 → Option UInt32
  | .halts, n => if n + 1 = 0 then none else some (n + 1)
  | .wraps, n => some (n + 1)

structure Expansion where
  output : Bytes
  counter : UInt32
  deriving DecidableEq

namespace Expansion

variable (overflow : Overflow) (secret info : Bytes)

def start : Expansion where
  output := []
  counter := 1

def next? (e : Expansion) : Option Expansion :=
  (overflow.succ? e.counter).map fun counter =>
    { output := e.output ++ (sha256 (secret ++ Bytes.bigEndian 4 e.counter.toNat ++ info)).bytes
      counter }

variable {overflow secret info} in
theorem length_of_next? {e e' : Expansion} (h : next? overflow secret info e = some e') :
    e'.output.length = e.output.length + 32 := by
  obtain ⟨counter, -, rfl⟩ := Option.map_eq_some_iff.mp h
  rw [List.length_append, Fixed.length_eq]

def fill? (length : Nat) (e : Expansion) : Option Expansion :=
  if e.output.length < length then
    match _ : next? overflow secret info e with
    | none => none
    | some e' => fill? length e'
  else some e
termination_by length - e.output.length
decreasing_by
  rw [length_of_next? ‹_›]
  omega

variable {overflow secret info} in
theorem le_length_of_fill? {length : Nat} {e full : Expansion}
    (h : fill? overflow secret info length e = some full) : length ≤ full.output.length := by
  fun_induction fill? overflow secret info length e with
  | case1 => cases h
  | case2 e _ e' _ ih => exact ih h
  | case3 e henough =>
      cases h
      exact Nat.le_of_not_lt henough

theorem isSome_fill?_wraps (length : Nat) (e : Expansion) :
    (fill? .wraps secret info length e).isSome := by
  fun_induction fill? .wraps secret info length e with
  | case1 e _ hstuck => cases hstuck
  | case2 e _ e' _ ih => exact ih
  | case3 e _ => rfl

end Expansion

def stream? (overflow : Overflow) (secret info : Bytes) (length : Nat) : Option Bytes :=
  (Expansion.fill? overflow secret info length .start).map fun e => e.output.take length

def stream (secret info : Bytes) (length : Nat) : Bytes :=
  (stream? .wraps secret info length).get
    (by rw [stream?, Option.isSome_map]; exact Expansion.isSome_fill?_wraps secret info length _)

theorem stream?_wraps (secret info : Bytes) (length : Nat) :
    stream? .wraps secret info length = some (stream secret info length) :=
  (Option.some_get _).symm

theorem length_stream (secret info : Bytes) (length : Nat) :
    (stream secret info length).length = length := by
  obtain ⟨full, hfull, hbytes⟩ := Option.map_eq_some_iff.mp (stream?_wraps secret info length)
  rw [← hbytes]
  exact List.length_take_of_le (Expansion.le_length_of_fill? hfull)

end DeviceAuth.KeyDerivation

namespace DeviceAuth

structure DerivedKeys where
  possession : Key
  knowledge : Key
  biometry : Key
  transport : Key
  vault : Key
  deriving DecidableEq

namespace DerivedKeys

open KeyDerivation

def ofSecret (secret : Bytes) : DerivedKeys where
  possession := subkey secret possessionIndex
  knowledge := subkey secret knowledgeIndex
  biometry := subkey secret biometryIndex
  transport := subkey secret transportIndex
  vault := subkey secret vaultIndex

def derive (secret : Bytes) : Except PrimitiveFault DerivedKeys :=
  if secret.isEmpty then .error (.derivation .emptySecret) else .ok (ofSecret secret)

end DerivedKeys

end DeviceAuth
