import Mathlib.Algebra.Group.Nat.Defs
import DeviceAuth.Counter

namespace DeviceAuth.Counter

def position (c : Counter) : Version × UInt64 :=
  (c.version, c.steps)

def digests : Nat → Key → Key
  | 0, k => k
  | n + 1, k => digests n (sha256 k.bytes)

theorem digests_succ (n : Nat) (k : Key) : digests (n + 1) k = sha256 (digests n k).bytes := by
  induction n generalizing k with
  | zero => rfl
  | succ n ih => exact ih (sha256 k.bytes)

theorem advance_succ (n : Nat) (c : Counter) : advance (n + 1) c = (advance n c).next := by
  induction n generalizing c with
  | zero => rfl
  | succ n ih => exact ih c.next

theorem version_next (c : Counter) : c.next.version = c.version := by
  cases c <;> rfl

theorem steps_next (c : Counter) : c.next.steps = c.steps + 1 := by
  cases c <;> rfl

theorem steps_advance_add (n : Nat) (c : Counter) :
    (advance n c).steps = c.steps + UInt64.ofNat n := by
  induction n with
  | zero => simp [advance]
  | succ n ih =>
      rw [advance_succ, steps_next, ih, UInt64.ofNat_add, UInt64.ofNat_one, UInt64.add_assoc]

theorem advance_add (i j : Nat) (c : Counter) : advance i (advance j c) = advance (j + i) c := by
  induction i with
  | zero => rfl
  | succ i ih => rw [advance_succ, ih, ← Nat.add_assoc, advance_succ]

theorem eq_of_steps_advance {i j : Nat} {c : Counter} (hi : i < 2 ^ 64) (hj : j < 2 ^ 64)
    (h : (advance i c).steps = (advance j c).steps) : i = j := by
  rw [steps_advance_add, steps_advance_add, UInt64.add_right_inj] at h
  have hnat := congrArg UInt64.toNat h
  rw [UInt64.toNat_ofNat', UInt64.toNat_ofNat', Nat.mod_eq_of_lt hi, Nat.mod_eq_of_lt hj] at hnat
  exact hnat

inductive Unused : Counter → Prop
  | numeric : Unused (.numeric 0)
  | chain (seed : Key) : Unused (.ofSeed seed)

theorem Unused.steps {c : Counter} (h : Unused c) : c.steps = 0 := by
  cases h <;> rfl

inductive Event where
  | signed (c : Counter)
  | upgraded (seed : Key)

inductive Trail (origin : Counter) : List Event → Counter → Prop
  | start : Trail origin [] origin
  | signed {events c} : Trail origin events c → Trail origin (events ++ [.signed c]) c.next
  | upgraded {events c} (seed : Key) :
      Trail origin events c → c.version = .v2 →
      Trail origin (events ++ [.upgraded seed]) (.ofSeed seed)

end DeviceAuth.Counter
