import Mathlib.FieldTheory.Finite.Basic
import DeviceAuth.Proofs.P256.Primality

namespace DeviceAuth.P256

variable {n : Nat}

def residue (x : Fin n) : ZMod n :=
  (x.val : ZMod n)

theorem residue_injective : Function.Injective (residue (n := n)) := by
  intro x y h
  have hmod := (ZMod.natCast_eq_natCast_iff' x.val y.val n).mp h
  rw [Nat.mod_eq_of_lt x.isLt, Nat.mod_eq_of_lt y.isLt] at hmod
  exact Fin.ext hmod

theorem val_residue (x : Fin n) : (residue x).val = x.val :=
  (ZMod.val_natCast n x.val).trans (Nat.mod_eq_of_lt x.isLt)

@[simp] theorem residue_add (x y : Fin n) : residue (x + y) = residue x + residue y := by
  simp only [residue, Fin.val_add, ZMod.natCast_mod, Nat.cast_add]

@[simp] theorem residue_mul (x y : Fin n) : residue (x * y) = residue x * residue y := by
  simp only [residue, Fin.val_mul, ZMod.natCast_mod, Nat.cast_mul]

@[simp] theorem residue_sub (x y : Fin n) : residue (x - y) = residue x - residue y := by
  have hle : y.val ≤ n := Nat.le_of_lt y.isLt
  simp only [residue, Fin.sub_def, ZMod.natCast_mod, Nat.cast_add, Nat.cast_sub hle,
    ZMod.natCast_self]
  ring

@[simp] theorem residue_ofNat (k : Nat) : residue (no_index (OfNat.ofNat k) : Field) = k :=
  ZMod.natCast_mod k prime

theorem residue_scalar (k : Nat) : residue (Scalar.ofNat k) = k :=
  ZMod.natCast_mod k order

theorem residue_power (x : Fin n) {e : Nat} (h : e < 2 ^ 256) :
    residue (power x e) = residue x ^ e := by
  refine byBits_induction (P := fun k a => residue a = residue x ^ k) ?_ ?_ ?_ h
  · simp [residue]
  · intro k a ha
    rw [residue_mul, ha, ← pow_add, Nat.two_mul]
  · intro k a ha
    rw [residue_mul, ha, pow_succ]

theorem prime_lt : prime < 2 ^ 256 := by decide

theorem order_lt : order < 2 ^ 256 := by decide

theorem one_lt_order : 1 < order := by decide

theorem pow_sub_two [Fact n.Prime] (htwo : 2 < n) (a : ZMod n) : a ^ (n - 2) = a⁻¹ := by
  by_cases ha : a = 0
  · rw [ha, zero_pow (Nat.sub_ne_zero_of_lt htwo), inv_zero]
  · have hpow : a ^ (n - 2) * a = 1 := by
      rw [← pow_succ, show n - 2 + 1 = n - 1 by omega, ZMod.pow_card_sub_one_eq_one ha]
    exact eq_inv_of_mul_eq_one_left hpow

theorem residue_inverse [Fact n.Prime] (htwo : 2 < n) (hsize : n < 2 ^ 256) (x : Fin n) :
    residue (inverse x) = (residue x)⁻¹ := by
  rw [inverse, residue_power x (Nat.lt_of_le_of_lt (Nat.sub_le n 2) hsize), pow_sub_two htwo]

theorem residue_inverse_field (x : Field) : residue (inverse x) = (residue x)⁻¹ :=
  residue_inverse (by decide) prime_lt x

theorem residue_inverse_scalar (x : Scalar) : residue (inverse x) = (residue x)⁻¹ :=
  residue_inverse (by decide) order_lt x

theorem squareRoot?_eq_some {x y : Field} (h : squareRoot? x = some y) : y * y = x := by
  simp only [squareRoot?, Option.ite_none_right_eq_some, Option.some.injEq] at h
  obtain ⟨hy, rfl⟩ := h
  exact hy

theorem pow_prime_add_one_half (a : ZMod prime) : (a * a) ^ ((prime + 1) / 2) = a * a := by
  have hexp : 2 * ((prime + 1) / 2) = prime + 1 := by decide +kernel
  rw [← sq, ← pow_mul, hexp, pow_succ, ZMod.pow_card, sq]

theorem isSome_squareRoot? (y : Field) : (squareRoot? (y * y)).isSome := by
  have hsize : (prime + 1) / 4 < 2 ^ 256 := by decide +kernel
  have hexp : (prime + 1) / 4 + (prime + 1) / 4 = (prime + 1) / 2 := by decide +kernel
  have hroot : power (y * y) ((prime + 1) / 4) * power (y * y) ((prime + 1) / 4) = y * y := by
    apply residue_injective
    rw [residue_mul, residue_power _ hsize, ← pow_add, hexp, residue_mul, pow_prime_add_one_half]
  simp only [squareRoot?, if_pos hroot, Option.isSome_some]

end DeviceAuth.P256
