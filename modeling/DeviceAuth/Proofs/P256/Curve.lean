import Mathlib.GroupTheory.OrderOfElement
import DeviceAuth.P256.Key
import DeviceAuth.Proofs.P256.Addition
import DeviceAuth.Proofs.P256.Field

namespace DeviceAuth.P256

structure Remainder where
  constant : Field
  linear : Field
  quadratic : Field
  deriving DecidableEq

namespace Remainder

def one : Remainder :=
  ⟨1, 0, 0⟩

def root : Remainder :=
  ⟨0, 1, 0⟩

def mul (f g : Remainder) : Remainder :=
  let cubic := f.linear * g.quadratic + f.quadratic * g.linear
  let quartic := f.quadratic * g.quadratic
  ⟨f.constant * g.constant - coefficient * cubic,
    f.constant * g.linear + f.linear * g.constant + 3 * cubic - coefficient * quartic,
    f.constant * g.quadratic + f.linear * g.linear + f.quadratic * g.constant + 3 * quartic⟩

def sub (f g : Remainder) : Remainder :=
  ⟨f.constant - g.constant, f.linear - g.linear, f.quadratic - g.quadratic⟩

def frobenius : Remainder :=
  byBits (fun f => f.mul f) (fun f => f.mul root) one prime

def eval (a : ZMod prime) (f : Remainder) : ZMod prime :=
  residue f.constant + residue f.linear * a + residue f.quadratic * a ^ 2

variable {a : ZMod prime} (ha : a ^ 3 - 3 * a + residue coefficient = 0)

theorem eval_one : one.eval a = 1 := by
  simp [one, eval]

theorem eval_root : root.eval a = a := by
  simp [root, eval]

theorem eval_sub (f g : Remainder) : (f.sub g).eval a = f.eval a - g.eval a := by
  simp only [sub, eval, residue_sub]
  ring

include ha

theorem eval_mul (f g : Remainder) : (f.mul g).eval a = f.eval a * g.eval a := by
  simp only [mul, eval, residue_add, residue_sub, residue_mul, residue_ofNat, Nat.cast_ofNat]
  linear_combination -(residue f.linear * residue g.quadratic +
    residue f.quadratic * residue g.linear + residue f.quadratic * residue g.quadratic * a) * ha

theorem eval_frobenius : frobenius.eval a = a := by
  have hpow : frobenius.eval a = a ^ prime := by
    refine byBits_induction (P := fun k f => eval a f = a ^ k) ?_ ?_ ?_ prime_lt
    · rw [eval_one, pow_zero]
    · intro k f hf
      rw [eval_mul ha, hf, ← pow_add, Nat.two_mul]
    · intro k f hf
      rw [eval_mul ha, eval_root, hf, pow_succ]
  rw [hpow, ZMod.pow_card]

omit ha

-- The cubic divides no difference of a power by the prime: this is its inverse.
def cofactor : Remainder where
  constant := Field.ofNat 0xa969487079f1744798bf0de6fded091b66e9d328eb0645fe5d979d1339b7f47f
  linear := Field.ofNat 0xa4a08891884100c13323460107a8d28eede4387fa3e6e9bfebec9f6d72d0b5cc
  quadratic := Field.ofNat 0x4cde11cf86cb876cd59cf0115813c55af0ecd3cda667d98bb9a347a56aa74a6d

theorem cofactor_mul : cofactor.mul (frobenius.sub root) = one := by
  decide +kernel

end Remainder

theorem rootless : Weierstrass.Rootless (residue coefficient) where
  two := by
    have hcast : ((2 : Nat) : ZMod prime) ≠ 0 := by
      rw [Ne, ZMod.natCast_eq_zero_iff]
      decide +kernel
    exact_mod_cast hcast
  root := by
    intro a ha
    have hone := congrArg (Remainder.eval a) Remainder.cofactor_mul
    rw [Remainder.eval_mul ha, Remainder.eval_sub, Remainder.eval_frobenius ha,
      Remainder.eval_root, sub_self, mul_zero, Remainder.eval_one] at hone
    exact zero_ne_one hone

abbrev Element : Type :=
  (Weierstrass.curve (residue coefficient)).Point

namespace Point

def coordinates (p : Point) : Weierstrass.Coordinates (ZMod prime) :=
  ⟨residue p.x, residue p.y, residue p.z⟩

def Represents (p : Point) (P : Element) : Prop :=
  Weierstrass.Represents p.coordinates P

theorem coordinates_add (p q : Point) :
    (p.add q).coordinates = p.coordinates.add (residue coefficient) q.coordinates := by
  simp [add, coordinates, Weierstrass.Coordinates.add]

theorem represents_infinity : infinity.Represents 0 := by
  refine ⟨1, one_ne_zero, ?_⟩
  ext <;> simp [infinity, coordinates, Weierstrass.coordinates, Weierstrass.Coordinates.scale]

theorem Represents.add {p q : Point} {P Q : Element} (hp : p.Represents P)
    (hq : q.Represents Q) : (p.add q).Represents (P + Q) := by
  rw [Represents, coordinates_add]
  exact rootless.represents_add hp hq

theorem Represents.multiple {p : Point} {P : Element} (hp : p.Represents P) {k : Nat}
    (hk : k < 2 ^ 256) : (p.multiple k).Represents (k • P) := by
  refine byBits_induction (P := fun k q => Point.Represents q (k • P)) ?_ ?_ ?_ hk
  · rw [zero_nsmul]
    exact represents_infinity
  · intro k q hq
    rw [Nat.two_mul, add_nsmul]
    exact hq.add hq
  · intro k q hq
    rw [succ_nsmul]
    exact hq.add hp

theorem residue_affine {p : Point} {P : Element} (hp : p.Represents P) :
    (residue p.affine.1, residue p.affine.2) = Weierstrass.affine P := by
  rw [← Weierstrass.affine_of_represents hp]
  simp only [affine, Weierstrass.Coordinates.affine, coordinates, residue_mul,
    residue_inverse_field]

theorem affine_eq_of_represents {p q : Point} {P : Element} (hp : p.Represents P)
    (hq : q.Represents P) : p.affine = q.affine := by
  have heq := (residue_affine hp).trans (residue_affine hq).symm
  exact Prod.ext (residue_injective (Prod.ext_iff.mp heq).1)
    (residue_injective (Prod.ext_iff.mp heq).2)

theorem Represents.eq_zero {p : Point} {P : Element} (hp : p.Represents P) (hz : p.z = 0) :
    P = 0 := by
  obtain ⟨c, hc, hp⟩ := hp
  cases P with
  | zero => rfl
  | some x y h =>
      have hzero : 0 = c := by
        simpa [coordinates, hz, Weierstrass.coordinates, Weierstrass.Coordinates.scale] using
          congrArg Weierstrass.Coordinates.z hp
      exact absurd hzero.symm hc

end Point

theorem residue_curve (x : Field) :
    residue (curve x) = residue x ^ 3 - 3 * residue x + residue coefficient := by
  simp only [curve, residue_add, residue_sub, residue_mul, residue_ofNat]
  push_cast
  ring

namespace PublicKey

theorem equation (k : PublicKey) :
    (Weierstrass.curve (residue coefficient)).Equation (residue k.x) (residue k.y) := by
  rw [Weierstrass.equation_iff, ← residue_curve, ← k.onCurve, residue_mul, sq]

def element (k : PublicKey) : Element :=
  .some (residue k.x) (residue k.y) (rootless.nonsingular k.equation)

theorem represents_point (k : PublicKey) : k.point.Represents k.element := by
  refine ⟨1, one_ne_zero, ?_⟩
  ext <;> simp [point, element, Point.coordinates, Weierstrass.coordinates,
    Weierstrass.Coordinates.scale]

theorem element_ne_zero (k : PublicKey) : k.element ≠ 0 :=
  WeierstrassCurve.Affine.Point.some_ne_zero _

end PublicKey

def generator : Element :=
  PublicKey.base.element

theorem represents_base : Point.base.Represents generator :=
  PublicKey.base.represents_point

theorem multiple_order_z : (Point.base.multiple order).z = 0 := by
  decide +kernel

theorem addOrderOf_generator : addOrderOf generator = order :=
  addOrderOf_eq_prime ((represents_base.multiple order_lt).eq_zero multiple_order_z)
    PublicKey.base.element_ne_zero

theorem smul_generator_inj {j k : Nat} : j • generator = k • generator ↔ j ≡ k [MOD order] := by
  rw [nsmul_inj_mod, addOrderOf_generator, Nat.ModEq]

theorem smul_generator_ne_zero (k : PrivateKey) : k.scalar • generator ≠ 0 := by
  intro hzero
  have hdvd := addOrderOf_dvd_of_nsmul_eq_zero hzero
  rw [addOrderOf_generator] at hdvd
  exact Nat.not_le_of_lt k.belowOrder (Nat.le_of_dvd k.positive hdvd)

end DeviceAuth.P256
