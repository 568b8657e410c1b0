import Mathlib.AlgebraicGeometry.EllipticCurve.Affine.Point
import Mathlib.Tactic.LinearCombination
import Mathlib.Tactic.FieldSimp

namespace DeviceAuth.Weierstrass

open WeierstrassCurve.Affine

@[ext]
structure Coordinates (K : Type) where
  x : K
  y : K
  z : K

variable {K : Type} [Field K]

def curve (b : K) : WeierstrassCurve.Affine K where
  a₁ := 0
  a₂ := 0
  a₃ := 0
  a₄ := -3
  a₆ := b

namespace Coordinates

def add (b : K) (p q : Coordinates K) : Coordinates K :=
  let xx := p.x * q.x
  let yy := p.y * q.y
  let zz := p.z * q.z
  let xy := p.x * q.y + q.x * p.y
  let yz := p.y * q.z + q.y * p.z
  let xz := p.x * q.z + q.x * p.z
  let s := 3 * (b * zz - xz)
  let t := 3 * (b * xz - xx - 3 * zz)
  let u := 3 * (xx - zz)
  ⟨xy * (yy - s) - yz * t, u * t + (yy + s) * (yy - s), yz * (yy + s) + xy * u⟩

def scale (c : K) (p : Coordinates K) : Coordinates K :=
  ⟨c * p.x, c * p.y, c * p.z⟩

def affine (p : Coordinates K) : K × K :=
  (p.x * p.z⁻¹, p.y * p.z⁻¹)

theorem scale_scale (c d : K) (p : Coordinates K) : (p.scale d).scale c = p.scale (c * d) := by
  ext <;> simp only [scale] <;> ring

theorem add_scale (b c d : K) (p q : Coordinates K) :
    (p.scale c).add b (q.scale d) = (p.add b q).scale ((c * d) ^ 2) := by
  ext <;> simp only [add, scale] <;> ring

theorem add_comm (b : K) (p q : Coordinates K) : p.add b q = q.add b p := by
  ext <;> simp only [add] <;> ring

end Coordinates

variable {b : K}

def coordinates : (curve b).Point → Coordinates K
  | .zero => ⟨0, 1, 0⟩
  | .some x y _ => ⟨x, y, 1⟩

def affine : (curve b).Point → K × K
  | .zero => (0, 0)
  | .some x y _ => (x, y)

def Represents (p : Coordinates K) (P : (curve b).Point) : Prop :=
  ∃ c, c ≠ 0 ∧ p = (coordinates P).scale c

theorem affine_of_represents {p : Coordinates K} {P : (curve b).Point} (h : Represents p P) :
    p.affine = affine P := by
  obtain ⟨c, hc, rfl⟩ := h
  cases P with
  | zero => simp [coordinates, Coordinates.scale, Coordinates.affine, affine]
  | some x y hxy =>
      simp only [coordinates, Coordinates.scale, Coordinates.affine, affine, mul_one]
      rw [mul_right_comm, mul_right_comm c y, mul_inv_cancel₀ hc, one_mul, one_mul]

theorem equation_iff {x y : K} : (curve b).Equation x y ↔ y ^ 2 = x ^ 3 - 3 * x + b := by
  rw [WeierstrassCurve.Affine.equation_iff]
  simp only [curve, zero_mul, add_zero]
  constructor <;> intro h <;> linear_combination h

theorem negY_eq (x y : K) : (curve b).negY x y = -y := by
  simp [curve, negY]

theorem add_of_slope {x₁ y₁ x₂ y₂ l : K} (hb : y₂ ^ 2 = x₂ ^ 3 - 3 * x₂ + b)
    (hchord : y₁ - y₂ = l * (x₁ - x₂))
    (htangent : l * (y₁ + y₂) = x₁ ^ 2 + x₁ * x₂ + x₂ ^ 2 - 3) :
    let p := Coordinates.add b ⟨x₁, y₁, 1⟩ ⟨x₂, y₂, 1⟩
    let x := l ^ 2 - x₁ - x₂
    p = Coordinates.scale p.z ⟨x, -(l * (x - x₁) + y₁), 1⟩ := by
  obtain rfl : b = y₂ ^ 2 - x₂ ^ 3 + 3 * x₂ := by linear_combination -hb
  obtain rfl : y₁ = y₂ + l * (x₁ - x₂) := by linear_combination hchord
  ext
  · simp only [Coordinates.add, Coordinates.scale]
    linear_combination -(3 * x₁ * x₂ ^ 2 * l + 3 * x₁ * x₂ * y₂ + x₁ * l ^ 2 * y₂ - 3 * x₁ * l
      - 3 * x₂ ^ 3 * l + 3 * x₂ ^ 2 * y₂ - x₂ * l ^ 2 * y₂ + 3 * x₂ * l + 4 * l * y₂ ^ 2
      - 6 * y₂) * htangent
  · simp only [Coordinates.add, Coordinates.scale]
    linear_combination (3 * x₁ * x₂ ^ 2 * l ^ 2 + 3 * x₁ * x₂ * l * y₂ + x₁ * l ^ 3 * y₂
      - 3 * x₁ * l ^ 2 + 9 * x₂ ^ 4 - 3 * x₂ ^ 3 * l ^ 2 + 3 * x₂ ^ 2 * l * y₂ - 18 * x₂ ^ 2
      - x₂ * l ^ 3 * y₂ + 3 * x₂ * l ^ 2 - 12 * x₂ * y₂ ^ 2 + 4 * l ^ 2 * y₂ ^ 2 - 6 * l * y₂
      + 9) * htangent
  · simp [Coordinates.scale]

theorem z_of_slope {x₁ y₁ x₂ y₂ m : K} (hb : y₂ ^ 2 = x₂ ^ 3 - 3 * x₂ + b)
    (hchord : y₁ + y₂ = m * (x₁ - x₂))
    (htangent : m * (y₁ - y₂) = x₁ ^ 2 + x₁ * x₂ + x₂ ^ 2 - 3) :
    (Coordinates.add b ⟨x₁, y₁, 1⟩ ⟨x₂, y₂, 1⟩).z =
      (x₁ - x₂) ^ 3 * (m * (m ^ 2 - 2 * x₁ - x₂) + y₁) := by
  obtain rfl : b = y₂ ^ 2 - x₂ ^ 3 + 3 * x₂ := by linear_combination -hb
  obtain rfl : y₁ = m * (x₁ - x₂) - y₂ := by linear_combination hchord
  simp only [Coordinates.add]
  linear_combination -(x₁ ^ 2 * m - 2 * x₁ * x₂ * m + x₁ * y₂ + x₂ ^ 2 * m - x₂ * y₂) * htangent

theorem slope_tangent {x₁ y₁ x₂ y₂ l : K} (hx : x₁ ≠ x₂)
    (h₁ : y₁ ^ 2 = x₁ ^ 3 - 3 * x₁ + b) (h₂ : y₂ ^ 2 = x₂ ^ 3 - 3 * x₂ + b)
    (hchord : y₁ - y₂ = l * (x₁ - x₂)) :
    l * (y₁ + y₂) = x₁ ^ 2 + x₁ * x₂ + x₂ ^ 2 - 3 := by
  apply mul_left_cancel₀ (sub_ne_zero.mpr hx)
  linear_combination h₁ - h₂ - (y₁ + y₂) * hchord

-- Without a root of the right side there is no point of order two.
structure Rootless (b : K) : Prop where
  two : (2 : K) ≠ 0
  root : ∀ x : K, x ^ 3 - 3 * x + b ≠ 0

namespace Rootless

variable (hb : Rootless b)
include hb

theorem y_ne_zero {x y : K} (h : (curve b).Equation x y) : y ≠ 0 := by
  rintro rfl
  have heq := equation_iff.mp h
  rw [zero_pow two_ne_zero] at heq
  exact hb.root x heq.symm

theorem y_ne_neg {x y : K} (h : (curve b).Equation x y) : y ≠ -y := by
  intro heq
  have hdouble : 2 * y = 0 := by linear_combination heq
  exact (mul_eq_zero.mp hdouble).elim hb.two (hb.y_ne_zero h)

theorem y_ne_negY {x y : K} (h : (curve b).Equation x y) : y ≠ (curve b).negY x y := by
  rw [negY_eq]
  exact hb.y_ne_neg h

theorem nonsingular {x y : K} (h : (curve b).Equation x y) : (curve b).Nonsingular x y := by
  refine (nonsingular_iff x y).mpr ⟨h, Or.inr ?_⟩
  simpa [curve] using hb.y_ne_neg h

variable [DecidableEq K]

theorem represents_chord {x₁ y₁ x₂ y₂ : K} (h₁ : (curve b).Nonsingular x₁ y₁)
    (h₂ : (curve b).Nonsingular x₂ y₂) (hx : x₁ ≠ x₂) :
    Represents (Coordinates.add b ⟨x₁, y₁, 1⟩ ⟨x₂, y₂, 1⟩)
      (.some x₁ y₁ h₁ + .some x₂ y₂ h₂) := by
  have hd : x₁ - x₂ ≠ 0 := sub_ne_zero.mpr hx
  have e₁ := equation_iff.mp h₁.1
  have e₂ := equation_iff.mp h₂.1
  have hchord : y₁ - y₂ = (y₁ - y₂) / (x₁ - x₂) * (x₁ - x₂) := (div_mul_cancel₀ _ hd).symm
  have hopposite : y₁ + y₂ = (y₁ + y₂) / (x₁ - x₂) * (x₁ - x₂) := (div_mul_cancel₀ _ hd).symm
  have hz : (Coordinates.add b ⟨x₁, y₁, 1⟩ ⟨x₂, y₂, 1⟩).z ≠ 0 := by
    have e₃ : (-y₂) ^ 2 = x₂ ^ 3 - 3 * x₂ + b := by rw [neg_sq, e₂]
    have htangent := slope_tangent hx e₁ e₃ (by rw [sub_neg_eq_add]; exact hopposite)
    rw [← sub_eq_add_neg] at htangent
    rw [z_of_slope e₂ hopposite htangent]
    have hdifference := hb.y_ne_zero (nonsingular_add h₁ ((nonsingular_neg x₂ y₂).mpr h₂)
      fun h => hx h.1).1
    simp only [addY, negAddY, addX, slope_of_X_ne hx, negY_eq] at hdifference
    refine mul_ne_zero (pow_ne_zero 3 hd) fun heq => hdifference ?_
    simp only [curve]
    linear_combination -heq
  refine ⟨_, hz, ?_⟩
  rw [Point.add_of_X_ne hx]
  refine (add_of_slope e₂ hchord (slope_tangent hx e₁ e₂ hchord)).trans ?_
  congr 1
  simp only [coordinates, addY, negAddY, addX, slope_of_X_ne hx, negY_eq]
  ext <;> simp [curve]

theorem slope_self {x y : K} (h : (curve b).Equation x y) :
    (curve b).slope x x y y * (y + y) = x ^ 2 + x * x + x ^ 2 - 3 := by
  have hy : y + y ≠ 0 := by
    rw [← two_mul]
    exact mul_ne_zero hb.two (hb.y_ne_zero h)
  rw [slope_of_Y_ne rfl (hb.y_ne_negY h), negY_eq, sub_neg_eq_add, div_mul_cancel₀ _ hy]
  simp only [curve]
  ring

theorem represents_tangent {x y : K} (h : (curve b).Nonsingular x y) :
    Represents (Coordinates.add b ⟨x, y, 1⟩ ⟨x, y, 1⟩) (.some x y h + .some x y h) := by
  have heq := equation_iff.mp h.1
  have hz : (Coordinates.add b ⟨x, y, 1⟩ ⟨x, y, 1⟩).z ≠ 0 := by
    have hcube : (Coordinates.add b ⟨x, y, 1⟩ ⟨x, y, 1⟩).z = 2 ^ 3 * y ^ 3 := by
      obtain rfl : b = y ^ 2 - x ^ 3 + 3 * x := by linear_combination -heq
      simp only [Coordinates.add]
      ring
    rw [hcube]
    exact mul_ne_zero (pow_ne_zero 3 hb.two) (pow_ne_zero 3 (hb.y_ne_zero h.1))
  refine ⟨_, hz, ?_⟩
  rw [Point.add_self_of_Y_ne (hb.y_ne_negY h.1)]
  refine (add_of_slope heq (by ring) (hb.slope_self h.1)).trans ?_
  congr 1
  simp only [coordinates, addY, negAddY, addX, negY_eq]
  ext <;> simp [curve]

theorem represents_opposite {x y : K} (h : (curve b).Nonsingular x y) :
    Represents (b := b) (Coordinates.add b ⟨x, y, 1⟩ ⟨x, -y, 1⟩) 0 := by
  have heq := equation_iff.mp h.1
  have hslope := hb.slope_self h.1
  have hdouble := hb.y_ne_zero (nonsingular_add h h fun hxy => hb.y_ne_negY h.1 hxy.2).1
  refine ⟨2 ^ 3 * y ^ 3 * (curve b).addY x x y ((curve b).slope x x y y),
    mul_ne_zero (mul_ne_zero (pow_ne_zero 3 hb.two) (pow_ne_zero 3 (hb.y_ne_zero h.1))) hdouble,
    ?_⟩
  simp only [addY, negAddY, addX, negY_eq]
  generalize (curve b).slope x x y y = l at hslope
  obtain rfl : b = y ^ 2 - x ^ 3 + 3 * x := by linear_combination -heq
  ext
  · simp only [Coordinates.add, Coordinates.scale, coordinates]
    ring
  · simp only [Coordinates.add, Coordinates.scale, coordinates, curve]
    linear_combination (9 * x ^ 4 + 6 * x ^ 2 * l * y - 18 * x ^ 2 - 12 * x * y ^ 2
      + 4 * l ^ 2 * y ^ 2 - 6 * l * y + 9) * hslope
  · simp only [Coordinates.add, Coordinates.scale, coordinates]
    ring

omit [DecidableEq K] in
theorem represents_zero_add (P : (curve b).Point) :
    Represents ((coordinates (0 : (curve b).Point)).add b (coordinates P)) P := by
  cases P with
  | zero =>
      refine ⟨1, one_ne_zero, ?_⟩
      ext <;> simp [coordinates, Coordinates.add, Coordinates.scale]
  | some x y h =>
      refine ⟨y, hb.y_ne_zero h.1, ?_⟩
      ext
      · simp [coordinates, Coordinates.add, Coordinates.scale, mul_comm]
      · simp [coordinates, Coordinates.add, Coordinates.scale]
      · simp [coordinates, Coordinates.add, Coordinates.scale]

theorem represents_coordinates (P Q : (curve b).Point) :
    Represents ((coordinates P).add b (coordinates Q)) (P + Q) := by
  cases P with
  | zero =>
      rw [← Point.zero_def, zero_add]
      exact hb.represents_zero_add Q
  | some x₁ y₁ h₁ =>
      cases Q with
      | zero =>
          rw [← Point.zero_def, add_zero, Coordinates.add_comm]
          exact hb.represents_zero_add _
      | some x₂ y₂ h₂ =>
          by_cases hx : x₁ = x₂
          · subst hx
            rcases Y_eq_of_X_eq h₁.1 h₂.1 rfl with hy | hy
            · subst hy
              exact hb.represents_tangent h₁
            · rw [Point.add_of_Y_eq rfl hy]
              obtain rfl : y₂ = -y₁ := by rw [hy, negY_eq, neg_neg]
              exact hb.represents_opposite h₁
          · exact hb.represents_chord h₁ h₂ hx

theorem represents_add {p q : Coordinates K} {P Q : (curve b).Point} (hp : Represents p P)
    (hq : Represents q Q) : Represents (p.add b q) (P + Q) := by
  obtain ⟨c, hc, rfl⟩ := hp
  obtain ⟨d, hd, rfl⟩ := hq
  obtain ⟨e, he, hsum⟩ := hb.represents_coordinates P Q
  refine ⟨(c * d) ^ 2 * e, mul_ne_zero (pow_ne_zero 2 (mul_ne_zero hc hd)) he, ?_⟩
  rw [Coordinates.add_scale, hsum, Coordinates.scale_scale]

end Rootless

end DeviceAuth.Weierstrass
