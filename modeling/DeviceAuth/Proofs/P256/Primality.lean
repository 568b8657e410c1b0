import Mathlib.Data.List.Prime
import Mathlib.NumberTheory.LucasPrimality
import Mathlib.Tactic.NormNum.Prime
import DeviceAuth.P256.Field

namespace DeviceAuth.P256

section Digits

variable {α : Type} {P : Nat → α → Prop} {twice plus : α → α} {start : α}

theorem foldl_digits (zero : P 0 start) (double : ∀ k a, P k a → P (2 * k) (twice a))
    (next : ∀ k a, P k a → P (k + 1) (plus a)) {n : Nat} (h : n < 2 ^ 256) :
    ∀ i ≤ 256, P (n / 2 ^ (256 - i)) (((List.range i).map fun j => n.testBit (255 - j)).foldl
      (fun a b => if b then plus (twice a) else twice a) start) := by
  intro i
  induction i with
  | zero =>
      intro _
      rw [Nat.sub_zero, Nat.div_eq_of_lt h]
      exact zero
  | succ i ih =>
      intro hi
      have hp := double _ _ (ih (by omega))
      rw [show 256 - i = 255 - i + 1 by omega, Nat.pow_succ, ← Nat.div_div_eq_div_mul] at hp
      rw [List.range_succ, List.map_append, List.foldl_append, List.map_singleton,
        List.foldl_cons, List.foldl_nil, Nat.testBit_eq_decide_div_mod_eq,
        show 256 - (i + 1) = 255 - i by omega]
      rcases Nat.mod_two_eq_zero_or_one (n / 2 ^ (255 - i)) with hm | hm
      · rw [show 2 * (n / 2 ^ (255 - i) / 2) = n / 2 ^ (255 - i) by omega] at hp
        simpa [hm] using hp
      · have hs := next _ _ hp
        rw [show 2 * (n / 2 ^ (255 - i) / 2) + 1 = n / 2 ^ (255 - i) by omega] at hs
        simpa [hm] using hs

theorem byBits_induction (zero : P 0 start) (double : ∀ k a, P k a → P (2 * k) (twice a))
    (next : ∀ k a, P k a → P (k + 1) (plus a)) {n : Nat} (h : n < 2 ^ 256) :
    P n (byBits twice plus start n) := by
  have hp := foldl_digits zero double next h 256 (Nat.le_refl 256)
  rwa [Nat.sub_self, Nat.pow_zero, Nat.div_one] at hp

end Digits

def powMod (m a e : Nat) : Nat :=
  byBits (fun b => b * b % m) (fun b => b * a % m) (1 % m) e

theorem powMod_eq (m a : Nat) {e : Nat} (h : e < 2 ^ 256) : powMod m a e = a ^ e % m := by
  refine byBits_induction (P := fun k b => b = a ^ k % m) (by rw [Nat.pow_zero]) ?_ ?_ h
  · intro k b hb
    rw [hb, ← Nat.mul_mod, ← Nat.pow_add, Nat.two_mul]
  · intro k b hb
    rw [hb, Nat.mod_mul_mod, Nat.pow_succ]

theorem cast_pow_eq_one {p a e : Nat} (hp : 1 < p) (he : e < 2 ^ 256) :
    (a : ZMod p) ^ e = 1 ↔ powMod p a e = 1 := by
  rw [powMod_eq p a he, ← Nat.cast_pow, ← Nat.cast_one, ZMod.natCast_eq_natCast_iff',
    Nat.mod_eq_of_lt hp]

structure Certificate where
  value : Nat
  root : Nat
  factors : List Nat

namespace Certificate

def Holds (c : Certificate) : Prop :=
  1 < c.value ∧ c.value < 2 ^ 256 ∧ c.factors.prod = c.value - 1 ∧
    powMod c.value c.root (c.value - 1) = 1 ∧
    ∀ q ∈ c.factors, powMod c.value c.root ((c.value - 1) / q) ≠ 1

instance (c : Certificate) : Decidable c.Holds :=
  inferInstanceAs (Decidable (_ ∧ _))

theorem prime_of_holds {c : Certificate} (h : c.Holds) (hf : ∀ q ∈ c.factors, q.Prime) :
    c.value.Prime := by
  obtain ⟨hone, hsize, hprod, hroot, hparts⟩ := h
  have hlt : ∀ {e}, e ≤ c.value - 1 → e < 2 ^ 256 := fun he => by omega
  refine lucas_primality c.value c.root ?_ ?_
  · exact (cast_pow_eq_one hone (hlt (Nat.le_refl _))).mpr hroot
  · intro q hq hdvd
    rw [← hprod, hq.prime.dvd_prod_iff] at hdvd
    obtain ⟨r, hr, hqr⟩ := hdvd
    obtain rfl := (Nat.prime_dvd_prime_iff_eq hq (hf r hr)).mp hqr
    rw [Ne, cast_pow_eq_one hone (hlt (Nat.div_le_self _ _))]
    exact hparts q hr

def Chained (small : List Nat) : List Certificate → Prop
  | [] => True
  | c :: later => c.Holds ∧ (∀ q ∈ c.factors, q ∈ small ++ later.map value) ∧
      Chained small later

instance decidableChained (small : List Nat) :
    (cs : List Certificate) → Decidable (Chained small cs)
  | [] => inferInstanceAs (Decidable True)
  | _ :: later =>
      let _ := decidableChained small later
      inferInstanceAs (Decidable (_ ∧ _ ∧ _))

theorem prime_of_chained {small : List Nat} (hsmall : ∀ q ∈ small, q.Prime)
    {cs : List Certificate} (h : Chained small cs) : ∀ c ∈ cs, c.value.Prime := by
  induction cs with
  | nil => simp
  | cons c later ih =>
      obtain ⟨hc, hf, hlater⟩ := h
      have hrest := ih hlater
      rw [List.forall_mem_cons]
      refine ⟨prime_of_holds hc fun q hq => ?_, hrest⟩
      rcases List.mem_append.mp (hf q hq) with hs | hl
      · exact hsmall q hs
      · obtain ⟨d, hd, rfl⟩ := List.mem_map.mp hl
        exact hrest d hd

end Certificate

def smallPrimes : List Nat :=
  [2, 3, 5, 7, 11, 17, 23, 29, 41, 43, 53, 71, 107, 127, 131, 173, 197, 257, 311, 373, 641,
   1297, 1531, 2411, 3023, 3407, 3677, 3769, 16879, 17449, 18169, 38189, 65537, 78283, 126241,
   155317, 490463, 704251, 3969899, 6700417, 9350987]

theorem prime_of_mem_smallPrimes : ∀ q ∈ smallPrimes, q.Prime := by
  simp only [smallPrimes, List.forall_mem_cons]
  norm_num

def certificates : List Certificate :=
  [⟨prime, 6, [2, 3, 5, 5, 17, 257, 641, 1531, 65537, 490463, 6700417,
     835945042244614951780389953367877943453916927241]⟩,
   ⟨order, 7, [2, 2, 2, 2, 3, 71, 131, 373, 3407, 17449, 38189, 187019741, 622491383,
     1002328039319, 2624747550333869278416773953]⟩,
   ⟨835945042244614951780389953367877943453916927241, 11, [2, 2, 2, 3, 3, 3, 5,
     774023187263532362759620327192479577272145303]⟩,
   ⟨774023187263532362759620327192479577272145303, 3, [2, 3, 3, 2411, 34282281433,
     11290956913871, 46076956964474543]⟩,
   ⟨2624747550333869278416773953, 7, [2, 2, 2, 2, 2, 2, 3, 3, 1297, 16879, 208150935158385979]⟩,
   ⟨208150935158385979, 2, [2, 3, 11, 43, 127, 3023, 191039911]⟩,
   ⟨46076956964474543, 5, [2, 23, 18169, 78283, 704251]⟩,
   ⟨11290956913871, 13, [2, 5, 17, 66417393611]⟩,
   ⟨1002328039319, 19, [2, 126241, 3969899]⟩,
   ⟨66417393611, 6, [2, 5, 53, 173, 197, 3677]⟩,
   ⟨34282281433, 17, [2, 2, 2, 3, 7, 204061199]⟩,
   ⟨622491383, 5, [2, 311245691]⟩,
   ⟨311245691, 2, [2, 5, 7, 17, 29, 29, 311]⟩,
   ⟨204061199, 11, [2, 11, 23, 107, 3769]⟩,
   ⟨191039911, 3, [2, 3, 5, 41, 155317]⟩,
   ⟨187019741, 2, [2, 2, 5, 9350987]⟩]

theorem certificates_chained : Certificate.Chained smallPrimes certificates := by
  decide +kernel

theorem prime_prime : prime.Prime :=
  Certificate.prime_of_chained prime_of_mem_smallPrimes certificates_chained
    ⟨prime, _, _⟩ List.mem_cons_self

theorem order_prime : order.Prime :=
  Certificate.prime_of_chained prime_of_mem_smallPrimes certificates_chained
    ⟨order, _, _⟩ (List.mem_cons_of_mem _ List.mem_cons_self)

instance : Fact prime.Prime :=
  ⟨prime_prime⟩

instance : Fact order.Prime :=
  ⟨order_prime⟩

end DeviceAuth.P256
