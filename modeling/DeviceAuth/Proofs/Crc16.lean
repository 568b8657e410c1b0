import DeviceAuth.Crc16

namespace DeviceAuth.Crc16

section Steps

variable {c d : Remainder}

theorem xor_xor_xor (c d p : Remainder) : c ^^^ p ^^^ (d ^^^ p) = c ^^^ d := by
  have htogether : c ^^^ p ^^^ (d ^^^ p) = c ^^^ d ^^^ (p ^^^ p) := by ac_rfl
  rw [htogether, BitVec.xor_self, BitVec.xor_zero]

theorem shift_xor (c d : Remainder) : shift (c ^^^ d) = shift c ^^^ shift d := by
  unfold shift
  rw [BitVec.getLsbD_xor, BitVec.ushiftRight_xor_distrib]
  cases c.getLsbD 0 <;> cases d.getLsbD 0 <;> simp only [Bool.xor_true, Bool.xor_false,
    Bool.not_true, Bool.not_false, Bool.false_eq_true, if_true, if_false]
  -- The polynomial is added once or, where both low bits are set, twice.
  · ac_rfl
  · ac_rfl
  · exact (xor_xor_xor _ _ _).symm

theorem shifts_xor (n : Nat) (c d : Remainder) :
    shifts n (c ^^^ d) = shifts n c ^^^ shifts n d := by
  induction n generalizing c d with
  | zero => rfl
  | succ n ih => rw [shifts, shift_xor, ih, shifts, shifts]

@[simp] theorem shifts_zero (n : Nat) : shifts n 0 = 0 := by
  induction n with
  | zero => rfl
  | succ n ih => exact ih

theorem eq_zero_of_shift (h : shift c = 0) : c = 0 := by
  have hbits : ∀ i < 16, (shift c).getLsbD i = false := by
    intro i _
    rw [h]
    exact BitVec.getLsbD_zero
  have hlow : c.getLsbD 0 = false := by
    have htop := hbits 15 (by decide)
    unfold shift at htop
    split at htop
    next => simp [polynomial] at htop
    next hclear => simpa using hclear
  apply BitVec.eq_of_getLsbD_eq
  intro i hi
  refine Eq.trans ?_ BitVec.getLsbD_zero.symm
  cases i with
  | zero => exact hlow
  | succ i =>
      have hnext := hbits i (by omega)
      rw [shift, hlow, if_neg (by decide), BitVec.getLsbD_ushiftRight, Nat.add_comm] at hnext
      exact hnext

theorem eq_zero_of_shifts {n : Nat} (h : shifts n c = 0) : c = 0 := by
  induction n generalizing c with
  | zero => exact h
  | succ n ih => exact eq_zero_of_shift (ih h)

theorem shifts_add (m n : Nat) (c : Remainder) : shifts (m + n) c = shifts n (shifts m c) := by
  induction m generalizing c with
  | zero => rw [Nat.zero_add, shifts]
  | succ m ih => rw [Nat.succ_add, shifts, ih, shifts]

theorem shifts_of_clear {n : Nat} (h : ∀ i < n, c.getLsbD i = false) : shifts n c = c >>> n := by
  induction n generalizing c with
  | zero => simp [shifts]
  | succ n ih =>
      have hlow : shift c = c >>> 1 := by
        rw [shift, h 0 (Nat.succ_pos n), if_neg Bool.false_ne_true]
      have hrest : ∀ i < n, (c >>> 1).getLsbD i = false := by
        intro i hi
        rw [BitVec.getLsbD_ushiftRight]
        exact h (1 + i) (by omega)
      rw [shifts, hlow, ih hrest, ← BitVec.shiftRight_add, Nat.add_comm]

theorem absorb_xor (c d : Remainder) (x y : UInt8) :
    absorb (c ^^^ d) (x ^^^ y) = absorb c x ^^^ absorb d y := by
  rw [absorb, absorb, absorb, ← shifts_xor, UInt8.toBitVec_xor, BitVec.setWidth_xor]
  congr 1
  ac_rfl

theorem absorb_eq_zero {x : UInt8} : absorb c x = 0 ↔ c = x.toBitVec.setWidth 16 := by
  constructor
  · intro h
    exact BitVec.xor_eq_zero_iff.mp (eq_zero_of_shifts h)
  · rintro rfl
    rw [absorb, BitVec.xor_self]
    exact shifts_zero 8

theorem absorb_injective (x : UInt8) : Function.Injective (absorb · x) := by
  intro c d h
  have hzero : absorb (c ^^^ d) (x ^^^ x) = 0 := by
    rw [absorb_xor]
    exact BitVec.xor_eq_zero_iff.mpr h
  rw [absorb_eq_zero, UInt8.xor_self] at hzero
  exact BitVec.xor_eq_zero_iff.mp hzero

end Steps

section Words

def word (x y : UInt8) : Remainder :=
  y.toBitVec ++ x.toBitVec

theorem toNat_word (x y : UInt8) : (word x y).toNat = 256 * y.toNat + x.toNat := by
  rw [word, BitVec.toNat_append, ← Nat.shiftLeft_add_eq_or_of_lt x.toBitVec.isLt, Nat.shiftLeft_eq,
    Nat.mul_comm]
  rfl

theorem setWidth_eq_word (x : UInt8) : x.toBitVec.setWidth 16 = word x 0 := by
  have hsmall : x.toNat < 2 ^ 16 := Nat.lt_trans x.toNat_lt (by decide)
  apply BitVec.eq_of_toNat_eq
  rw [toNat_word, BitVec.toNat_setWidth, UInt8.toNat_toBitVec, Nat.mod_eq_of_lt hsmall]
  exact (Nat.zero_add _).symm

theorem word_eq_xor (x y : UInt8) : word x y = word x 0 ^^^ word 0 y := by
  rw [word, word, word, BitVec.xor_append]
  simp

theorem shifts_word (y : UInt8) : shifts 8 (word 0 y) = word y 0 := by
  have hclear : ∀ i < 8, (word 0 y).getLsbD i = false := by
    intro i hi
    rw [word, BitVec.getLsbD_append, if_pos hi]
    exact BitVec.getLsbD_zero
  apply BitVec.eq_of_toNat_eq
  rw [shifts_of_clear hclear, BitVec.toNat_ushiftRight, toNat_word, toNat_word,
    Nat.shiftRight_eq_div_pow]
  simp

theorem eq_zero_of_word {x y : UInt8} (h : word x y = 0) : x = 0 ∧ y = 0 := by
  have hnat : 256 * y.toNat + x.toNat = (0 : UInt8).toNat := by
    rw [← toNat_word, h]
    rfl
  have hzero : (0 : UInt8).toNat = 0 := rfl
  exact ⟨UInt8.toNat_inj.mp (by omega), UInt8.toNat_inj.mp (by omega)⟩

theorem remainder_pair (x y : UInt8) : remainder [x, y] = shifts 16 (word x y) := by
  have hfirst : absorb 0 x = shifts 8 (word x 0) := by
    rw [absorb, setWidth_eq_word]
    exact congrArg (shifts 8) BitVec.zero_xor
  calc remainder [x, y] = shifts 8 (shifts 8 (word x 0) ^^^ word y 0) := by
        rw [← hfirst, ← setWidth_eq_word y]
        rfl
    _ = shifts 8 (shifts 8 (word x y)) := by rw [← shifts_word y, ← shifts_xor, ← word_eq_xor]
    _ = shifts 16 (word x y) := (shifts_add 8 8 _).symm

end Words

section Strings

variable {a b : Bytes} {c d : Remainder}

theorem remainder_append (a b : Bytes) : remainder (a ++ b) = b.foldl absorb (remainder a) :=
  List.foldl_append

theorem foldl_absorb_xor (h : a.length = b.length) :
    (Bytes.xor a b).foldl absorb (c ^^^ d) = a.foldl absorb c ^^^ b.foldl absorb d := by
  induction a generalizing b c d with
  | nil =>
      obtain rfl : b = [] := List.eq_nil_of_length_eq_zero h.symm
      rfl
  | cons x a ih =>
      cases b with
      | nil => cases h
      | cons y b =>
          simp only [List.foldl_cons]
          rw [← ih (Nat.succ.inj h), ← absorb_xor]
          rfl

theorem remainder_xor (h : a.length = b.length) :
    remainder (Bytes.xor a b) = remainder a ^^^ remainder b := by
  have hzero : (0 : Remainder) = 0 ^^^ 0 := rfl
  rw [remainder, hzero, foldl_absorb_xor h]
  rfl

theorem foldl_absorb_zeros {n : Nat} : (List.replicate n 0).foldl absorb c = 0 ↔ c = 0 := by
  induction n generalizing c with
  | zero => rfl
  | succ n ih =>
      rw [List.replicate_succ, List.foldl_cons, ih, absorb_eq_zero]
      rfl

theorem remainder_zeros_append (n : Nat) (a : Bytes) :
    remainder (List.replicate n 0 ++ a) = remainder a := by
  rw [remainder_append, remainder, foldl_absorb_zeros.mpr rfl]
  rfl

theorem remainder_append_zeros {n : Nat} :
    remainder (a ++ List.replicate n 0) = 0 ↔ remainder a = 0 := by
  rw [remainder_append, foldl_absorb_zeros]

theorem check_eq (a : Bytes) :
    check a = [UInt8.ofNat ((remainder a).toNat / 256), UInt8.ofNat (remainder a).toNat] :=
  rfl

theorem length_check (a : Bytes) : (check a).length = 2 :=
  Bytes.length_bigEndian 2 _

theorem check_xor (h : a.length = b.length) :
    check (Bytes.xor a b) = Bytes.xor (check a) (check b) := by
  have hdiv (m n : Nat) : (m ^^^ n) / 256 = m / 256 ^^^ n / 256 := by
    have hshift : (m ^^^ n) >>> 8 = m >>> 8 ^^^ n >>> 8 := Nat.shiftRight_xor_distrib
    simpa only [Nat.shiftRight_eq_div_pow] using hshift
  simp only [check_eq, remainder_xor h, BitVec.toNat_xor, hdiv, UInt8.ofNat_xor]
  rfl

theorem append_xor (h : a.length = b.length) :
    append (Bytes.xor a b) = Bytes.xor (append a) (append b) := by
  rw [append, check_xor h]
  exact (List.zipWith_append h).symm

theorem remainder_of_check (h : check a = List.replicate 2 0) : remainder a = 0 := by
  have hread : (remainder a).toNat % 65536 = 0 :=
    (Bytes.ofBigEndian_bigEndian 2 (remainder a).toNat).symm.trans (congrArg Bytes.ofBigEndian h)
  apply BitVec.eq_of_toNat_eq
  rwa [Nat.mod_eq_of_lt (remainder a).isLt] at hread

theorem eq_zero_of_remainder_pair {x y : UInt8} (h : remainder [x, y] = 0) : x = 0 ∧ y = 0 := by
  rw [remainder_pair] at h
  exact eq_zero_of_word (eq_zero_of_shifts h)

theorem eq_zero_of_remainder_triple {x y z : UInt8} (hx : x.toNat < 2)
    (hz : z = 0 ∨ z = 128) (h : remainder [x, y, z] = 0) : x = 0 ∧ y = 0 ∧ z = 0 := by
  have hpair : remainder [x, y] = z.toBitVec.setWidth 16 := absorb_eq_zero.mp h
  rcases hz with rfl | rfl
  · obtain ⟨hfirst, hsecond⟩ := eq_zero_of_remainder_pair hpair
    exact ⟨hfirst, hsecond, rfl⟩
  · have hnever : ∀ m < 2, ∀ n < 256, remainder [UInt8.ofNat m, UInt8.ofNat n] ≠ 128 := by
      decide +kernel
    refine absurd hpair ?_
    have hne := hnever x.toNat hx y.toNat y.toNat_lt
    rwa [UInt8.ofNat_toNat, UInt8.ofNat_toNat] at hne

end Strings

end DeviceAuth.Crc16
