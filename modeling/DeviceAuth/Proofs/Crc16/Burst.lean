import DeviceAuth.Proofs.Crc16

namespace DeviceAuth.Crc16

variable {a b u v : Bytes} {c : Remainder} {i : Nat}

theorem foldl_absorb_injective (s : Bytes) : Function.Injective fun c => s.foldl absorb c := by
  induction s with
  | nil => exact fun _ _ h => h
  | cons x s ih => exact fun _ _ h => absorb_injective x (ih h)

theorem eq_zeros_of_short (hshort : u.length ≤ 2) (h : remainder u = 0) :
    u = List.replicate u.length 0 := by
  match u with
  | [] => rfl
  | [x] =>
      have hpadded : remainder [x, 0] = 0 := (remainder_append_zeros (n := 1)).mpr h
      obtain ⟨rfl, -⟩ := eq_zero_of_remainder_pair hpadded
      rfl
  | [x, y] =>
      obtain ⟨rfl, rfl⟩ := eq_zero_of_remainder_pair h
      rfl
  | _ :: _ :: _ :: _ =>
      simp only [List.length_cons] at hshort
      omega

theorem eq_of_foldl_absorb (hlength : u.length = v.length) (hshort : u.length ≤ 2)
    (h : u.foldl absorb c = v.foldl absorb c) : u = v := by
  have hxor : remainder (Bytes.xor u v) = 0 := by
    have hsum := foldl_absorb_xor hlength (c := c) (d := c)
    rwa [h, BitVec.xor_self, BitVec.xor_self] at hsum
  have hxorShort : (Bytes.xor u v).length ≤ 2 := by
    rw [Bytes.length_xor]
    omega
  exact Bytes.eq_of_xor hlength (eq_zeros_of_short hxorShort hxor)

theorem take_append_window (i : Nat) (a : Bytes) :
    a.take i ++ ((a.drop i).take 2 ++ a.drop (i + 2)) = a := by
  rw [← List.drop_drop, List.take_append_drop, List.take_append_drop]

structure Burst (i : Nat) (a b : Bytes) : Prop where
  length : a.length = b.length
  ne : a ≠ b
  within : ∀ j, a[j]? ≠ b[j]? → j = i ∨ j = i + 1

namespace Burst

theorem agree (h : Burst i a b) {j : Nat} (hj : j < i ∨ i + 2 ≤ j) : a[j]? = b[j]? := by
  refine Decidable.byContradiction fun hne => ?_
  rcases h.within j hne with hat | hnext <;> omega

theorem before (h : Burst i a b) : a.take i = b.take i := by
  apply List.ext_getElem?
  intro j
  rw [List.getElem?_take, List.getElem?_take]
  split
  next hj => exact h.agree (.inl hj)
  next => rfl

theorem after (h : Burst i a b) : a.drop (i + 2) = b.drop (i + 2) := by
  apply List.ext_getElem?
  intro j
  rw [List.getElem?_drop, List.getElem?_drop]
  exact h.agree (.inr (by omega))

theorem remainder_ne (h : Burst i a b) : remainder a ≠ remainder b := by
  intro heq
  rw [← take_append_window i a, ← take_append_window i b, h.before, h.after, remainder_append,
    remainder_append, List.foldl_append, List.foldl_append] at heq
  have hlength : ((a.drop i).take 2).length = ((b.drop i).take 2).length := by
    rw [List.length_take, List.length_take, List.length_drop, List.length_drop, h.length]
  have hwindow : (a.drop i).take 2 = (b.drop i).take 2 :=
    eq_of_foldl_absorb hlength (List.length_take_le _ _) (foldl_absorb_injective _ heq)
  apply h.ne
  rw [← take_append_window i a, ← take_append_window i b, h.before, h.after, hwindow]

end Burst

theorem short_bursts_detected :
    (∀ a b i, Burst i a b → remainder a ≠ remainder b) ∧
    ∀ a b : Bytes, a.length = b.length →
      remainder (Bytes.xor a b) = remainder a ^^^ remainder b :=
  ⟨fun _ _ _ h => h.remainder_ne, fun _ _ h => remainder_xor h⟩

def digits : Bytes :=
  [0x31, 0x32, 0x33, 0x34, 0x35, 0x36, 0x37, 0x38, 0x39]

def digitsExchanged : Bytes :=
  [0x31, 0x32, 0x33, 0x35, 0x34, 0x36, 0x37, 0x38, 0x39]

theorem burst_inside_digits :
    (Burst 3 digits digitsExchanged ∧ remainder digits ≠ remainder digitsExchanged) ∧
      digits.length = digitsExchanged.length ∧
        remainder (Bytes.xor digits digitsExchanged) =
          remainder digits ^^^ remainder digitsExchanged := by
  have hinside : ∀ j < 9, digits[j]? ≠ digitsExchanged[j]? → j = 3 ∨ j = 4 := by decide
  have hburst : Burst 3 digits digitsExchanged :=
    { length := rfl
      ne := by decide
      within := by
        intro j hj
        refine hinside j (Nat.lt_of_not_le fun hpast => hj ?_) hj
        rw [List.getElem?_eq_none hpast]
        exact (List.getElem?_eq_none hpast).symm }
  exact ⟨⟨hburst, short_bursts_detected.1 _ _ _ hburst⟩, hburst.length,
    short_bursts_detected.2 _ _ hburst.length⟩

end DeviceAuth.Crc16
