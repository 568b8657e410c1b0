import Mathlib.Algebra.Group.Nat.Defs
import DeviceAuth.Framing

namespace DeviceAuth

namespace Bytes

theorem capacity_eq (width : Nat) : capacity width = 256 ^ width := by
  induction width with
  | zero => rfl
  | succ width ih => rw [capacity, ih, Nat.pow_succ, Nat.mul_comm]

theorem ofBigEndian_bigEndian_of_lt {width n : Nat} (h : n < 256 ^ width) :
    ofBigEndian (bigEndian width n) = n := by
  rw [ofBigEndian_bigEndian, capacity_eq, Nat.mod_eq_of_lt h]

theorem ofLittleEndian_lt (b : Bytes) : ofLittleEndian b < 256 ^ b.length := by
  induction b with
  | nil => simp [ofLittleEndian]
  | cons x rest ih =>
      have hx : x.toNat < 256 := UInt8.toNat_lt x
      simp only [ofLittleEndian, List.length_cons, Nat.pow_succ]
      omega

theorem ofBigEndian_lt (b : Bytes) : ofBigEndian b < 256 ^ b.length := by
  have h := ofLittleEndian_lt b.reverse
  rwa [List.length_reverse] at h

end Bytes

namespace Framing

def Fits (c : Bytes) : Prop :=
  c.length < 2 ^ 32

theorem exists_lengthBytes (n : Nat) : ∃ a b c d, Bytes.bigEndian 4 n = [a, b, c, d] :=
  ⟨_, _, _, _, rfl⟩

theorem split_component {c : Bytes} (h : Fits c) (rest : Bytes) :
    split (component c ++ rest) = (split rest).map (c :: ·) := by
  obtain ⟨b0, b1, b2, b3, hb⟩ := exists_lengthBytes c.length
  have hn : Bytes.ofBigEndian [b0, b1, b2, b3] = c.length := by
    rw [← hb]
    exact Bytes.ofBigEndian_bigEndian_of_lt h
  have hl : ¬(c ++ rest).length < c.length := by
    rw [List.length_append]
    omega
  simp only [component, hb, List.cons_append, List.nil_append]
  rw [split]
  simp only [hn, if_neg hl, List.take_left, List.drop_left]

theorem split_join {cs : List Bytes} (h : ∀ c ∈ cs, Fits c) : split (join cs) = .ok cs := by
  induction cs with
  | nil => simp [split]
  | cons c cs ih =>
      obtain ⟨hc, hcs⟩ := List.forall_mem_cons.mp h
      have hj : join (c :: cs) = component c ++ join cs := by simp [join]
      rw [hj, split_component hc, ih hcs]
      rfl

theorem join_injective {cs ds : List Bytes} (hc : ∀ c ∈ cs, Fits c) (hd : ∀ d ∈ ds, Fits d)
    (h : join cs = join ds) : cs = ds := by
  have hs := split_join hc
  rw [h, split_join hd] at hs
  exact (Except.ok.inj hs).symm

theorem fits_and_join_of_split {b : Bytes} {cs : List Bytes} (h : split b = .ok cs) :
    (∀ c ∈ cs, Fits c) ∧ join cs = b := by
  induction b using split.induct generalizing cs with
  | case1 =>
      simp only [split, Except.ok.injEq] at h
      simp [← h]
  | case2 b0 b1 b2 b3 rest n =>
      rename_i hlt
      rw [split, if_pos hlt] at h
      cases h
  | case3 b0 b1 b2 b3 rest n hle =>
      rename_i ih
      rw [split, if_neg hle] at h
      cases hrest : split (rest.drop n) with
      | error e => rw [hrest] at h; cases h
      | ok ds =>
          rw [hrest] at h
          cases h
          obtain ⟨hfits, hjoin⟩ := ih hrest
          have hn : n < 2 ^ 32 := by
            simpa using Bytes.ofBigEndian_lt [b0, b1, b2, b3]
          have hlength : (rest.take n).length = n := by
            rw [List.length_take]
            omega
          have hhead : Fits (rest.take n) := by rwa [Fits, hlength]
          have hbytes : Bytes.bigEndian 4 n = [b0, b1, b2, b3] :=
            Bytes.bigEndian_ofBigEndian [b0, b1, b2, b3]
          refine ⟨List.forall_mem_cons.mpr ⟨hhead, hfits⟩, ?_⟩
          rw [join_cons, hlength, hbytes, hjoin, List.take_append_drop]
          rfl
  | case4 b hnil hcons =>
      rw [split] at h
      · cases h
      · exact hnil
      · exact hcons

theorem split_eq_ok {b : Bytes} {cs : List Bytes} :
    split b = .ok cs ↔ (∀ c ∈ cs, Fits c) ∧ join cs = b :=
  ⟨fits_and_join_of_split, fun ⟨hfits, hjoin⟩ => hjoin ▸ split_join hfits⟩

theorem fits_of_mem_split {b : Bytes} {cs : List Bytes} (h : split b = .ok cs) :
    ∀ c ∈ cs, Fits c :=
  (split_eq_ok.mp h).1

end Framing

end DeviceAuth
