import Mathlib.Data.List.Basic
import DeviceAuth.Proofs.ActivationCode.Grammar
import DeviceAuth.Proofs.Crc16

namespace DeviceAuth

namespace Crc16

open Base32

variable {data : Bytes} {w : List Bool} {r s t n : Nat}

theorem drop_burst (h : r + w.length ≤ n) :
    (spare r ++ w ++ spare t).drop n = spare (r + w.length + t - n) := by
  have hpast : (spare r ++ w).length ≤ n := by simpa using h
  rw [List.drop_append, List.drop_eq_nil_of_le hpast, List.nil_append, List.length_append,
    length_spare]
  refine List.drop_replicate.trans (congrArg spare ?_)
  omega

theorem lt_two_of_take_bits {x : UInt8} (h : (bits 8 x.toNat).take 7 = spare 7) : x.toNat < 2 := by
  have hall : ∀ n < 256, (bits 8 n).take 7 = spare 7 → n < 2 := by decide +kernel
  exact hall x.toNat x.toNat_lt h

theorem zero_or_of_drop_bits {x : UInt8} (h : (bits 8 x.toNat).drop 1 = spare 7) :
    x = 0 ∨ x = 128 := by
  have hall : ∀ n < 256, (bits 8 n).drop 1 = spare 7 → n = 0 ∨ n = 128 := by decide +kernel
  rcases hall x.toNat x.toNat_lt h with hzero | hhigh
  · exact .inl (UInt8.toNat_inj.mp hzero)
  · exact .inr (UInt8.toNat_inj.mp hhigh)

theorem eq_zeros_of_dataBits (h : dataBits data = spare (8 * n)) : data = List.replicate n 0 :=
  dataBits_injective (h.trans (dataBits_zeros n).symm)

theorem drop_dataBits_triple (x y z : UInt8) (k : Nat) :
    (dataBits [x, y, z]).drop (16 + k) = (bits 8 z.toNat).drop k := by
  have hthird : dataBits [x, y, z] = dataBits [x, y] ++ bits 8 z.toNat := by
    simp [dataBits]
  have htwo : 16 + k = (dataBits [x, y]).length + k := by
    rw [length_dataBits]
    rfl
  rw [hthird, htwo, List.drop_length_add_append]

theorem eq_zeros_of_triple (hr : r < 8) (hw : w.length ≤ 10) (hthree : data.length = 3)
    (h : dataBits data = spare r ++ w ++ spare t) (hzero : remainder data = 0) :
    data = List.replicate 3 0 := by
  have hlength := congrArg List.length h
  simp only [length_dataBits, hthree, List.length_append, length_spare] at hlength
  match data, hthree with
  | [x, y, z], _ =>
      have hlast : ∀ k, r + w.length ≤ 16 + k → (bits 8 z.toNat).drop k = spare (8 - k) := by
        intro k hk
        rw [← drop_dataBits_triple x y z k, h, drop_burst hk]
        congr 1
        omega
      by_cases hedge : r = 7
      · have hfirst : (bits 8 x.toNat).take 7 = spare 7 := by
          have htake := congrArg (List.take 7) h
          rwa [hedge, dataBits_cons, List.take_append_of_le_length (by simp), List.append_assoc,
            List.take_left' (length_spare 7)] at htake
        obtain ⟨rfl, rfl, rfl⟩ := eq_zero_of_remainder_triple (lt_two_of_take_bits hfirst)
          (zero_or_of_drop_bits (hlast 1 (by omega))) hzero
        rfl
      · have hz : dataBits [z] = spare (8 * 1) := by
          simpa [dataBits] using hlast 0 (by omega)
        obtain rfl : z = 0 := List.singleton_inj.mp (eq_zeros_of_dataBits hz)
        obtain ⟨rfl, rfl⟩ := eq_zero_of_remainder_pair (remainder_append_zeros (n := 1).mp hzero)
        rfl

theorem eq_zeros_of_burst (hw : w.length ≤ 10) (h : dataBits data = spare s ++ w ++ spare t)
    (hzero : remainder data = 0) : data = List.replicate data.length 0 := by
  have hlength := congrArg List.length h
  simp only [length_dataBits, List.length_append, length_spare] at hlength
  -- With three more zeros there are three bytes from the first one that differs.
  have hbits : (spare (s % 8) ++ w ++ spare (24 - s % 8 - w.length)).length = 8 * 3 := by
    simp only [List.length_append, length_spare]
    omega
  obtain ⟨mid, hthree, hmid⟩ := exists_octets hbits
  have hcut : data ++ List.replicate 3 0 =
      List.replicate (s / 8) 0 ++ (mid ++ List.replicate (data.length - s / 8) 0) := by
    apply dataBits_injective
    have hbefore : spare s = spare (8 * (s / 8)) ++ spare (s % 8) :=
      spare_split (Nat.div_add_mod s 8).symm
    have hafter : spare t ++ spare (8 * 3) =
        spare (24 - s % 8 - w.length) ++ spare (8 * (data.length - s / 8)) := by
      rw [← spare_add, ← spare_add]
      congr 1
      omega
    simp only [dataBits_append, dataBits_zeros, h, hmid, hbefore, List.append_assoc, hafter]
  have hinside : remainder mid = 0 := by
    have hpadded := remainder_append_zeros (n := 3).mpr hzero
    rwa [hcut, remainder_zeros_append, remainder_append_zeros] at hpadded
  have hnone := eq_zeros_of_triple (Nat.mod_lt s (by decide)) hw hthree hmid hinside
  refine List.eq_replicate_iff.mpr ⟨rfl, fun x hx => ?_⟩
  have hmem : x ∈ data ++ List.replicate 3 0 := List.mem_append_left _ hx
  rw [hcut, hnone, List.replicate_append_replicate, List.replicate_append_replicate] at hmem
  exact List.eq_of_mem_replicate hmem

end Crc16

namespace ActivationCode

open Base32

section Difference

variable {e p q : Bytes} {i j : Nat} {ds : List Nat}

theorem eq_zero_of_border {x : UInt8} {w : List Bool} (hfirst : (bits 8 x.toNat).take 3 = spare 3)
    (hw : w.length = 5) (h : dataBits (Crc16.check [x]) = w ++ spare 11) : x = 0 := by
  have hall : ∀ n < 256, (bits 8 n).take 3 = spare 3 →
      (dataBits (Crc16.check [UInt8.ofNat n])).drop 5 = spare 11 → n = 0 := by
    decide +kernel
  refine UInt8.toNat_inj.mp (hall x.toNat x.toNat_lt hfirst ?_)
  rw [UInt8.ofNat_toNat, h, List.drop_left' hw]

theorem eq_zeros_of_border {v w : List Bool} (he : e.length = 10) (hv : v.length = 5)
    (hw : w.length = 5) (hdata : dataBits e = spare 75 ++ v)
    (hsum : dataBits (Crc16.check e) = w ++ spare 11) : e = List.replicate 10 0 := by
  have hbyte : (spare 3 ++ v).length = 8 * 1 := by
    rw [List.length_append, length_spare, hv]
  obtain ⟨last, hone, hlast⟩ := exists_octets hbyte
  obtain ⟨x, rfl⟩ := List.length_eq_one_iff.mp hone
  obtain rfl : e = List.replicate 9 0 ++ [x] := by
    apply dataBits_injective
    rw [hdata, dataBits_append, dataBits_zeros, hlast, ← List.append_assoc, ← spare_add]
  have hfirst : (bits 8 x.toNat).take 3 = spare 3 := by
    have htake := congrArg (List.take 3) hlast
    rwa [List.take_left' (length_spare 3), dataBits_cons,
      List.take_append_of_le_length (by simp)] at htake
  rw [Crc16.check, Crc16.remainder_zeros_append] at hsum
  rw [eq_zero_of_border hfirst hw hsum]
  rfl

theorem eq_zeros_of_digits (he : e.length = 10) (hds : ds.length ≤ 2)
    (h : dataBits (Crc16.append e) ++ spare 4 =
      valueBits (List.replicate i 0 ++ ds ++ List.replicate j 0)) :
    e = List.replicate 10 0 := by
  rw [valueBits_append, valueBits_append, valueBits_zeros, valueBits_zeros, Crc16.append,
    dataBits_append, List.append_assoc] at h
  have hlength := congrArg List.length h
  simp only [List.length_append, length_dataBits, length_valueBits, length_spare, he,
    Crc16.length_check] at hlength
  -- The digits end before the check sum, or begin in it, or lie on both sides of its beginning.
  by_cases hbefore : i + ds.length ≤ 16
  · rw [spare_split (show 5 * j = (80 - 5 * (i + ds.length)) + 20 by omega),
      ← List.append_assoc (spare (5 * i) ++ valueBits ds)] at h
    obtain ⟨hdata, hsum⟩ := List.append_inj h (by
      simp only [List.length_append, length_dataBits, length_valueBits, length_spare, he]
      omega)
    have hcheck : dataBits (Crc16.check e) = spare (8 * 2) :=
      List.append_cancel_right (hsum.trans (spare_add 16 4))
    rw [← he]
    refine Crc16.eq_zeros_of_burst ?_ hdata
      (Crc16.remainder_of_check (Crc16.eq_zeros_of_dataBits hcheck))
    rw [length_valueBits]
    omega
  by_cases hafter : 16 ≤ i
  · rw [spare_split (show 5 * i = 80 + (5 * i - 80) by omega), List.append_assoc,
      List.append_assoc] at h
    obtain ⟨hdata, -⟩ := List.append_inj h (by rw [length_dataBits, he, length_spare])
    exact Crc16.eq_zeros_of_dataBits hdata
  · have htwo : ds.length = 2 := by omega
    obtain rfl : i = 15 := by omega
    obtain rfl : j = 3 := by omega
    obtain ⟨x, y, rfl⟩ := List.length_eq_two.mp htwo
    have hsides : spare (5 * 15) ++ valueBits [x, y] ++ spare (5 * 3) =
        (spare 75 ++ bits 5 x) ++ (bits 5 y ++ spare 11 ++ spare 4) := by
      simp [valueBits, spare_split (show 15 = 11 + 4 by rfl)]
    rw [hsides] at h
    obtain ⟨hdata, hsum⟩ := List.append_inj h (by simp [length_dataBits, he])
    exact eq_zeros_of_border he (length_bits 5 x) (length_bits 5 y) hdata
      (List.append_cancel_right hsum)

theorem valueBits_append_check (hp : p.length = 10) :
    valueBits (values (encode (Crc16.append p))) = dataBits (Crc16.append p) ++ spare 4 := by
  obtain ⟨vs, hlt, hdigits, r, hr, hbits⟩ := exists_digits (Crc16.append p)
  have hlength := congrArg List.length hbits
  rw [List.length_append, length_valueBits, length_dataBits, Crc16.length_append, hp, length_spare]
    at hlength
  obtain rfl : r = 4 := by omega
  rw [hdigits, values_map_digit hlt, hbits]

theorem eq_of_window {before window window' after : List Char} (hp : p.length = 10)
    (hq : q.length = 10) (hsame : window.length = window'.length) (hshort : window.length ≤ 2)
    (h : encode (Crc16.append p) = before ++ window ++ after)
    (h' : encode (Crc16.append q) = before ++ window' ++ after) : p = q := by
  have hpq : p.length = q.length := hp.trans hq.symm
  have hcodes : (Crc16.append p).length = (Crc16.append q).length := by
    rw [Crc16.length_append, Crc16.length_append, hpq]
  have hdifference : dataBits (Crc16.append (Bytes.xor p q)) ++ spare 4 =
      valueBits (List.zipWith (· ^^^ ·) (values (encode (Crc16.append p)))
        (values (encode (Crc16.append q)))) := by
    rw [valueBits_xor (by simp [values, length_encode, hcodes]), valueBits_append_check hp,
      valueBits_append_check hq, List.zipWith_append (by simp [length_dataBits, hcodes]),
      ← dataBits_xor hcodes, Crc16.append_xor hpq]
    rfl
  have hwindow : List.zipWith (· ^^^ ·) (values (encode (Crc16.append p)))
      (values (encode (Crc16.append q))) =
      List.replicate before.length 0 ++
        List.zipWith (· ^^^ ·) (values window) (values window') ++
          List.replicate after.length 0 := by
    simp only [h, h', values, List.map_append]
    rw [List.zipWith_append (by simp [hsame]), List.zipWith_append rfl, xor_values_self,
      xor_values_self, List.length_map, List.length_map]
  rw [hwindow] at hdifference
  refine Bytes.eq_of_xor hpq (eq_zeros_of_digits ?_ ?_ hdifference)
  · rw [Bytes.length_xor, hp, hq]
    rfl
  · rw [List.length_zipWith, values, List.length_map]
    omega

end Difference

-- One digit typed for another, or two neighbours in the wrong order, with hyphens between them or
-- not.
inductive Mistyped : List Char → List Char → Prop
  | replaced {before after : List Char} {c d : Char} (hc : isDigit c = true)
      (hd : isDigit d = true) (hne : c ≠ d) : Mistyped (before ++ c :: after) (before ++ d :: after)
  | exchanged {before gap after : List Char} {c d : Char} (hc : isDigit c = true)
      (hd : isDigit d = true) (hne : c ≠ d) (hgap : ∀ h ∈ gap, h = '-') :
      Mistyped (before ++ c :: (gap ++ d :: after)) (before ++ d :: (gap ++ c :: after))

namespace Mistyped

variable {cs ds : List Char}

theorem not_mem {c : Char} (hslip : Mistyped cs ds) (hc : isDigit c = false) (h : c ∉ cs) :
    c ∉ ds := by
  cases hslip with
  | @replaced _ _ _ d _ hd _ =>
      have hother : c ≠ d := by
        rintro rfl
        rw [hd] at hc
        cases hc
      simp only [List.mem_append, List.mem_cons, not_or] at h ⊢
      exact ⟨h.1, hother, h.2.2⟩
  | exchanged _ _ _ _ =>
      simp only [List.mem_append, List.mem_cons, not_or] at h ⊢
      exact ⟨h.1, h.2.2.2.1, h.2.2.1, h.2.1, h.2.2.2.2⟩

theorem filter_cons_of_isDigit {c : Char} (hc : isDigit c = true) (cs : List Char) :
    (c :: cs).filter (· != '-') = c :: cs.filter (· != '-') :=
  List.filter_cons_of_pos (bne_iff_ne.mpr (ne_hyphen_of_isDigit hc))

theorem exists_window (hslip : Mistyped cs ds) :
    ∃ before window window' after : List Char,
      cs.filter (· != '-') = before ++ window ++ after ∧
      ds.filter (· != '-') = before ++ window' ++ after ∧
      window.length = window'.length ∧ window.length ≤ 2 ∧ window ≠ window' := by
  cases hslip with
  | @replaced before after c d hc hd hne =>
      refine ⟨before.filter (· != '-'), [c], [d], after.filter (· != '-'), ?_, ?_, rfl,
        Nat.le_succ 1, fun he => hne (List.singleton_inj.mp he)⟩
      · simp [filter_cons_of_isDigit hc]
      · simp [filter_cons_of_isDigit hd]
  | @exchanged before gap after c d hc hd hne hgap =>
      have hnone : gap.filter (· != '-') = [] :=
        List.filter_eq_nil_iff.mpr fun h hh => by simp [hgap h hh]
      refine ⟨before.filter (· != '-'), [c, d], [d, c], after.filter (· != '-'), ?_, ?_, rfl,
        Nat.le_refl 2, fun he => hne (List.cons.inj he).1⟩
      · simp [filter_cons_of_isDigit, hc, hd, hnone]
      · simp [filter_cons_of_isDigit, hc, hd, hnone]

end Mistyped

variable {s t : String} {code : ActivationCode}

theorem toList_of_unsigned (hread : parse s = .ok code) (hunsigned : code.signature = none) :
    s.toList = codeChars code.payload := by
  rw [parse_eq_ok] at hread
  cases hread with
  | unsigned hc => rw [spells_iff.mp hc, String.toList_ofList]
  | signed => cases hunsigned

theorem typing_errors_caught (hread : parse s = .ok code) (hunsigned : code.signature = none)
    (hslip : Mistyped s.toList t.toList) : ∃ why, parse t = .error why := by
  have hchars := toList_of_unsigned hread hunsigned
  cases hparse : parse t with
  | error why => exact ⟨why, rfl⟩
  | ok other =>
      exfalso
      have hsign : '#' ∉ t.toList := by
        apply hslip.not_mem rfl
        rw [hchars]
        exact number_sign_not_mem_codeChars _
      obtain ⟨-, hother⟩ := (ofChars_unsigned_eq_ok hsign).mp hparse
      obtain ⟨before, window, window', after, h, h', hsame, hshort, hne⟩ := hslip.exists_window
      rw [hchars, filter_codeChars] at h
      rw [hother, filter_codeChars] at h'
      have hpayload := eq_of_window code.payload.length_eq other.payload.length_eq hsame hshort h h'
      rw [hpayload, h'] at h
      exact hne (List.append_cancel_left (List.append_cancel_right h)).symm

theorem exchange_across_hyphen_caught :
    (parse "KBXXO-ZLSIF-2XI2B-BMQNA").map signature = .ok none ∧
      Mistyped "KBXXO-ZLSIF-2XI2B-BMQNA".toList "KBXXZ-OLSIF-2XI2B-BMQNA".toList ∧
      ∃ why, parse "KBXXZ-OLSIF-2XI2B-BMQNA" = .error why := by
  have hread : (parse "KBXXO-ZLSIF-2XI2B-BMQNA").map signature = .ok none := by decide +kernel
  have hslip : Mistyped "KBXXO-ZLSIF-2XI2B-BMQNA".toList "KBXXZ-OLSIF-2XI2B-BMQNA".toList := by
    have htyped : Mistyped ("KBXX".toList ++ 'O' :: (['-'] ++ 'Z' :: "LSIF-2XI2B-BMQNA".toList))
        ("KBXX".toList ++ 'Z' :: (['-'] ++ 'O' :: "LSIF-2XI2B-BMQNA".toList)) :=
      .exchanged rfl rfl (by decide) (by simp)
    exact htyped
  obtain ⟨code, hcode, hunsigned⟩ := map_eq_ok.mp hread
  exact ⟨hread, hslip, typing_errors_caught hcode hunsigned hslip⟩

end ActivationCode

end DeviceAuth
