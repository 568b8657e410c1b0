import Mathlib.Data.List.TakeWhile
import DeviceAuth.Activation.Payload
import DeviceAuth.Proofs.Base32
import DeviceAuth.Proofs.Except
import DeviceAuth.Proofs.Framing

namespace DeviceAuth

theorem Crc16.length_append (data : Bytes) : (append data).length = data.length + 2 := by
  simp [append, check]

namespace ActivationCode

theorem shaped_codeChars (payload : Fixed 10) : shaped (codeChars payload) = true := by
  have hlength : (Crc16.append payload.bytes).length = 12 := by
    rw [Crc16.length_append, payload.length_eq]
  unfold codeChars
  generalize Crc16.append payload.bytes = b at hlength
  match b, hlength with
  | [b0, b1, b2, b3, b4, b5, b6, b7, b8, b9, b10, b11], _ =>
      simp only [Base32.encode, List.flatMap_cons, List.flatMap_nil, Base32.bits, List.cons_append,
        List.nil_append, Base32.digits, grouped]
      simp [shaped, isHyphenPlace, Base32.isDigit_number]

theorem shaped_of_readPayload {cs : List Char} {payload : Fixed 10}
    (h : readPayload cs = .ok payload) : shaped cs = true := by
  unfold readPayload at h
  split at h
  next hs => exact hs
  next => cases h

def unsigned (s : String) : List Char :=
  s.toList.takeWhile (· != '#')

theorem shaped_of_ofChars {cs : List Char} {code : ActivationCode} (h : ofChars cs = .ok code) :
    shaped (cs.takeWhile (· != '#')) = true := by
  unfold ofChars at h
  split at h
  next hnone =>
    obtain ⟨payload, hpayload, -⟩ := bind_eq_ok.mp h
    have hall := List.takeWhile_append_dropWhile (p := (· != '#')) (l := cs)
    rw [hnone, List.append_nil] at hall
    rw [hall]
    exact shaped_of_readPayload hpayload
  next =>
    obtain ⟨_, -, h⟩ := bind_eq_ok.mp h
    obtain ⟨payload, hpayload, -⟩ := bind_eq_ok.mp h
    exact shaped_of_readPayload hpayload

theorem shaped_of_parse {s : String} {code : ActivationCode} (h : parse s = .ok code) :
    shaped (unsigned s) = true :=
  shaped_of_ofChars h

theorem shaped_of_parseRecovery {s : String} {code : ActivationCode}
    (h : parseRecovery s = .ok code) : shaped (unmarked s.toList) = true := by
  unfold parseRecovery at h
  dsimp only at h
  split at h
  next => cases h
  next hplain =>
    have hall : (unmarked s.toList).takeWhile (· != '#') = unmarked s.toList := by
      rw [List.takeWhile_eq_self_iff]
      intro c hc
      rw [bne_iff_ne]
      rintro rfl
      exact hplain (List.contains_iff_mem.mpr hc)
    rw [← hall]
    exact shaped_of_ofChars h

def Placed (cs : List Char) (start : Nat) : Prop :=
  ∀ ci ∈ cs.zipIdx start, (if isHyphenPlace ci.2 then ci.1 == '-' else Base32.isDigit ci.1) = true

section Shape

variable {cs : List Char}

theorem shaped_iff_placed : shaped cs = true ↔ cs.length = 23 ∧ Placed cs 0 := by
  rw [shaped, Bool.and_eq_true, beq_iff_eq, List.all_eq_true]
  rfl

theorem Placed.getElem {start : Nat} (h : Placed cs start) {i : Nat} (hi : i < cs.length) :
    (if isHyphenPlace (start + i) then cs[i] == '-' else Base32.isDigit cs[i]) = true := by
  refine h (cs[i], start + i) ?_
  rw [List.mk_mem_zipIdx_iff_le_and_getElem?_sub, Nat.add_sub_cancel_left]
  exact ⟨Nat.le_add_right start i, List.getElem?_eq_getElem hi⟩

theorem Placed.ascii {start : Nat} (h : Placed cs start) : Text.Ascii cs := by
  intro c hc
  obtain ⟨i, hi, rfl⟩ := List.mem_iff_getElem.mp hc
  have hplace := h.getElem hi
  split at hplace
  next =>
    have hhyphen : cs[i] = '-' := by simpa using hplace
    rw [hhyphen]
    decide
  next =>
    have hdigit := (Base32.toNat_of_isDigit hplace).2
    omega

theorem ascii_of_shaped (h : shaped cs = true) : Text.Ascii cs :=
  (shaped_iff_placed.mp h).2.ascii

theorem length_of_shaped (h : shaped cs = true) : cs.length = 23 :=
  (shaped_iff_placed.mp h).1

theorem length_utf8_of_shaped (h : shaped cs = true) :
    (Text.utf8 (String.ofList cs)).length = 23 := by
  rw [Text.length_utf8_ofList (ascii_of_shaped h), length_of_shaped h]

theorem utf8_ne_join (h : shaped cs = true) (c : Bytes) (ds : List Bytes) :
    Text.utf8 (String.ofList cs) ≠ Framing.join (c :: ds) := by
  intro he
  rw [Text.utf8_ofList (ascii_of_shaped h), Framing.join_cons] at he
  have hlength := congrArg List.length he
  simp only [List.length_map, length_of_shaped h, List.length_append, Bytes.length_bigEndian]
    at hlength
  have hzero : Bytes.bigEndian 4 c.length =
      0 :: (Bytes.bigEndian 4 c.length).tail := by
    have hhead : UInt8.ofNat (c.length / 256 / 256 / 256) = 0 := by
      have hsmall : c.length / 256 / 256 / 256 = 0 := by omega
      rw [hsmall]
      rfl
    simp only [Bytes.bigEndian, Bytes.littleEndian, hhead]
    rfl
  have hfirst := (shaped_iff_placed.mp h).2.getElem (i := 0) (by rw [length_of_shaped h]; decide)
  cases cs with
  | nil => cases length_of_shaped h
  | cons d cs =>
      rw [hzero, List.map_cons, List.cons_append] at he
      obtain ⟨hd, -⟩ := List.cons.inj he
      have hdigit := Base32.toNat_of_isDigit (c := d) hfirst
      have hnat := congrArg UInt8.toNat hd
      rw [UInt8.toNat_ofNat'] at hnat
      simp only [UInt8.toNat_zero] at hnat
      omega

end Shape

theorem length_utf8_text (c : ActivationCode) : (Text.utf8 c.text).length = 23 :=
  length_utf8_of_shaped (shaped_codeChars c.payload)

theorem text_ne_empty (c : ActivationCode) : c.text ≠ "" := by
  intro hempty
  have hlength := length_utf8_text c
  rw [hempty] at hlength
  cases hlength

end ActivationCode

namespace Recovery

open ActivationCode

theorem check_eq_ok {r : Recovery} (h : r.check = .ok ()) :
    r.isEmpty = true ∨ (∃ code, parseRecovery r.code = .ok code) ∧ validPuk r.puk = true := by
  unfold check at h
  split at h
  next hempty => exact .inl hempty
  next =>
    split at h
    next => cases h
    next hcode =>
      split at h
      next => cases h
      next hpuk =>
        refine .inr ⟨?_, by simpa using hpuk⟩
        rw [validCode] at hcode
        cases hparse : parseRecovery r.code with
        | error why =>
            rw [hparse] at hcode
            exact absurd rfl hcode
        | ok code => exact ⟨code, rfl⟩

theorem marked_or_eq (cs : List Char) : cs = 'R' :: ':' :: unmarked cs ∨ cs = unmarked cs := by
  unfold unmarked
  split
  · exact .inl rfl
  · exact .inr rfl

theorem ascii_code {s : String} {code : ActivationCode} (h : parseRecovery s = .ok code) :
    Text.Ascii s.toList ∧ s.toList.length ≤ 25 := by
  have hshaped := shaped_of_parseRecovery h
  have hlength := length_of_shaped hshaped
  have hascii := ascii_of_shaped hshaped
  rcases marked_or_eq s.toList with hmarked | hplain
  · rw [hmarked]
    refine ⟨List.forall_mem_cons.mpr ⟨by decide, List.forall_mem_cons.mpr ⟨by decide, hascii⟩⟩, ?_⟩
    rw [List.length_cons, List.length_cons, hlength]
  · rw [hplain]
    exact ⟨hascii, by omega⟩

theorem ascii_puk {s : String} (h : validPuk s = true) :
    Text.Ascii s.toList ∧ s.toList.length = 10 := by
  simp only [validPuk, Bool.and_eq_true, beq_iff_eq, List.all_eq_true] at h
  refine ⟨fun c hc => ?_, h.1⟩
  have hnine := of_decide_eq_true (h.2 c hc).2
  rw [Char.le_def, UInt32.le_iff_toNat_le] at hnine
  exact Nat.lt_of_le_of_lt hnine (by decide)

theorem short_of_check {r : Recovery} (h : r.check = .ok ()) :
    (Text.Ascii r.code.toList ∧ r.code.toList.length ≤ 25) ∧
      Text.Ascii r.puk.toList ∧ r.puk.toList.length ≤ 10 := by
  rcases check_eq_ok h with hempty | ⟨⟨code, hcode⟩, hpuk⟩
  · obtain ⟨hc, hp⟩ := Bool.and_eq_true_iff.mp hempty
    rw [String.isEmpty_iff.mp hc, String.isEmpty_iff.mp hp]
    simp [Text.Ascii]
  · exact ⟨ascii_code hcode, (ascii_puk hpuk).1, Nat.le_of_eq (ascii_puk hpuk).2⟩

theorem fits_of_ascii {s : String} {n : Nat} (h : Text.Ascii s.toList ∧ s.toList.length ≤ n)
    (hn : n < 2 ^ 32) : Framing.Fits (Text.utf8 s) := by
  rw [Framing.Fits, ← String.ofList_toList (s := s), Text.length_utf8_ofList h.1]
  exact Nat.lt_of_le_of_lt h.2 hn

theorem fits_of_check {r : Recovery} (h : r.check = .ok ()) :
    Framing.Fits (Text.utf8 r.code) ∧ Framing.Fits (Text.utf8 r.puk) :=
  ⟨fits_of_ascii (short_of_check h).1 (by decide), fits_of_ascii (short_of_check h).2 (by decide)⟩

end Recovery

end DeviceAuth
