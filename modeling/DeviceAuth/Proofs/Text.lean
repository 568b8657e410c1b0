import DeviceAuth.Text.Lossy

namespace DeviceAuth.Text

theorem toNat_of_between {a b c : Char} (h : a ≤ c ∧ c ≤ b) :
    a.toNat ≤ c.toNat ∧ c.toNat ≤ b.toNat :=
  ⟨UInt32.le_iff_toNat_le.mp h.1, UInt32.le_iff_toNat_le.mp h.2⟩

def Ascii (cs : List Char) : Prop :=
  ∀ c ∈ cs, c.toNat < 128

theorem utf8_ofList {cs : List Char} (h : Ascii cs) :
    utf8 (String.ofList cs) = cs.map fun c => UInt8.ofNat c.toNat := by
  have hchar (c : Char) (hc : c.toNat < 128) : String.utf8EncodeChar c = [UInt8.ofNat c.toNat] := by
    have hsize : c.utf8Size = 1 := by
      rw [Char.utf8Size_eq_one_iff]
      exact Nat.le_of_lt_succ hc
    rw [String.utf8EncodeChar_eq_singleton hsize]
    rfl
  have hlist : utf8 (String.ofList cs) = cs.flatMap String.utf8EncodeChar := by
    simp [utf8, String.toUTF8, List.utf8Encode]
  rw [hlist]
  clear hlist
  induction cs with
  | nil => rfl
  | cons c cs ih =>
      obtain ⟨hc, hcs⟩ := List.forall_mem_cons.mp h
      rw [List.flatMap_cons, List.map_cons, hchar c hc, ih hcs]
      rfl

theorem length_utf8_ofList {cs : List Char} (h : Ascii cs) :
    (utf8 (String.ofList cs)).length = cs.length := by
  rw [utf8_ofList h, List.length_map]

def beforeByte? (s : String) (n : Nat) : Option String :=
  if n ≤ (utf8 s).length then ofUtf8? ((utf8 s).take n) else none

def fromByte? (s : String) (n : Nat) : Option String :=
  if n ≤ (utf8 s).length then ofUtf8? ((utf8 s).drop n) else none

theorem beforeByte?_ofList {cs : List Char} {n : Nat} (h : Ascii cs) (hn : n ≤ cs.length) :
    beforeByte? (String.ofList cs) n = some (String.ofList (cs.take n)) := by
  have hpart : Ascii (cs.take n) := fun c hc => h c (List.mem_of_mem_take hc)
  rw [beforeByte?, if_pos (by rwa [length_utf8_ofList h]), utf8_ofList h, ← List.map_take,
    ← utf8_ofList hpart, ofUtf8?_utf8]

theorem fromByte?_ofList {cs : List Char} {n : Nat} (h : Ascii cs) (hn : n ≤ cs.length) :
    fromByte? (String.ofList cs) n = some (String.ofList (cs.drop n)) := by
  have hpart : Ascii (cs.drop n) := fun c hc => h c (List.mem_of_mem_drop hc)
  rw [fromByte?, if_pos (by rwa [length_utf8_ofList h]), utf8_ofList h, ← List.map_drop,
    ← utf8_ofList hpart, ofUtf8?_utf8]

theorem lossyChars_of_ascii {cs : List Char} (h : Ascii cs) :
    lossyChars (cs.map fun c => UInt8.ofNat c.toNat) = cs := by
  induction cs with
  | nil => simp [lossyChars]
  | cons c cs ih =>
      obtain ⟨hc, hcs⟩ := List.forall_mem_cons.mp h
      have hnat : (UInt8.ofNat c.toNat).toNat = c.toNat := by
        rw [UInt8.toNat_ofNat']
        omega
      have hlead : UInt8.ofNat c.toNat < 0x80 := by
        rw [UInt8.lt_iff_toNat_lt, hnat]
        exact hc
      have hstep (rest : Bytes) : decodeStep (UInt8.ofNat c.toNat) rest = (c, 0) := by
        unfold decodeStep
        rw [if_pos hlead, hnat, Char.ofNat_toNat]
      rw [List.map_cons, lossyChars, hstep]
      dsimp only
      rw [List.drop_zero, ih hcs]

theorem lossy_utf8 {s : String} (h : Ascii s.toList) : lossy (utf8 s) = s := by
  have hbytes := utf8_ofList h
  rw [String.ofList_toList] at hbytes
  rw [lossy, hbytes, lossyChars_of_ascii h, String.ofList_toList]

end DeviceAuth.Text
