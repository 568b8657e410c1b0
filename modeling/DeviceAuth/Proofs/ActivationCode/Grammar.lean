import DeviceAuth.Proofs.ActivationCode
import DeviceAuth.Proofs.Base64

namespace DeviceAuth

namespace Crc16

theorem valid_eq_true {data : Bytes} : valid data = true ↔ ∃ body, data = append body := by
  simp only [valid, Bool.and_eq_true, decide_eq_true_eq, beq_iff_eq]
  constructor
  · rintro ⟨-, hcheck⟩
    refine ⟨data.take (data.length - 2), ?_⟩
    rw [append, ← hcheck, List.take_append_drop]
  · rintro ⟨body, rfl⟩
    have hlength : (append body).length - 2 = body.length := by
      rw [length_append, Nat.add_sub_cancel]
    rw [hlength, length_append, append, List.drop_left, List.take_left]
    exact ⟨Nat.le_add_left 2 body.length, rfl⟩

end Crc16

namespace ActivationCode

theorem ne_hyphen_of_isDigit {c : Char} (h : Base32.isDigit c = true) : c ≠ '-' := by
  rintro rfl
  cases h

section Groups

variable {cs ds : List Char} {groups : List (List Char)}

theorem mem_grouped {c : Char} (h : c ∈ grouped ds) : c = '-' ∨ c ∈ ds := by
  induction ds using grouped.induct with
  | case1 a b c d e f rest ih =>
      simp only [grouped, List.mem_cons] at h ih ⊢
      grind
  | case2 ds hshort =>
      rw [grouped] at h
      · exact .inr h
      · exact hshort

theorem filter_grouped (h : ∀ c ∈ ds, c ≠ '-') : (grouped ds).filter (· != '-') = ds := by
  induction ds using grouped.induct with
  | case1 a b c d e f rest ih =>
      simp only [List.forall_mem_cons] at h ih
      obtain ⟨ha, hb, hc, hd, he, hf, hrest⟩ := h
      simp [grouped, ha, hb, hc, hd, he, ih ⟨hf, hrest⟩]
  | case2 ds hshort =>
      rw [grouped]
      · exact List.filter_eq_self.mpr fun c hc => bne_iff_ne.mpr (h c hc)
      · exact hshort

theorem grouped_flatten (h : ∀ g ∈ groups, g.length = 5) :
    grouped groups.flatten = ['-'].intercalate groups := by
  induction groups with
  | nil => rfl
  | cons g groups ih =>
      obtain ⟨hg, hgroups⟩ := List.forall_mem_cons.mp h
      obtain ⟨a, b, c, d, e, rfl⟩ : ∃ a b c d e, g = [a, b, c, d, e] := by
        match g, hg with
        | [a, b, c, d, e], _ => exact ⟨a, b, c, d, e, rfl⟩
      cases groups with
      | nil => simp [grouped, List.intercalate_singleton]
      | cons g' groups =>
          have hg' := hgroups g' List.mem_cons_self
          rw [List.intercalate_cons_cons, ← ih hgroups]
          cases g' with
          | nil => cases hg'
          | cons f rest => simp [grouped]

theorem isHyphenPlace_add_five (k : Nat) : isHyphenPlace (6 * k + 5) = true := by
  rw [isHyphenPlace, beq_iff_eq]
  omega

theorem not_isHyphenPlace {k i : Nat} (hi : i < 5) : isHyphenPlace (6 * k + i) = false := by
  rw [isHyphenPlace, beq_eq_false_iff_ne]
  omega

theorem Placed.append {rest : List Char} {start : Nat} :
    Placed (cs ++ rest) start ↔ Placed cs start ∧ Placed rest (start + cs.length) := by
  simp only [Placed, List.zipIdx_append, List.forall_mem_append]

theorem Placed.isDigit {k : Nat} (h : Placed cs (6 * k)) (hlength : cs.length = 5) {c : Char}
    (hc : c ∈ cs) : Base32.isDigit c = true := by
  obtain ⟨i, hi, rfl⟩ := List.mem_iff_getElem.mp hc
  have hplace := h.getElem hi
  rw [not_isHyphenPlace (hlength ▸ hi), if_neg (by decide)] at hplace
  exact hplace

theorem Placed.exists_group {k : Nat} (h : Placed cs (6 * k)) (hlength : 5 ≤ cs.length) :
    ∃ g rest, cs = g ++ rest ∧ (g.length = 5 ∧ ∀ c ∈ g, Base32.isDigit c = true) ∧
      Placed rest (6 * k + 5) := by
  have hg : (cs.take 5).length = 5 := by
    rw [List.length_take]
    omega
  rw [← List.take_append_drop 5 cs, Placed.append, hg] at h
  exact ⟨cs.take 5, cs.drop 5, (List.take_append_drop 5 cs).symm,
    ⟨hg, fun c hc => h.1.isDigit hg hc⟩, h.2⟩

theorem Placed.exists_groups {n k : Nat} (h : Placed cs (6 * k)) (hlength : cs.length = 6 * n + 5) :
    ∃ groups : List (List Char), groups.length = n + 1 ∧
      (∀ g ∈ groups, g.length = 5 ∧ ∀ c ∈ g, Base32.isDigit c = true) ∧
      cs = ['-'].intercalate groups := by
  induction n generalizing cs k with
  | zero =>
      obtain ⟨g, rest, rfl, hg, -⟩ := h.exists_group (by omega)
      obtain rfl : rest = [] := by
        rw [List.length_append, hg.1] at hlength
        exact List.eq_nil_of_length_eq_zero (by omega)
      exact ⟨[g], rfl, by simpa using hg, by simp⟩
  | succ n ih =>
      obtain ⟨g, rest, rfl, hg, hrest⟩ := h.exists_group (by omega)
      rw [List.length_append, hg.1] at hlength
      cases rest with
      | nil =>
          rw [List.length_nil] at hlength
          omega
      | cons c rest =>
          rw [← List.singleton_append, Placed.append] at hrest
          obtain ⟨hc, hplaced⟩ := hrest
          obtain rfl : c = '-' := by
            simpa [isHyphenPlace_add_five] using hc (c, 6 * k + 5) (by simp)
          obtain ⟨groups, hcount, hall, rfl⟩ := ih (k := k + 1) hplaced (by
            rw [List.length_cons] at hlength
            omega)
          refine ⟨g :: groups, by rw [List.length_cons, hcount],
            List.forall_mem_cons.mpr ⟨hg, hall⟩, ?_⟩
          cases groups with
          | nil => cases hcount
          | cons g' groups => simp [List.intercalate_cons_cons]

end Groups

theorem exists_groups_of_shaped {cs : List Char} (h : shaped cs = true) :
    ∃ groups : List (List Char), groups.length = 4 ∧
      (∀ g ∈ groups, g.length = 5 ∧ ∀ c ∈ g, Base32.isDigit c = true) ∧
      cs = ['-'].intercalate groups :=
  (shaped_iff_placed.mp h).2.exists_groups (n := 3) (k := 0) (length_of_shaped h)

theorem length_flatten {groups : List (List Char)} (h : ∀ g ∈ groups, g.length = 5) :
    groups.flatten.length = 5 * groups.length := by
  rw [List.length_flatten, List.map_congr_left h, List.map_const', List.sum_replicate_nat,
    Nat.mul_comm]

theorem filter_intercalate {groups : List (List Char)}
    (h : ∀ g ∈ groups, g.length = 5 ∧ ∀ c ∈ g, Base32.isDigit c = true) :
    (['-'].intercalate groups).filter (· != '-') = groups.flatten := by
  rw [← grouped_flatten fun g hg => (h g hg).1]
  apply filter_grouped
  intro c hc
  obtain ⟨g, hg, hcg⟩ := List.mem_flatten.mp hc
  exact ne_hyphen_of_isDigit ((h g hg).2 c hcg)

theorem grouped_filter {cs : List Char} (h : shaped cs = true) :
    (cs.filter (· != '-')).length = 20 ∧ grouped (cs.filter (· != '-')) = cs := by
  obtain ⟨groups, hcount, hall, rfl⟩ := exists_groups_of_shaped h
  have hfive : ∀ g ∈ groups, g.length = 5 := fun g hg => (hall g hg).1
  rw [filter_intercalate hall, length_flatten hfive, hcount, grouped_flatten hfive]
  exact ⟨rfl, rfl⟩

section Parts

variable {cs : List Char} {payload : Fixed 10} {code : ActivationCode}

theorem filter_codeChars (payload : Fixed 10) :
    (codeChars payload).filter (· != '-') = Base32.encode (Crc16.append payload.bytes) :=
  filter_grouped fun _ hc => ne_hyphen_of_isDigit (Base32.isDigit_of_mem_encode hc)

theorem not_mem_codeChars {c : Char} (hhyphen : c ≠ '-') (hdigit : Base32.isDigit c = false) :
    c ∉ codeChars payload := by
  intro h
  rcases mem_grouped h with heq | hmem
  · exact hhyphen heq
  · rw [Base32.isDigit_of_mem_encode hmem] at hdigit
    cases hdigit

theorem number_sign_not_mem_codeChars (payload : Fixed 10) : '#' ∉ codeChars payload :=
  not_mem_codeChars (by decide) rfl

theorem unmarked_codeChars (payload : Fixed 10) :
    unmarked (codeChars payload) = codeChars payload := by
  have hcolon : ':' ∉ codeChars payload := not_mem_codeChars (by decide) rfl
  unfold unmarked
  split
  next rest hmark => simp [hmark] at hcolon
  next => rfl

theorem take_append (payload : Fixed 10) :
    (Crc16.append payload.bytes).take 10 = payload.bytes :=
  List.take_left' payload.length_eq

theorem readPayload_eq_ok : readPayload cs = .ok payload ↔ cs = codeChars payload := by
  constructor
  · intro h
    unfold readPayload at h
    split at h
    next hshaped =>
      obtain ⟨htwenty, hgrouped⟩ := grouped_filter hshaped
      split at h
      next => cases h
      next decoded hdecoded =>
        rw [Base32.decode?_eq_some] at hdecoded
        split at h
        next hvalid hpayload =>
          cases h
          obtain ⟨body, rfl⟩ := Crc16.valid_eq_true.mp hvalid
          rw [Fixed.ofBytes?_eq_some] at hpayload
          -- Twenty digits are twelve bytes, two of them the check sum.
          have hten : body.length = 10 := by
            rw [hdecoded, Base32.length_encode, Crc16.length_append] at htwenty
            omega
          have hbody : body = payload.bytes := by
            rw [← hpayload, Crc16.append, List.take_left' hten]
          rw [← hgrouped, hdecoded, hbody, codeChars]
        next => cases h
    next => cases h
  · rintro rfl
    have hvalid : Crc16.valid (Crc16.append payload.bytes) = true :=
      Crc16.valid_eq_true.mpr ⟨payload.bytes, rfl⟩
    rw [readPayload, if_pos (shaped_codeChars payload), filter_codeChars,
      Base32.decode?_eq_some.mpr rfl]
    simp only [hvalid, take_append, Fixed.ofBytes?_bytes]

theorem codeChars_injective {payload other : Fixed 10} (h : codeChars payload = codeChars other) :
    payload = other := by
  have hread := readPayload_eq_ok.mpr h
  rw [readPayload_eq_ok.mpr rfl] at hread
  exact Except.ok.inj hread

theorem readSignature_eq_ok {b : Bytes} :
    readSignature cs = .ok b ↔ cs ≠ [] ∧ cs = Base64.chars b := by
  unfold readSignature
  split
  next hempty => simp [List.isEmpty_iff.mp hempty]
  next hsome =>
    rw [List.isEmpty_iff] at hsome
    rw [← Base64.ofChars?_eq_some]
    split <;> simp_all

theorem ofChars_unsigned (h : '#' ∉ cs) : ofChars cs = (readPayload cs).map (⟨·, none⟩) := by
  have hnone : cs.dropWhile (· != '#') = [] :=
    List.dropWhile_eq_nil_iff.mpr fun c hc => bne_iff_ne.mpr fun he => h (he ▸ hc)
  rw [ofChars, hnone]
  cases readPayload cs <;> rfl

theorem ofChars_signed {rest : List Char} (h : '#' ∉ cs) :
    ofChars (cs ++ '#' :: rest) = do
      let signature ← (readSignature rest).mapError .format
      return ⟨← readPayload cs, some signature⟩ := by
  have hall : ∀ c ∈ cs, (c != '#') = true := fun c hc => bne_iff_ne.mpr fun he => h (he ▸ hc)
  rw [ofChars, List.dropWhile_append_of_pos hall, List.takeWhile_append_of_pos hall]
  simp

theorem ofChars_unsigned_eq_ok (h : '#' ∉ cs) :
    ofChars cs = .ok code ↔ code.signature = none ∧ cs = codeChars code.payload := by
  rw [ofChars_unsigned h, map_eq_ok]
  constructor
  · rintro ⟨payload, hpayload, rfl⟩
    exact ⟨rfl, readPayload_eq_ok.mp hpayload⟩
  · rintro ⟨hnone, hcs⟩
    refine ⟨code.payload, readPayload_eq_ok.mpr hcs, ?_⟩
    rw [← hnone]

theorem ofChars_signed_eq_ok {rest : List Char} (h : '#' ∉ cs) :
    ofChars (cs ++ '#' :: rest) = .ok code ↔
      cs = codeChars code.payload ∧
        ∃ b, code.signature = some b ∧ rest ≠ [] ∧ rest = Base64.chars b := by
  rw [ofChars_signed h]
  constructor
  · intro hok
    obtain ⟨b, hb, hpart⟩ := bind_eq_ok.mp hok
    obtain ⟨payload, hpayload, hcode⟩ := bind_eq_ok.mp hpart
    cases hcode
    exact ⟨readPayload_eq_ok.mp hpayload, b, rfl, readSignature_eq_ok.mp (mapError_eq_ok.mp hb)⟩
  · rintro ⟨hcs, b, hb, hrest⟩
    refine bind_eq_ok.mpr ⟨b, mapError_eq_ok.mpr (readSignature_eq_ok.mpr hrest), ?_⟩
    refine bind_eq_ok.mpr ⟨code.payload, readPayload_eq_ok.mpr hcs, ?_⟩
    rw [← hb]
    rfl

end Parts

def Spells (payload : Fixed 10) (c : String) : Prop :=
  ∃ groups : List (List Char), groups.length = 4 ∧ (∀ g ∈ groups, g.length = 5) ∧
    groups.flatten =
      Base32.encode (payload.bytes ++ Bytes.bigEndian 2 (Crc16.remainder payload.bytes).toNat) ∧
    c = String.ofList (['-'].intercalate groups)

inductive Reads : String → ActivationCode → Prop
  | unsigned {payload : Fixed 10} {c : String} (h : Spells payload c) : Reads c ⟨payload, none⟩
  | signed {payload : Fixed 10} {c g : String} {signature : Bytes} (h : Spells payload c)
      (hsome : g ≠ "") (hsignature : g = Base64.encode signature) :
      Reads (c ++ "#" ++ g) ⟨payload, some signature⟩

inductive ReadsRecovery : String → ActivationCode → Prop
  | plain {payload : Fixed 10} {c : String} (h : Spells payload c) :
      ReadsRecovery c ⟨payload, none⟩
  | marked {payload : Fixed 10} {c : String} (h : Spells payload c) :
      ReadsRecovery ("R:" ++ c) ⟨payload, none⟩

structure Halves (c short password : String) : Prop where
  joined : short ++ "-" ++ password = c
  length_short : short.length = 11
  length_password : password.length = 11
  before : Text.beforeByte? c 11 = some short
  after : Text.fromByte? c 12 = some password

section Grammar

variable {s c : String} {payload : Fixed 10} {code : ActivationCode}

theorem spells_iff : Spells payload c ↔ c = String.ofList (codeChars payload) := by
  constructor
  · rintro ⟨groups, -, hfive, hflatten, rfl⟩
    rw [← grouped_flatten hfive, hflatten]
    rfl
  · rintro rfl
    obtain ⟨groups, hcount, hall, hgroups⟩ := exists_groups_of_shaped (shaped_codeChars payload)
    refine ⟨groups, hcount, fun g hg => (hall g hg).1, ?_, by rw [hgroups]⟩
    rw [← filter_intercalate hall, ← hgroups, filter_codeChars]
    rfl

theorem Spells.unique {other : Fixed 10} (h : Spells payload c) (hother : Spells other c) :
    other = payload := by
  rw [spells_iff] at h hother
  exact codeChars_injective (String.ofList_injective (hother.symm.trans h))

theorem reads_of_parse (h : parse s = .ok code) : Reads s code := by
  obtain ⟨payload, signature⟩ := code
  have hspells : Spells payload (String.ofList (codeChars payload)) := spells_iff.mpr rfl
  unfold parse at h
  by_cases hsign : '#' ∈ s.toList
  · obtain ⟨front, rest, hs, hfront⟩ := List.eq_append_cons_of_mem hsign
    rw [hs, ofChars_signed_eq_ok hfront] at h
    obtain ⟨rfl, b, rfl, hsome, rfl⟩ := h
    have hparts : s = String.ofList (codeChars payload) ++ "#" ++ Base64.encode b := by
      apply String.toList_inj.mp
      simp [hs, Base64.encode]
    rw [hparts]
    exact .signed hspells (fun hempty => hsome (String.ofList_injective hempty)) rfl
  · rw [ofChars_unsigned_eq_ok hsign] at h
    obtain ⟨rfl, hcs⟩ := h
    rw [← String.ofList_toList (s := s), hcs]
    exact .unsigned hspells

theorem parse_of_reads (h : Reads s code) : parse s = .ok code := by
  cases h with
  | unsigned hc =>
      rw [spells_iff.mp hc, parse, String.toList_ofList,
        ofChars_unsigned_eq_ok (number_sign_not_mem_codeChars _)]
      exact ⟨rfl, rfl⟩
  | @signed payload c g b hc hsome hb =>
      have hchars : (c ++ "#" ++ g).toList = codeChars payload ++ '#' :: Base64.chars b := by
        rw [spells_iff.mp hc, hb, Base64.encode]
        simp
      rw [parse, hchars, ofChars_signed_eq_ok (number_sign_not_mem_codeChars payload)]
      refine ⟨rfl, b, rfl, fun hempty => hsome ?_, rfl⟩
      rw [hb, Base64.encode, hempty]

theorem parse_eq_ok : parse s = .ok code ↔ Reads s code :=
  ⟨reads_of_parse, parse_of_reads⟩

theorem parseRecovery_eq_ok : parseRecovery s = .ok code ↔ ReadsRecovery s code := by
  unfold parseRecovery
  dsimp only
  constructor
  · intro h
    split at h
    next => cases h
    next hunsigned =>
      rw [ofChars_unsigned_eq_ok fun hsign => hunsigned (List.contains_iff_mem.mpr hsign)] at h
      obtain ⟨payload, signature⟩ := code
      obtain ⟨rfl, hcs⟩ := h
      have hspells : Spells payload (String.ofList (codeChars payload)) := spells_iff.mpr rfl
      have hforms := Recovery.marked_or_eq s.toList
      rw [hcs] at hforms
      rcases hforms with hmarked | hplain
      · have hparts : s = "R:" ++ String.ofList (codeChars payload) := by
          apply String.toList_inj.mp
          simp [hmarked]
        rw [hparts]
        exact .marked hspells
      · rw [← String.ofList_toList (s := s), hplain]
        exact .plain hspells
  · intro h
    have hunmarked : code.signature = none ∧ unmarked s.toList = codeChars code.payload := by
      cases h with
      | plain hc =>
          rw [spells_iff.mp hc, String.toList_ofList, unmarked_codeChars]
          exact ⟨rfl, rfl⟩
      | marked hc =>
          refine ⟨rfl, ?_⟩
          simp only [spells_iff.mp hc, String.toList_append, String.toList_ofList]
          rfl
    have hsign : '#' ∉ unmarked s.toList := by
      rw [hunmarked.2]
      exact number_sign_not_mem_codeChars code.payload
    rw [if_neg (fun hcontains => hsign (List.contains_iff_mem.mp hcontains)),
      ofChars_unsigned_eq_ok hsign]
    exact hunmarked

theorem halves (code : ActivationCode) : Halves code.text code.shortId code.password := by
  have hshaped := shaped_codeChars code.payload
  have hlength := length_of_shaped hshaped
  have hascii := ascii_of_shaped hshaped
  have hhyphen : (codeChars code.payload)[11] = '-' :=
    beq_iff_eq.mp ((shaped_iff_placed.mp hshaped).2.getElem (i := 11) (by omega))
  have hparts : (codeChars code.payload).take 11 ++ '-' :: (codeChars code.payload).drop 12 =
      codeChars code.payload := by
    rw [← hhyphen, ← List.drop_eq_getElem_cons, List.take_append_drop]
  exact {
    joined := by
      apply String.toList_inj.mp
      simpa [shortId, password, text] using hparts
    length_short := by
      rw [shortId, String.length_ofList, List.length_take, hlength]
      rfl
    length_password := by
      rw [password, String.length_ofList, List.length_drop, hlength]
    before := Text.beforeByte?_ofList hascii (by omega)
    after := Text.fromByte?_ofList hascii (by omega) }

end Grammar

theorem grammar_accepted (s : String) :
    (∀ code, parse s = .ok code ↔ Reads s code) ∧
      (∀ code, parseRecovery s = .ok code ↔ ReadsRecovery s code) ∧
      ∀ code : ActivationCode,
        (∀ c, Spells code.payload c ↔ c = code.text) ∧
        (∀ payload, Spells payload code.text → payload = code.payload) ∧
        Halves code.text code.shortId code.password :=
  ⟨fun _ => parse_eq_ok, fun _ => parseRecovery_eq_ok, fun code =>
    ⟨fun _ => spells_iff, fun _ => (spells_iff.mpr rfl).unique, halves code⟩⟩

example : (parse "KBXXO-ZLSIF-2XI2B-BMQNA#c2lnbmF0dXJl").map ActivationCode.signature =
    .ok (some (Text.utf8 "signature")) := by
  decide +kernel

end ActivationCode

end DeviceAuth
