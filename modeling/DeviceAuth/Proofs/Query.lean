import DeviceAuth.Query

namespace DeviceAuth.Query

section Entries

variable {q q' : Query} {name value : String}

def get? (q : Query) (name : String) : Option String :=
  q.entries.lookup name

theorem not_before_self (name : String) : ¬before name name :=
  List.lt_irrefl _

theorem ne_of_before {a b : String} (h : before a b) : a ≠ b := by
  rintro rfl
  exact not_before_self a h

theorem lookup_cons (e : String × String) (rest : List (String × String)) (x : String) :
    (e :: rest).lookup x = if x = e.1 then some e.2 else rest.lookup x := by
  obtain ⟨name, value⟩ := e
  by_cases hx : x = name
  · rw [hx, List.lookup_cons_self, if_pos rfl]
  · rw [List.lookup_cons, beq_eq_false_iff_ne.mpr hx, if_neg hx]

theorem lookup_insertEntry (name value : String) (entries : List (String × String)) (x : String) :
    (insertEntry name value entries).lookup x =
      if x = name then some value else entries.lookup x := by
  induction entries with
  | nil => simp [insertEntry]
  | cons e rest ih =>
      simp only [insertEntry]
      split
      next => rw [lookup_cons]
      next hnot =>
        split
        next hafter =>
          rw [lookup_cons, lookup_cons, ih]
          by_cases hx : x = e.1
          · simp [hx, ne_of_before hafter]
          · simp [hx]
        next hnever =>
          have hsame : name = e.1 := eq_of_not_before hnot hnever
          rw [lookup_cons, lookup_cons, hsame]
          split <;> rfl

theorem get?_insert (q : Query) (name value x : String) :
    (q.insert name value).get? x = if x = name then some value else q.get? x :=
  lookup_insertEntry name value q.entries x

theorem get?_ofList (entries : List (String × String)) (name : String) :
    (ofList entries).get? name = entries.reverse.lookup name := by
  have hfold : ∀ q : Query, (entries.foldl (fun q e => q.insert e.1 e.2) q).get? name =
      (entries.reverse.lookup name).or (q.get? name) := by
    induction entries with
    | nil => simp
    | cons e rest ih =>
        intro q
        rw [List.foldl_cons, ih, get?_insert, List.reverse_cons, List.lookup_append,
          Option.or_assoc, lookup_cons]
        split <;> simp
  rw [ofList, hfold empty]
  exact Option.or_none

theorem mem_entries_iff : (name, value) ∈ q.entries ↔ q.get? name = some value := by
  rw [get?, List.lookup_eq_some_iff]
  constructor
  · intro hmem
    obtain ⟨earlier, later, hsplit⟩ := List.append_of_mem hmem
    refine ⟨earlier, later, hsplit, fun e he => ?_⟩
    have hpairs := q.ascending
    rw [hsplit, List.pairwise_append] at hpairs
    have hbefore : before e.1 name := hpairs.2.2 e he (name, value) List.mem_cons_self
    simpa using (ne_of_before hbefore).symm
  · rintro ⟨earlier, later, hsplit, -⟩
    rw [hsplit]
    exact List.mem_append_right earlier List.mem_cons_self

theorem nodup_entries (q : Query) : q.entries.Nodup :=
  List.nodup_iff_pairwise_ne.mpr
    (q.ascending.imp fun hbefore hsame => ne_of_before hbefore (congrArg Prod.fst hsame))

theorem eq_of_get? (h : ∀ name, q.get? name = q'.get? name) : q = q' := by
  have hmem : ∀ e, e ∈ q.entries ↔ e ∈ q'.entries := by
    rintro ⟨name, value⟩
    rw [mem_entries_iff, mem_entries_iff, h name]
  have hperm : q.entries.Perm q'.entries :=
    (List.perm_ext_iff_of_nodup q.nodup_entries q'.nodup_entries).mpr hmem
  have hentries : q.entries = q'.entries :=
    hperm.eq_of_pairwise (fun a b _ _ hab hba => absurd (before_trans hab hba) (not_before_self _))
      q.ascending q'.ascending
  cases q
  cases q'
  cases hentries
  rfl

end Entries

section Reading

def hexValue? (d : UInt8) : Option UInt8 :=
  if 48 ≤ d ∧ d ≤ 57 then some (d - 48)
  else if 65 ≤ d ∧ d ≤ 70 then some (d - 55)
  else none

def unescape : Bytes → Option Bytes
  | [] => some []
  | 37 :: high :: low :: rest => do
      let h ← hexValue? high
      let l ← hexValue? low
      let more ← unescape rest
      return (16 * h + l) :: more
  | 37 :: _ => none
  | b :: rest => do
      let more ← unescape rest
      return (if b = 43 then 32 else b) :: more

def readText (b : Bytes) : Option String := do
  let plain ← unescape b
  Text.ofUtf8? plain

def readEntry (part : Bytes) : Option (String × String) :=
  match part.splitOn 61 with
  | [name, value] => do
      let name ← readText name
      let value ← readText value
      return (name, value)
  | _ => none

def parts : Bytes → List Bytes
  | [] => []
  | b :: rest => (b :: rest).splitOn 38

def read (b : Bytes) : Option (List (String × String)) :=
  (parts b).mapM readEntry

theorem hexValue?_halves (b : UInt8) :
    hexValue? (hexDigit (b / 16)) = some (b / 16) ∧
      hexValue? (hexDigit (b % 16)) = some (b % 16) ∧ 16 * (b / 16) + b % 16 = b := by
  revert b
  exact Bytes.byte_induction (by decide +kernel)

theorem separators_not_mem_escapeByte (b : UInt8) : 38 ∉ escapeByte b ∧ 61 ∉ escapeByte b := by
  revert b
  exact Bytes.byte_induction (by decide +kernel)

theorem unescape_plain {b : UInt8} (hpercent : b ≠ 37) (rest : Bytes) :
    unescape (b :: rest) = (unescape rest).map ((if b = 43 then 32 else b) :: ·) := by
  rw [unescape]
  · cases unescape rest <;> rfl
  · rintro _ _ _ rfl
    exact absurd rfl hpercent
  · rintro rfl
    exact hpercent rfl

theorem unescape_escapeByte (b : UInt8) (rest : Bytes) :
    unescape (escapeByte b ++ rest) = (unescape rest).map (b :: ·) := by
  unfold escapeByte
  split
  next hplain =>
    have hpercent : b ≠ 37 := by
      rintro rfl
      cases hplain
    have hplus : b ≠ 43 := by
      rintro rfl
      cases hplain
    rw [List.singleton_append, unescape_plain hpercent, if_neg hplus]
  next =>
    split
    next hspace =>
      rw [List.singleton_append, unescape_plain (by decide), if_pos rfl, hspace]
    next =>
      obtain ⟨hhigh, hlow, hbyte⟩ := hexValue?_halves b
      simp only [List.cons_append, List.nil_append, unescape, hhigh, hlow]
      cases unescape rest with
      | none => rfl
      | some more =>
          change some ((16 * (b / 16) + b % 16) :: more) = _
          rw [hbyte]
          rfl

theorem unescape_flatMap (data : Bytes) : unescape (data.flatMap escapeByte) = some data := by
  induction data with
  | nil => rfl
  | cons b rest ih =>
      rw [List.flatMap_cons, unescape_escapeByte, ih]
      rfl

theorem readText_escape (s : String) : readText (escape s) = some s := by
  rw [readText, escape, unescape_flatMap]
  exact Text.ofUtf8?_utf8 s

theorem separators_not_mem_escape (s : String) : 38 ∉ escape s ∧ 61 ∉ escape s := by
  constructor
  · intro hmem
    obtain ⟨b, -, hb⟩ := List.mem_flatMap.mp hmem
    exact (separators_not_mem_escapeByte b).1 hb
  · intro hmem
    obtain ⟨b, -, hb⟩ := List.mem_flatMap.mp hmem
    exact (separators_not_mem_escapeByte b).2 hb

theorem ampersand_not_mem_entryBytes (e : String × String) : 38 ∉ entryBytes e := by
  simp [entryBytes, separators_not_mem_escape]

theorem readEntry_entryBytes (e : String × String) : readEntry (entryBytes e) = some e := by
  have hsplit : (entryBytes e).splitOn 61 = [escape e.1, escape e.2] := by
    rw [entryBytes, List.splitOn_append_cons_self,
      List.splitOn_eq_singleton (separators_not_mem_escape e.1).2,
      List.splitOn_eq_singleton (separators_not_mem_escape e.2).2]
    rfl
  rw [readEntry, hsplit]
  dsimp only
  rw [readText_escape, readText_escape]
  rfl

theorem splitOn_encode {q : Query} (h : q.entries ≠ []) :
    q.encode.splitOn 38 = q.entries.map entryBytes := by
  refine List.splitOn_intercalate 38 (fun part hpart => ?_) (by simpa using h)
  obtain ⟨e, -, rfl⟩ := List.mem_map.mp hpart
  exact ampersand_not_mem_entryBytes e

theorem encode_eq_nil_iff {q : Query} : q.encode = [] ↔ q.entries = [] := by
  constructor
  · intro hnone
    refine Classical.byContradiction fun hsome => ?_
    have hparts := splitOn_encode hsome
    rw [hnone, List.splitOn_nil] at hparts
    have hempty : [] ∈ q.entries.map entryBytes := hparts ▸ List.mem_singleton_self _
    obtain ⟨e, -, he⟩ := List.mem_map.mp hempty
    simp [entryBytes] at he
  · intro hnone
    rw [encode, hnone]
    rfl

theorem parts_encode (q : Query) : parts q.encode = q.entries.map entryBytes := by
  by_cases hnone : q.entries = []
  · rw [encode_eq_nil_iff.mpr hnone, hnone]
    rfl
  · obtain ⟨b, rest, hsome⟩ := List.exists_cons_of_ne_nil (mt encode_eq_nil_iff.mp hnone)
    rw [← splitOn_encode hnone, hsome, parts]

theorem read_encode (q : Query) : read q.encode = some q.entries := by
  rw [read, parts_encode]
  induction q.entries with
  | nil => rfl
  | cons e rest ih =>
      rw [List.map_cons, List.mapM_cons, readEntry_entryBytes, ih]
      rfl

theorem encode_injective {q q' : Query} (h : q.encode = q'.encode) : q = q' := by
  have hread := read_encode q
  rw [h, read_encode] at hread
  cases q
  cases q'
  cases hread
  rfl

end Reading

structure Unambiguous (q : Query) : Prop where
  readBack : read q.encode = some q.entries
  ascending : q.entries.Pairwise fun a b => before a.1 b.1
  complete : ∀ name value, (name, value) ∈ q.entries ↔ q.get? name = some value
  built : ∀ entries, ofList entries = q ↔ ∀ name, entries.reverse.lookup name = q.get? name
  distinct : ∀ q' : Query, q'.encode = q.encode ↔ ∀ name, q'.get? name = q.get? name
  absent : q.encode = [] ↔ ∀ name, q.get? name = none

theorem parameters_read_back (q : Query) : q.Unambiguous where
  readBack := read_encode q
  ascending := q.ascending
  complete _ _ := mem_entries_iff
  built entries := by
    constructor
    · rintro rfl name
      exact (get?_ofList entries name).symm
    · intro h
      exact eq_of_get? fun name => (get?_ofList entries name).trans (h name)
  distinct q' := by
    constructor
    · intro h name
      rw [encode_injective h]
    · intro h
      rw [eq_of_get? h]
  absent := by
    rw [encode_eq_nil_iff]
    constructor
    · intro hnone name
      rw [get?, hnone]
      rfl
    · intro hnone
      refine List.eq_nil_iff_forall_not_mem.mpr fun e he => ?_
      have hvalue := mem_entries_iff.mp he
      rw [hnone] at hvalue
      cases hvalue

example : Text.ofUtf8? (ofList [("param2", "value 2"), ("param1", "value/1*"),
    ("Param3", "~ü&=")]).encode =
      some "Param3=%7E%C3%BC%26%3D&param1=value%2F1*&param2=value+2" := by
  decide +kernel

end DeviceAuth.Query
