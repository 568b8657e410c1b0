import DeviceAuth.Failure
import DeviceAuth.Text

namespace DeviceAuth

namespace Query

def before (a b : String) : Prop :=
  Text.utf8 a < Text.utf8 b

instance (a b : String) : Decidable (before a b) :=
  inferInstanceAs (Decidable (Text.utf8 a < Text.utf8 b))

theorem before_trans {a b c : String} (hab : before a b) (hbc : before b c) : before a c :=
  List.lt_trans hab hbc

theorem eq_of_not_before {a b : String} (hab : ¬before a b) (hba : ¬before b a) : a = b :=
  Text.utf8_injective (List.le_antisymm (List.not_lt.mp hba) (List.not_lt.mp hab))

end Query

structure Query where
  entries : List (String × String)
  ascending : entries.Pairwise fun a b => Query.before a.1 b.1
  deriving DecidableEq

namespace Query

def insertEntry (name value : String) : List (String × String) → List (String × String)
  | [] => [(name, value)]
  | e :: rest =>
      if before name e.1 then (name, value) :: e :: rest
      else if before e.1 name then e :: insertEntry name value rest
      else (name, value) :: rest

theorem eq_or_mem_of_mem_insertEntry {name value : String} {entries : List (String × String)}
    {x : String × String} (h : x ∈ insertEntry name value entries) :
    x = (name, value) ∨ x ∈ entries := by
  induction entries with
  | nil => simpa [insertEntry] using h
  | cons e rest ih =>
      simp only [insertEntry] at h
      split at h
      · simpa using h
      · split at h
        · rcases List.mem_cons.mp h with he | hr
          · exact Or.inr (he ▸ List.mem_cons_self)
          · exact (ih hr).imp_right (List.mem_cons_of_mem e)
        · exact (List.mem_cons.mp h).imp_right (List.mem_cons_of_mem e)

theorem pairwise_insertEntry (name value : String) {entries : List (String × String)}
    (h : entries.Pairwise fun a b => before a.1 b.1) :
    (insertEntry name value entries).Pairwise fun a b => before a.1 b.1 := by
  induction entries with
  | nil => simp [insertEntry]
  | cons e rest ih =>
      obtain ⟨first, later⟩ := List.pairwise_cons.mp h
      simp only [insertEntry]
      split
      next hbefore =>
        refine List.pairwise_cons.mpr ⟨fun x hx => ?_, h⟩
        rcases List.mem_cons.mp hx with he | hr
        · exact he ▸ hbefore
        · exact before_trans hbefore (first x hr)
      next hnot =>
        split
        next hafter =>
          refine List.pairwise_cons.mpr ⟨fun x hx => ?_, ih later⟩
          rcases eq_or_mem_of_mem_insertEntry hx with he | hr
          · exact he ▸ hafter
          · exact first x hr
        next hnever =>
          have same : name = e.1 := eq_of_not_before hnot hnever
          refine List.pairwise_cons.mpr ⟨fun x hx => ?_, later⟩
          simpa [same] using first x hx

def empty : Query :=
  ⟨[], List.Pairwise.nil⟩

def insert (q : Query) (name value : String) : Query :=
  ⟨insertEntry name value q.entries, pairwise_insertEntry name value q.ascending⟩

def ofList (entries : List (String × String)) : Query :=
  entries.foldl (fun q e => q.insert e.1 e.2) empty

def isPlain (b : UInt8) : Bool :=
  (48 ≤ b && b ≤ 57) || (65 ≤ b && b ≤ 90) || (97 ≤ b && b ≤ 122) ||
    b == 42 || b == 45 || b == 46 || b == 95

def hexDigit (d : UInt8) : UInt8 :=
  if d < 10 then 48 + d else 55 + d

def escapeByte (b : UInt8) : Bytes :=
  if isPlain b then [b]
  else if b = 32 then [43]
  else [37, hexDigit (b / 16), hexDigit (b % 16)]

def escape (s : String) : Bytes :=
  (Text.utf8 s).flatMap escapeByte

def entryBytes (e : String × String) : Bytes :=
  escape e.1 ++ 61 :: escape e.2

def encode (q : Query) : Bytes :=
  [38].intercalate (q.entries.map entryBytes)

end Query

end DeviceAuth
