namespace DeviceAuth

inductive Factor where
  | possession
  | knowledge
  | biometry
  deriving DecidableEq, Repr

namespace Factor

def all : List Factor :=
  [.possession, .knowledge, .biometry]

def name : Factor → String
  | .possession => "possession"
  | .knowledge => "knowledge"
  | .biometry => "biometry"

theorem mem_all (f : Factor) : f ∈ all := by
  cases f <;> decide

end Factor

structure FactorSet where
  possession : Bool := false
  knowledge : Bool := false
  biometry : Bool := false
  deriving DecidableEq, Repr

namespace FactorSet

def contains (s : FactorSet) : Factor → Bool
  | .possession => s.possession
  | .knowledge => s.knowledge
  | .biometry => s.biometry

def insert (s : FactorSet) : Factor → FactorSet
  | .possession => { s with possession := true }
  | .knowledge => { s with knowledge := true }
  | .biometry => { s with biometry := true }

def union (s t : FactorSet) : FactorSet :=
  ⟨s.possession || t.possession, s.knowledge || t.knowledge, s.biometry || t.biometry⟩

def ofList (fs : List Factor) : FactorSet :=
  fs.foldl insert {}

def toList (s : FactorSet) : List Factor :=
  Factor.all.filter s.contains

def isEmpty (s : FactorSet) : Bool :=
  s.toList.isEmpty

def allowed (s : FactorSet) : Bool :=
  s.possession || s.toList.length == 1

def typeName (s : FactorSet) : String :=
  "_".intercalate (s.toList.map Factor.name)

def bits (s : FactorSet) : String :=
  "0b" ++ digit s.biometry ++ digit s.knowledge ++ digit s.possession
where
  digit (b : Bool) : String := if b then "1" else "0"

def possessionOnly : FactorSet :=
  { possession := true }

@[simp] theorem mem_toList {s : FactorSet} {f : Factor} : f ∈ s.toList ↔ s.contains f := by
  simp [toList, Factor.mem_all]

theorem toList_ne_nil {s : FactorSet} (h : s.allowed = true) : s.toList ≠ [] := by
  intro hnil
  have hpossession : s.possession = true := by
    rw [allowed, hnil] at h
    simpa using h
  have hmem : Factor.possession ∈ s.toList := mem_toList.mpr hpossession
  rw [hnil] at hmem
  cases hmem

theorem contains_insert (s : FactorSet) (f g : Factor) :
    (s.insert f).contains g = (s.contains g || f == g) := by
  cases f <;> cases g <;> simp [insert, contains]

theorem contains_union (s t : FactorSet) (f : Factor) :
    (s.union t).contains f = (s.contains f || t.contains f) := by
  cases f <;> rfl

theorem contains_empty (f : Factor) : contains {} f = false := by
  cases f <;> rfl

theorem ext_contains {s t : FactorSet} (h : ∀ f, s.contains f = t.contains f) : s = t := by
  cases s
  cases t
  rw [FactorSet.mk.injEq]
  exact ⟨h .possession, h .knowledge, h .biometry⟩

theorem contains_foldl_insert (fs : List Factor) (s : FactorSet) (g : Factor) :
    (fs.foldl insert s).contains g = (s.contains g || fs.contains g) := by
  induction fs generalizing s with
  | nil => simp
  | cons f fs ih =>
      rw [List.foldl_cons, ih, contains_insert, List.contains_cons, Bool.or_assoc]
      cases f <;> cases g <;> rfl

theorem contains_ofList (fs : List Factor) (g : Factor) :
    (ofList fs).contains g = fs.contains g := by
  rw [ofList, contains_foldl_insert, contains_empty, Bool.false_or]

end FactorSet

end DeviceAuth
