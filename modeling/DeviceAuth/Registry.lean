namespace DeviceAuth

structure Registry (α : Type) where
  entries : List (String × α)

namespace Registry

variable {α : Type}

def empty : Registry α :=
  ⟨[]⟩

def get? (r : Registry α) (name : String) : Option α :=
  r.entries.lookup name

def erase (r : Registry α) (name : String) : Registry α :=
  ⟨r.entries.filter fun e => e.1 != name⟩

def set (r : Registry α) (name : String) (a : α) : Registry α :=
  ⟨(name, a) :: (r.erase name).entries⟩

def contains (r : Registry α) (name : String) : Bool :=
  (r.get? name).isSome

@[simp] theorem get?_empty (name : String) : (empty : Registry α).get? name = none := rfl

theorem get?_erase (r : Registry α) (name other : String) :
    (r.erase name).get? other = if other = name then none else r.get? other := by
  obtain ⟨entries⟩ := r
  simp only [get?, erase]
  induction entries with
  | nil => simp
  | cons e entries ih =>
      obtain ⟨key, a⟩ := e
      by_cases hk : key = name
      · subst hk
        rw [List.filter_cons_of_neg (by simp), ih, List.lookup_cons]
        by_cases ho : other = key
        · simp [ho]
        · simp [ho, beq_eq_false_iff_ne.mpr ho]
      · rw [List.filter_cons_of_pos (by simpa using hk), List.lookup_cons, List.lookup_cons, ih]
        by_cases ho : other = key
        · simp [ho, hk]
        · simp [beq_eq_false_iff_ne.mpr ho]

theorem get?_set (r : Registry α) (name other : String) (a : α) :
    (r.set name a).get? other = if other = name then some a else r.get? other := by
  have h := get?_erase r name other
  simp only [get?, set] at h ⊢
  rw [List.lookup_cons, h]
  by_cases ho : other = name
  · simp [ho]
  · simp [ho, beq_eq_false_iff_ne.mpr ho]

end Registry

end DeviceAuth
