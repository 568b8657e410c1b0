namespace DeviceAuth

inductive Version where
  | v2
  | v3
  deriving DecidableEq, Repr

namespace Version

def name : Version → String
  | .v2 => "2.1"
  | .v3 => "3.1"

def number : Version → UInt8
  | .v2 => 2
  | .v3 => 3

def ofNumber? (n : UInt8) : Option Version :=
  if n = 2 then some .v2 else if n = 3 then some .v3 else none

def newer (v w : Version) : Bool :=
  w.number < v.number

theorem ofNumber?_eq_some {n : UInt8} {v : Version} : ofNumber? n = some v ↔ n = v.number := by
  constructor
  · intro h
    unfold ofNumber? at h
    split at h
    · cases h
      assumption
    · split at h
      · cases h
        assumption
      · simp at h
  · rintro rfl
    cases v <;> decide

end Version

end DeviceAuth
