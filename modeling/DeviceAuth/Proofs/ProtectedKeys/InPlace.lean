import DeviceAuth.Proofs.ProtectedKeys.ExternalLayer

namespace DeviceAuth.ProtectedKeys

variable {p q : ProtectedKeys} {why : Failure}

abbrev Assignment := ProtectedKeys → Except Failure ProtectedKeys

def assign : List Assignment → ProtectedKeys → Except Failure Unit × ProtectedKeys
  | [], p => (.ok (), p)
  | f :: rest, p =>
      match f p with
      | .ok q => assign rest q
      | .error why => (.error why, p)

inductive Change where
  | password (old new : Password) (external : Option Key) (salt : Fixed 16)
  | addExternal (key : Key)
  | removeExternal (key : Key)

def Change.apply (c : Change) (p : ProtectedKeys) : Except Failure Unit × ProtectedKeys :=
  match c with
  | .password old new external salt =>
      match p.changePassword old new external salt with
      | .ok q => (.ok (), q)
      | .error why => (.error why, p)
  | .addExternal key => p.addExternal key
  | .removeExternal key => p.removeExternal key

def layerAssignments (layer : Bytes → Except Failure Bytes) : List Assignment :=
  [fun p => do
      let knowledge ← layer p.knowledge
      return { p with knowledge },
    fun p =>
      match p.biometry with
      | none => return p
      | some b => do
          let biometry ← layer b
          return { p with biometry := some biometry }]

def Change.assignments : Change → List Assignment
  | .password old new external salt =>
      [fun p => do
          let opened ← p.unlockKnowledge old external
          let knowledge ←
            lockKnowledge opened new salt KeyDerivation.minimalIterations external
          return { p with knowledge },
        fun p => return { p with salt },
        fun p => return { p with iterations := KeyDerivation.minimalIterations }]
  | .addExternal key => layerAssignments (wrap (some key))
  | .removeExternal key => layerAssignments (unwrap (some key))

theorem relayer_eq_assign (layer : Bytes → Except Failure Bytes) (p : ProtectedKeys) :
    relayer layer p = assign (layerAssignments layer) p := by
  unfold layerAssignments relayer
  cases hk : layer p.knowledge with
  | error why => simp [assign, hk, bind, Except.bind]
  | ok knowledge =>
      cases hb : p.biometry with
      | none => simp [assign, hk, hb, bind, Except.bind, pure, Except.pure]
      | some b =>
          cases hl : layer b <;> simp [assign, hk, hb, hl, bind, Except.bind, pure, Except.pure]

theorem Change.apply_eq_assign (c : Change) (p : ProtectedKeys) :
    c.apply p = assign c.assignments p := by
  cases c with
  | addExternal key => exact relayer_eq_assign _ p
  | removeExternal key => exact relayer_eq_assign _ p
  | password old new external salt =>
      unfold apply changePassword
      cases ho : p.unlockKnowledge old external with
      | error why => simp [assignments, assign, ho, bind, Except.bind]
      | ok opened =>
          cases hl : lockKnowledge opened new salt KeyDerivation.minimalIterations external <;>
            simp [assignments, assign, ho, hl, bind, Except.bind, pure, Except.pure]

theorem exists_assign {rest : List Assignment} (hrest : ∀ g ∈ rest, ∀ p, ∃ q, g p = .ok q)
    (p : ProtectedKeys) : ∃ q, assign rest p = (.ok (), q) := by
  induction rest generalizing p with
  | nil => exact ⟨p, rfl⟩
  | cons g rest ih =>
      obtain ⟨hg, hrest⟩ := List.forall_mem_cons.mp hrest
      obtain ⟨q, hq⟩ := hg p
      rw [assign, hq]
      exact ih hrest q

theorem assign_error {f : Assignment} {rest : List Assignment}
    (hrest : ∀ g ∈ rest, ∀ p, ∃ q, g p = .ok q) (h : assign (f :: rest) p = (.error why, q)) :
    q = p := by
  rw [assign] at h
  split at h
  next r _ =>
    obtain ⟨t, ht⟩ := exists_assign hrest r
    rw [ht] at h
    cases h
  next =>
    cases h
    rfl

theorem password_error {old new : Password} {external : Option Key} {salt : Fixed 16}
    (h : (Change.password old new external salt).apply p = (.error why, q)) : q = p := by
  rw [Change.apply_eq_assign] at h
  refine assign_error (fun g hg p => ?_) h
  simp only [List.mem_cons, List.not_mem_nil, or_false] at hg
  rcases hg with rfl | rfl <;> exact ⟨_, rfl⟩

theorem wrap_some (e : Key) (b : Bytes) : wrap (some e) b =
    if b.length % 16 = 0 then .ok (Cbc.encrypt (Aes.Schedule.ofLong e) (.zero 16) b)
    else .error (.input (.unaligned b.length)) := by
  unfold wrap Cbc.encryptAligned Cbc.aligned
  dsimp only
  split <;> rfl

theorem unwrap_some (e : Key) (b : Bytes) : unwrap (some e) b =
    if b.length % 16 = 0 then .ok (Cbc.decrypt (Aes.Schedule.ofLong e) (.zero 16) b)
    else .error (.input (.unaligned b.length)) := by
  unfold unwrap Cbc.decryptAligned Cbc.aligned
  dsimp only
  split <;> rfl

inductive Recodes : Change → (Bytes → Bytes) → Prop
  | added (e : Key) : Recodes (.addExternal e) (Cbc.encrypt (Aes.Schedule.ofLong e) (.zero 16))
  | removed (e : Key) : Recodes (.removeExternal e) (Cbc.decrypt (Aes.Schedule.ofLong e) (.zero 16))

theorem Recodes.exists_layer {c : Change} {code : Bytes → Bytes} (h : Recodes c code) :
    ∃ layer, (∀ p, c.apply p = relayer layer p) ∧ ∀ b, layer b =
      if b.length % 16 = 0 then .ok (code b) else .error (.input (.unaligned b.length)) := by
  cases h with
  | added e => exact ⟨_, fun _ => rfl, wrap_some e⟩
  | removed e => exact ⟨_, fun _ => rfl, unwrap_some e⟩

-- Knowledge has taken the key when biometry refuses it.
def Ragged (p : ProtectedKeys) (b : Bytes) : Prop :=
  p.knowledge.length % 16 = 0 ∧ p.biometry = some b ∧ b.length % 16 ≠ 0

namespace Recodes

variable {c : Change} {code : Bytes → Bytes} {b : Bytes}

theorem apply_of_ragged (h : Recodes c code) (hp : Ragged p b) :
    c.apply p =
      (.error (.input (.unaligned b.length)), { p with knowledge := code p.knowledge }) := by
  obtain ⟨layer, happly, hlayer⟩ := h.exists_layer
  obtain ⟨hknowledge, hbiometry, hb⟩ := hp
  have hrefused : layer b = .error (.input (.unaligned b.length)) := by rw [hlayer, if_neg hb]
  rw [happly, relayer, hlayer, if_pos hknowledge]
  simp only [hbiometry, hrefused]

theorem error_cases (h : Recodes c code) (herror : c.apply p = (.error why, q)) :
    q = p ∨ ∃ b, Ragged p b := by
  obtain ⟨layer, happly, hlayer⟩ := h.exists_layer
  rw [happly, relayer, hlayer] at herror
  by_cases hknowledge : p.knowledge.length % 16 = 0
  · rw [if_pos hknowledge] at herror
    cases hbiometry : p.biometry with
    | none =>
        simp only [hbiometry] at herror
        cases herror
    | some b =>
        refine .inr ⟨b, hknowledge, hbiometry, fun hb => ?_⟩
        have htaken : layer b = .ok (code b) := by rw [hlayer, if_pos hb]
        simp only [hbiometry, htaken] at herror
        cases herror
  · rw [if_neg hknowledge] at herror
    cases herror
    exact .inl rfl

end Recodes

theorem Change.error_cases {c : Change} (herror : c.apply p = (.error why, q)) :
    q = p ∨ ∃ code b, Recodes c code ∧ Ragged p b := by
  have hrecodes {code : Bytes → Bytes} (h : Recodes c code) :
      q = p ∨ ∃ code b, Recodes c code ∧ Ragged p b := by
    rcases h.error_cases herror with hq | ⟨b, hb⟩
    · exact .inl hq
    · exact .inr ⟨code, b, h, hb⟩
  cases c with
  | password old new external salt => exact .inl (password_error herror)
  | addExternal key => exact hrecodes (.added key)
  | removeExternal key => exact hrecodes (.removed key)

theorem failed_change_stops_at_biometry (c : Change) (p : ProtectedKeys) :
    c.apply p = assign c.assignments p ∧
    (∀ code b, Recodes c code → Ragged p b → c.apply p =
      (.error (.input (.unaligned b.length)), { p with knowledge := code p.knowledge })) ∧
    ((∀ why q, c.apply p = (.error why, q) → q = p) ↔
      ∀ code b, Recodes c code → Ragged p b → code p.knowledge = p.knowledge) := by
  refine ⟨c.apply_eq_assign p, fun code b hc => hc.apply_of_ragged, ?_, ?_⟩
  · intro hkept code b hc hb
    exact congrArg knowledge (hkept _ _ (hc.apply_of_ragged hb))
  · intro hsame why q herror
    rcases Change.error_cases herror with hq | ⟨code, b, hc, hb⟩
    · exact hq
    · rw [hc.apply_of_ragged hb, hsame code b hc hb] at herror
      cases herror
      rfl

section Example

def raggedKeys : ProtectedKeys where
  possession := []
  knowledge := List.replicate 32 2
  biometry := some [3]
  transport := []
  salt := .zero 16
  iterations := KeyDerivation.minimalIterations

theorem failed_layer_changes_knowledge :
    ((Change.addExternal sampleExternal).apply raggedKeys).1 = .error (.input (.unaligned 1)) ∧
      ((Change.addExternal sampleExternal).apply raggedKeys).2 ≠ raggedKeys ∧
      ((Change.removeExternal sampleExternal).apply raggedKeys).1 = .error (.input (.unaligned 1)) ∧
      ((Change.removeExternal sampleExternal).apply raggedKeys).2 ≠ raggedKeys :=
  ⟨rfl, by decide +kernel, rfl, by decide +kernel⟩

end Example

end DeviceAuth.ProtectedKeys
