import Mathlib.Control.Monad.Basic
import DeviceAuth.Proofs.ProtectedKeys

namespace DeviceAuth.ProtectedKeys

variable {p q : ProtectedKeys} {e : Key} {layer back : Bytes → Except Failure Bytes}

theorem relayer_of_relayered (h : Relayered layer p q) : relayer layer p = (.ok (), q) := by
  obtain ⟨possession, knowledge, biometry, transport, salt, iterations⟩ := q
  obtain ⟨rfl, rfl, rfl, rfl, hknowledge, hbiometry, hconfigured⟩ := h
  rw [relayer, hknowledge]
  cases biometry with
  | none =>
      dsimp only
      rw [hconfigured rfl]
  | some locked =>
      obtain ⟨b, hb, hlocked⟩ := hbiometry locked rfl
      dsimp only
      rw [hb]
      dsimp only
      rw [hlocked]

namespace Relayered

theorem undone (hback : ∀ a b, layer a = .ok b → back b = .ok a) (h : Relayered layer p q) :
    Relayered back q p where
  possession := h.possession.symm
  transport := h.transport.symm
  salt := h.salt.symm
  iterations := h.iterations.symm
  knowledge := hback _ _ h.knowledge
  biometry locked hlocked := by
    cases hq : q.biometry with
    | none =>
        rw [h.configured hq] at hlocked
        cases hlocked
    | some wrapped =>
        obtain ⟨b, hb, hwrapped⟩ := h.biometry wrapped hq
        rw [hlocked] at hb
        cases hb
        exact ⟨wrapped, rfl, hback _ _ hwrapped⟩
  configured hnone := by
    cases hq : q.biometry with
    | none => rfl
    | some wrapped =>
        obtain ⟨b, hb, -⟩ := h.biometry wrapped hq
        rw [hnone] at hb
        cases hb

theorem rekeyed (h : Relayered layer p q) {locked wrapped : Bytes}
    (hlayer : layer locked = .ok wrapped) (salt : Fixed 16) (iterations : UInt32) :
    Relayered layer { p with knowledge := locked, salt, iterations }
      { q with knowledge := wrapped, salt, iterations } :=
  ⟨h.possession, h.transport, rfl, rfl, hlayer, h.biometry, h.configured⟩

section Under

variable (h : Relayered (wrap (some e)) p q)
include h

theorem unlockKnowledge (password : Password) :
    q.unlockKnowledge password (some e) = p.unlockKnowledge password none := by
  rw [ProtectedKeys.unlockKnowledge, ProtectedKeys.unlockKnowledge, h.salt, h.iterations,
    unwrap_of_wrap h.knowledge]
  rfl

theorem unlockFactor (unlock : UnlockKeys) (f : Factor) :
    q.unlockFactor unlock (some e) f = p.unlockFactor unlock none f := by
  cases f with
  | possession => rw [ProtectedKeys.unlockFactor, ProtectedKeys.unlockFactor, h.possession]
  | knowledge =>
      rw [ProtectedKeys.unlockFactor, ProtectedKeys.unlockFactor, funext h.unlockKnowledge]
  | biometry =>
      rw [ProtectedKeys.unlockFactor, ProtectedKeys.unlockFactor]
      cases hq : q.biometry with
      | none => rw [h.configured hq]
      | some wrapped =>
          obtain ⟨b, hb, hwrapped⟩ := h.biometry wrapped hq
          rw [hb]
          dsimp only
          rw [unwrap_of_wrap hwrapped]
          rfl

theorem unlock (factors : FactorSet) (unlock : UnlockKeys) :
    q.unlock factors unlock (some e) = p.unlock factors unlock none := by
  unfold ProtectedKeys.unlock
  simp only [h.unlockFactor]

end Under

end Relayered

structure Whole (p : ProtectedKeys) : Prop where
  possession : p.possession.length = 32
  knowledge : p.knowledge.length = 32
  biometry : ∀ locked, p.biometry = some locked → locked.length = 32
  transport : p.transport.length = 32
  iterations : KeyDerivation.minimalIterations ≤ p.iterations

namespace Whole

theorem relayered (hlength : ∀ a b, layer a = .ok b → b.length = a.length) (hp : p.Whole)
    (h : Relayered layer p q) : q.Whole where
  possession := by rw [h.possession, hp.possession]
  knowledge := by rw [hlength _ _ h.knowledge, hp.knowledge]
  biometry locked hlocked := by
    obtain ⟨b, hb, hlayer⟩ := h.biometry locked hlocked
    rw [hlength _ _ hlayer, hp.biometry b hb]
  transport := by rw [h.transport, hp.transport]
  iterations := by
    rw [h.iterations]
    exact hp.iterations

variable (h : p.Whole)
include h

theorem exists_relayered (hlayer : ∀ b, b.length % 16 = 0 → ∃ c, layer b = .ok c) :
    ∃ q, Relayered layer p q := by
  obtain ⟨q, hq⟩ := exists_relayer hlayer (aligned_of_length h.knowledge) fun b hb =>
    aligned_of_length (h.biometry b hb)
  exact ⟨q, relayered_of_relayer hq⟩

theorem exists_wrapped (e : Key) : ∃ q, Relayered (wrap (some e)) p q :=
  h.exists_relayered fun _ => exists_wrap _

theorem exists_unwrapped (e : Key) : ∃ q, Relayered (unwrap (some e)) p q :=
  h.exists_relayered fun _ => exists_unwrap _

theorem exists_unlockKnowledge (password : Password) :
    ∃ knowledge, p.unlockKnowledge password none = .ok knowledge := by
  obtain ⟨key, hkey⟩ := exists_passwordKey_iff.mpr h.iterations
  exact ⟨_, bind_eq_ok.mpr ⟨key, hkey, dif_pos h.knowledge⟩⟩

end Whole

def settled : Except Failure Unit × ProtectedKeys → Except Failure ProtectedKeys
  | (.ok (), p) => .ok p
  | (.error why, _) => .error why

theorem settled_of_relayered (h : Relayered layer p q) : settled (relayer layer p) = .ok q := by
  rw [relayer_of_relayered h]
  rfl

theorem lockKnowledge_of_wrap {knowledge : Key} {password : Password} {salt : Fixed 16}
    {iterations : UInt32} {external : Option Key} {locked wrapped : Bytes}
    (hlocked : lockKnowledge knowledge password salt iterations none = .ok locked)
    (hwrapped : wrap external locked = .ok wrapped) :
    lockKnowledge knowledge password salt iterations external = .ok wrapped := by
  obtain ⟨key, hkey, hsealed⟩ := bind_eq_ok.mp hlocked
  cases hsealed
  exact bind_eq_ok.mpr ⟨key, hkey, hwrapped⟩

theorem exists_layered_knowledge (knowledge : Key) (password : Password) (salt : Fixed 16)
    (e : Key) : ∃ locked wrapped, wrap (some e) locked = .ok wrapped ∧
      lockKnowledge knowledge password salt KeyDerivation.minimalIterations none = .ok locked ∧
      lockKnowledge knowledge password salt KeyDerivation.minimalIterations (some e) =
        .ok wrapped := by
  obtain ⟨locked, hlocked⟩ := exists_lockKnowledge knowledge password salt none
  obtain ⟨wrapped, hwrapped⟩ :=
    exists_wrap (some e) (aligned_of_length (length_lockKnowledge hlocked))
  exact ⟨locked, wrapped, hwrapped, hlocked, lockKnowledge_of_wrap hlocked hwrapped⟩

theorem Relayered.changePassword (h : Relayered (wrap (some e)) p q) (old new : Password)
    (salt : Fixed 16) : q.changePassword old new (some e) salt =
      (p.changePassword old new none salt >>= fun changed => settled (changed.addExternal e)) := by
  cases hknowledge : p.unlockKnowledge old none with
  | error why =>
      unfold ProtectedKeys.changePassword
      rw [h.unlockKnowledge, hknowledge]
      rfl
  | ok knowledge =>
      obtain ⟨locked, wrapped, hwrapped, hlocked, hlayered⟩ :=
        exists_layered_knowledge knowledge new salt e
      have hbare : p.changePassword old new none salt = .ok _ :=
        bind_eq_ok.mpr ⟨knowledge, hknowledge, bind_eq_ok.mpr ⟨locked, hlocked, rfl⟩⟩
      have hunder : q.changePassword old new (some e) salt = .ok _ :=
        bind_eq_ok.mpr ⟨knowledge, (h.unlockKnowledge old).trans hknowledge,
          bind_eq_ok.mpr ⟨wrapped, hlayered, rfl⟩⟩
      rw [hbare, hunder]
      exact (settled_of_relayered (h.rekeyed hwrapped salt _)).symm

theorem lock_some (keys : DerivedKeys) (unlock : UnlockKeys) (salt : Fixed 16) (e : Key) :
    lock keys unlock (some e) salt =
      (lock keys unlock none salt >>= fun p => settled (p.addExternal e)) := by
  cases hpossession : unlock.requirePossession with
  | error why =>
      unfold lock
      rw [hpossession]
      rfl
  | ok possession =>
  cases hpassword : unlock.requirePassword with
  | error why =>
      unfold lock
      rw [hpossession, hpassword]
      rfl
  | ok password =>
  obtain ⟨locked, wrapped, hwrapped, hlocked, hlayered⟩ :=
    exists_layered_knowledge keys.knowledge password salt e
  cases hbiometry : unlock.biometry with
  | none =>
      rw [lock_of_parts hpossession hpassword hlocked (.absent hbiometry),
        lock_of_parts hpossession hpassword hlayered (.absent hbiometry)]
      symm
      apply settled_of_relayered
      exact ⟨rfl, rfl, rfl, rfl, hwrapped, nofun, fun _ => rfl⟩
  | some given =>
      cases hkey : unlock.requireBiometry with
      | error why =>
          unfold lock
          rw [hpossession, hpassword, hbiometry, hkey]
          rfl
      | ok key =>
          obtain ⟨sealed, hsealed⟩ := exists_wrap (some e) (aligned_sealKey key keys.biometry)
          rw [lock_of_parts hpossession hpassword hlocked (.present hkey rfl),
            lock_of_parts hpossession hpassword hlayered (.present hkey hsealed)]
          symm
          apply settled_of_relayered
          refine ⟨rfl, rfl, rfl, rfl, hwrapped, ?_, nofun⟩
          rintro _ ⟨⟩
          exact ⟨_, rfl, hsealed⟩

theorem Whole.exists_changePassword (h : p.Whole) (old new : Password) (salt : Fixed 16) :
    ∃ q, q.Whole ∧ p.changePassword old new none salt = .ok q := by
  obtain ⟨knowledge, hknowledge⟩ := h.exists_unlockKnowledge old
  obtain ⟨locked, hlocked⟩ := exists_lockKnowledge knowledge new salt none
  have hlength := length_lockKnowledge hlocked
  refine ⟨{ p with knowledge := locked, salt, iterations := KeyDerivation.minimalIterations },
    ⟨h.possession, hlength, h.biometry, h.transport, UInt32.le_refl _⟩, ?_⟩
  exact bind_eq_ok.mpr ⟨knowledge, hknowledge, bind_eq_ok.mpr ⟨locked, hlocked, rfl⟩⟩

theorem whole_lock {keys : DerivedKeys} {unlock : UnlockKeys} {external : Option Key}
    {salt : Fixed 16} (h : lock keys unlock external salt = .ok p) : p.Whole := by
  obtain ⟨possession, password, -, -, hp, ht, hk, hb⟩ := lock_eq_ok h
  refine ⟨by rw [hp, length_sealKey], length_lockKnowledge hk, ?_, by rw [ht, length_sealKey], ?_⟩
  · intro locked hlocked
    rw [hlocked] at hb
    cases hb with
    | present _ hwrapped => exact length_lockBiometry hwrapped
  · obtain ⟨key, hkey, -⟩ := bind_eq_ok.mp hk
    exact exists_passwordKey_iff.mp ⟨key, hkey⟩

structure LayerApart (e : Key) (p : ProtectedKeys) : Prop where
  added : ∃ q, q.Whole ∧ p.addExternal e = (.ok (), q) ∧ q.removeExternal e = (.ok (), p)
  removed : ∃ q, q.Whole ∧ p.removeExternal e = (.ok (), q) ∧ q.addExternal e = (.ok (), p)
  changes : ∀ old new salt, ∃ q, q.Whole ∧ p.changePassword old new none salt = .ok q
  changed : ∀ old new salt,
    (settled (p.addExternal e) >>= fun q => q.changePassword old new (some e) salt) =
      (p.changePassword old new none salt >>= fun q => settled (q.addExternal e))
  unlocked : ∀ factors unlock,
    (settled (p.addExternal e) >>= fun q => q.unlock factors unlock (some e)) =
      p.unlock factors unlock none

theorem Whole.layerApart (h : p.Whole) (e : Key) : LayerApart e p := by
  obtain ⟨q, hq⟩ := h.exists_wrapped e
  obtain ⟨r, hr⟩ := h.exists_unwrapped e
  have hadded : settled (p.addExternal e) = .ok q := settled_of_relayered hq
  refine ⟨⟨q, h.relayered (fun _ _ => length_of_wrap) hq, relayer_of_relayered hq, ?_⟩,
    ⟨r, h.relayered (fun _ _ => length_of_unwrap) hr, relayer_of_relayered hr, ?_⟩,
    h.exists_changePassword, fun old new salt => ?_, fun factors unlock => ?_⟩
  · exact relayer_of_relayered (hq.undone fun _ _ => unwrap_of_wrap)
  · exact relayer_of_relayered (hr.undone fun _ _ => wrap_of_unwrap)
  · rw [hadded]
    exact hq.changePassword old new salt
  · rw [hadded]
    exact hq.unlock factors unlock

theorem external_layer_apart (e : Key) :
    (∀ p : ProtectedKeys, p.Whole → LayerApart e p) ∧
      ∀ keys unlock salt, (∀ p, lock keys unlock none salt = .ok p → p.Whole) ∧
        lock keys unlock (some e) salt =
          (lock keys unlock none salt >>= fun p => settled (p.addExternal e)) :=
  ⟨fun _ h => h.layerApart e,
    fun keys unlock salt => ⟨fun _ => whole_lock, lock_some keys unlock salt e⟩⟩

section Example

def sampleExternal : Key :=
  ⟨List.replicate 32 7, rfl⟩

def sampleUnlock : UnlockKeys where
  biometry := some ⟨List.replicate 32 3, rfl⟩

def sampleBiometry : Key :=
  ⟨List.replicate 32 4, rfl⟩

def sampleLocked : ProtectedKeys where
  possession := List.replicate 32 1
  knowledge := List.replicate 32 2
  biometry := some (sealKey ⟨List.replicate 32 3, rfl⟩ sampleBiometry)
  transport := List.replicate 32 5
  salt := Fixed.zero 16
  iterations := KeyDerivation.minimalIterations

theorem biometry_unlocked_under_layer :
    sampleLocked.Whole ∧ (sampleLocked.addExternal sampleExternal).2 ≠ sampleLocked ∧
      LayerApart sampleExternal sampleLocked ∧
      (settled (sampleLocked.addExternal sampleExternal) >>= fun q =>
        q.unlock (.ofList [.biometry]) sampleUnlock (some sampleExternal)) =
          .ok { biometry := some sampleBiometry } := by
  have hwhole : sampleLocked.Whole := by
    refine ⟨rfl, rfl, ?_, rfl, UInt32.le_refl _⟩
    rintro _ ⟨⟩
    exact length_sealKey _ _
  have hapart := (external_layer_apart sampleExternal).1 sampleLocked hwhole
  have hopened : sampleLocked.unlockFactor sampleUnlock none .biometry = .ok sampleBiometry :=
    bind_eq_ok.mpr ⟨_, rfl, bind_eq_ok.mpr ⟨_, rfl, openKey_sealKey _ _⟩⟩
  have hbare : sampleLocked.unlock (.ofList [.biometry]) sampleUnlock none =
      .ok { biometry := some sampleBiometry } := by
    unfold ProtectedKeys.unlock
    simp only [hopened]
    rfl
  exact ⟨hwhole, by decide +kernel, hapart, (hapart.unlocked _ _).trans hbare⟩

end Example

end DeviceAuth.ProtectedKeys
