import DeviceAuth.ProtectedKeys
import DeviceAuth.Proofs.Cbc
import DeviceAuth.Proofs.Codec
import DeviceAuth.Proofs.Except

namespace DeviceAuth

structure Secrets where
  possession : Key
  password : Password
  biometry : Option Key
  external : Option Key

def Secrets.unlock (held : Secrets) : UnlockKeys where
  possession := some held.possession
  biometry := held.biometry
  password := some held.password

namespace ProtectedKeys

open Codec

theorem length_sealKey (key secret : Key) : (sealKey key secret).length = 32 := by
  rw [sealKey, Cbc.length_encrypt, secret.length_eq]

theorem length_of_wrap {external : Option Key} {locked wrapped : Bytes}
    (h : wrap external locked = .ok wrapped) : wrapped.length = locked.length := by
  cases external with
  | none =>
      cases h
      rfl
  | some e =>
      obtain ⟨hwhole, rfl⟩ := Cbc.encryptAligned_eq_ok.mp (mapError_eq_ok.mp h)
      rw [Cbc.length_encrypt]
      omega

theorem length_of_unwrap {external : Option Key} {wrapped locked : Bytes}
    (h : unwrap external wrapped = .ok locked) : locked.length = wrapped.length := by
  cases external with
  | none =>
      cases h
      rfl
  | some e =>
      obtain ⟨hwhole, rfl⟩ := Cbc.decryptAligned_eq_ok.mp (mapError_eq_ok.mp h)
      rw [Cbc.length_decrypt]
      omega

theorem length_lockBiometry {biometry unlockKey : Key} {external : Option Key} {locked : Bytes}
    (h : lockBiometry biometry unlockKey external = .ok locked) : locked.length = 32 := by
  rw [length_of_wrap h, length_sealKey]

theorem length_lockKnowledge {knowledge : Key} {password : Password} {salt : Fixed 16}
    {iterations : UInt32} {external : Option Key} {locked : Bytes}
    (h : lockKnowledge knowledge password salt iterations external = .ok locked) :
    locked.length = 32 := by
  obtain ⟨_, -, hsealed⟩ := bind_eq_ok.mp h
  rw [length_of_wrap hsealed, length_sealKey]

theorem short_of_length {locked : Bytes} (h : locked.length = 32) : Short locked := by
  rw [Short, h]
  decide

theorem short_sealKey (key secret : Key) : Short (sealKey key secret) :=
  short_of_length (length_sealKey key secret)

theorem storable_changePassword {p q : ProtectedKeys} {old new : Password} {external : Option Key}
    {salt : Fixed 16} (h : p.changePassword old new external salt = .ok q) (hp : p.Storable) :
    q.Storable := by
  obtain ⟨knowledge, -, h⟩ := bind_eq_ok.mp h
  obtain ⟨locked, hlocked, h⟩ := bind_eq_ok.mp h
  cases h
  exact ⟨hp.possession, short_of_length (length_lockKnowledge hlocked), hp.biometry, hp.transport⟩

structure Relayered (layer : Bytes → Except Failure Bytes) (p q : ProtectedKeys) : Prop where
  possession : q.possession = p.possession
  transport : q.transport = p.transport
  salt : q.salt = p.salt
  iterations : q.iterations = p.iterations
  knowledge : layer p.knowledge = .ok q.knowledge
  biometry : ∀ locked, q.biometry = some locked → ∃ b, p.biometry = some b ∧ layer b = .ok locked
  configured : q.biometry = none → p.biometry = none

theorem relayered_of_relayer {layer : Bytes → Except Failure Bytes} {p q : ProtectedKeys}
    (h : relayer layer p = (.ok (), q)) : Relayered layer p q := by
  unfold relayer at h
  split at h
  · cases h
  next knowledge hknowledge =>
    dsimp only at h
    split at h
    next hnone =>
      cases h
      exact ⟨rfl, rfl, rfl, rfl, hknowledge, fun locked hlocked => by simp [hnone] at hlocked, id⟩
    next b hb =>
      split at h
      · cases h
      next locked hlocked =>
        cases h
        refine ⟨rfl, rfl, rfl, rfl, hknowledge, ?_, nofun⟩
        rintro _ ⟨⟩
        exact ⟨b, hb, hlocked⟩

theorem storable_relayer {layer : Bytes → Except Failure Bytes} {p q : ProtectedKeys}
    (hlayer : ∀ a b, layer a = .ok b → b.length = a.length) (h : relayer layer p = (.ok (), q))
    (hp : p.Storable) : q.Storable := by
  have hshort : ∀ {a b}, layer a = .ok b → Short a → Short b := by
    intro a b hlayered ha
    rwa [Short, hlayer a b hlayered]
  have hq := relayered_of_relayer h
  refine ⟨hq.possession ▸ hp.possession, hshort hq.knowledge hp.knowledge, ?_,
    hq.transport ▸ hp.transport⟩
  intro locked hmem
  obtain ⟨b, hb, hlocked⟩ := hq.biometry locked hmem
  exact hshort hlocked (hp.biometry b hb)

theorem storable_addExternal {p q : ProtectedKeys} {key : Key}
    (h : p.addExternal key = (.ok (), q)) (hp : p.Storable) : q.Storable :=
  storable_relayer (fun _ _ => length_of_wrap) h hp

theorem storable_removeExternal {p q : ProtectedKeys} {key : Key}
    (h : p.removeExternal key = (.ok (), q)) (hp : p.Storable) : q.Storable :=
  storable_relayer (fun _ _ => length_of_unwrap) h hp

inductive BiometryLocked (keys : DerivedKeys) (unlock : UnlockKeys) (external : Option Key) :
    Option Bytes → Prop
  | absent : unlock.biometry = none → BiometryLocked keys unlock external none
  | present {unlockKey : Key} {locked : Bytes} :
      unlock.requireBiometry = .ok unlockKey →
      lockBiometry keys.biometry unlockKey external = .ok locked →
      BiometryLocked keys unlock external (some locked)

theorem lock_eq_ok {keys : DerivedKeys} {unlock : UnlockKeys} {external : Option Key}
    {salt : Fixed 16} {p : ProtectedKeys} (h : lock keys unlock external salt = .ok p) :
    ∃ possession password, unlock.requirePossession = .ok possession ∧
      unlock.requirePassword = .ok password ∧
      p.possession = sealKey possession keys.possession ∧
      p.transport = sealKey possession keys.transport ∧
      lockKnowledge keys.knowledge password p.salt p.iterations external = .ok p.knowledge ∧
      BiometryLocked keys unlock external p.biometry := by
  obtain ⟨possession, hpossession, h⟩ := bind_eq_ok.mp h
  obtain ⟨password, hpassword, h⟩ := bind_eq_ok.mp h
  dsimp only at h
  split at h
  next hb =>
    obtain ⟨_, hnone, h⟩ := bind_eq_ok.mp h
    obtain ⟨knowledge, hknowledge, h⟩ := bind_eq_ok.mp h
    cases hnone
    cases h
    exact ⟨possession, password, hpossession, hpassword, rfl, rfl, hknowledge, .absent hb⟩
  next hb =>
    obtain ⟨unlockKey, hkey, h⟩ := bind_eq_ok.mp h
    obtain ⟨locked, hlocked, h⟩ := bind_eq_ok.mp h
    obtain ⟨_, hsome, h⟩ := bind_eq_ok.mp h
    obtain ⟨knowledge, hknowledge, h⟩ := bind_eq_ok.mp h
    cases hsome
    cases h
    exact ⟨possession, password, hpossession, hpassword, rfl, rfl, hknowledge,
      .present hkey hlocked⟩

theorem exists_wrap (external : Option Key) {locked : Bytes} (h : locked.length % 16 = 0) :
    ∃ wrapped, wrap external locked = .ok wrapped := by
  cases external with
  | none => exact ⟨_, rfl⟩
  | some e => exact ⟨_, mapError_eq_ok.mpr (Cbc.encryptAligned_eq_ok.mpr ⟨h, rfl⟩)⟩

theorem exists_unwrap (external : Option Key) {wrapped : Bytes} (h : wrapped.length % 16 = 0) :
    ∃ locked, unwrap external wrapped = .ok locked := by
  cases external with
  | none => exact ⟨_, rfl⟩
  | some e => exact ⟨_, mapError_eq_ok.mpr (Cbc.decryptAligned_eq_ok.mpr ⟨h, rfl⟩)⟩

theorem aligned_of_length {locked : Bytes} (h : locked.length = 32) : locked.length % 16 = 0 := by
  rw [h]

theorem aligned_sealKey (key secret : Key) : (sealKey key secret).length % 16 = 0 :=
  aligned_of_length (length_sealKey key secret)

theorem exists_relayer {layer : Bytes → Except Failure Bytes} {p : ProtectedKeys}
    (hlayer : ∀ b, b.length % 16 = 0 → ∃ c, layer b = .ok c) (hk : p.knowledge.length % 16 = 0)
    (hb : ∀ b, p.biometry = some b → b.length % 16 = 0) : ∃ q, relayer layer p = (.ok (), q) := by
  obtain ⟨knowledge, hknowledge⟩ := hlayer _ hk
  rw [relayer, hknowledge]
  dsimp only
  cases hbiometry : p.biometry with
  | none => exact ⟨_, rfl⟩
  | some b =>
      obtain ⟨biometry, hlayered⟩ := hlayer b (hb b hbiometry)
      dsimp only
      rw [hlayered]
      exact ⟨_, rfl⟩

theorem exists_passwordKey_iff {password : Password} {salt : Fixed 16} {iterations : UInt32} :
    (∃ key, passwordKey password salt iterations = .ok key) ↔
      KeyDerivation.minimalIterations ≤ iterations := by
  constructor
  · rintro ⟨key, hkey⟩
    have hstretched := mapError_eq_ok.mp hkey
    unfold KeyDerivation.ofPassword at hstretched
    split at hstretched
    next => cases hstretched
    next hmany => exact UInt32.not_lt.mp hmany
  · intro hmany
    exact ⟨_, congrArg (Except.mapError Failure.input) (if_neg (UInt32.not_lt.mpr hmany))⟩

theorem exists_lockKnowledge (knowledge : Key) (password : Password) (salt : Fixed 16)
    (external : Option Key) :
    ∃ locked, lockKnowledge knowledge password salt KeyDerivation.minimalIterations external =
      .ok locked := by
  obtain ⟨key, hkey⟩ := exists_passwordKey_iff.mpr (UInt32.le_refl _)
  obtain ⟨locked, hlocked⟩ := exists_wrap external (aligned_sealKey key knowledge)
  exact ⟨locked, bind_eq_ok.mpr ⟨key, hkey, hlocked⟩⟩

section Parts

variable {keys : DerivedKeys} {unlock : UnlockKeys} {external : Option Key} {salt : Fixed 16}
  {possession : Key} {password : Password} (hpossession : unlock.requirePossession = .ok possession)
  (hpassword : unlock.requirePassword = .ok password)
include hpossession hpassword

theorem lock_of_parts {knowledge : Bytes} {biometry : Option Bytes}
    (hknowledge : lockKnowledge keys.knowledge password salt KeyDerivation.minimalIterations
      external = .ok knowledge)
    (hbiometry : BiometryLocked keys unlock external biometry) :
    lock keys unlock external salt = .ok ⟨sealKey possession keys.possession, knowledge, biometry,
      sealKey possession keys.transport, salt, KeyDerivation.minimalIterations⟩ := by
  refine bind_eq_ok.mpr ⟨possession, hpossession, bind_eq_ok.mpr ⟨password, hpassword, ?_⟩⟩
  cases hbiometry with
  | absent hnone =>
      rw [hnone]
      exact bind_eq_ok.mpr ⟨none, rfl, bind_eq_ok.mpr ⟨knowledge, hknowledge, rfl⟩⟩
  | @present key locked hkey hlocked =>
      obtain ⟨given, hgiven⟩ : ∃ given, unlock.biometry = some given := by
        cases hb : unlock.biometry with
        | none => simp [UnlockKeys.requireBiometry, UnlockKeys.usable, hb] at hkey
        | some given => exact ⟨given, rfl⟩
      rw [hgiven]
      exact bind_eq_ok.mpr ⟨key, hkey, bind_eq_ok.mpr ⟨locked, hlocked,
        bind_eq_ok.mpr ⟨some locked, rfl, bind_eq_ok.mpr ⟨knowledge, hknowledge, rfl⟩⟩⟩⟩

theorem exists_lock (keys : DerivedKeys) (external : Option Key) (salt : Fixed 16)
    (hbiometry : unlock.biometry = none ∨ ∃ key, unlock.requireBiometry = .ok key) :
    ∃ p, lock keys unlock external salt = .ok p := by
  obtain ⟨knowledge, hknowledge⟩ := exists_lockKnowledge keys.knowledge password salt external
  rcases hbiometry with hnone | ⟨key, hkey⟩
  · exact ⟨_, lock_of_parts hpossession hpassword hknowledge (.absent hnone)⟩
  · obtain ⟨locked, hlocked⟩ := exists_wrap external (aligned_sealKey key keys.biometry)
    exact ⟨_, lock_of_parts hpossession hpassword hknowledge (.present hkey hlocked)⟩

end Parts

theorem openKey_sealKey (key secret : Key) : openKey key (sealKey key secret) = .ok secret := by
  rw [openKey, dif_pos (length_sealKey key secret)]
  refine congrArg Except.ok (Fixed.ext_bytes ?_)
  exact Cbc.decrypt_encrypt _ _ (by rw [secret.length_eq])

theorem wrap_of_unwrap {external : Option Key} {wrapped locked : Bytes}
    (h : unwrap external wrapped = .ok locked) : wrap external locked = .ok wrapped := by
  cases external with
  | none =>
      cases h
      rfl
  | some e => exact mapError_eq_ok.mpr (Cbc.encryptAligned_decryptAligned (mapError_eq_ok.mp h))

theorem unwrap_of_wrap {external : Option Key} {locked wrapped : Bytes}
    (h : wrap external locked = .ok wrapped) : unwrap external wrapped = .ok locked := by
  cases external with
  | none =>
      cases h
      rfl
  | some e => exact mapError_eq_ok.mpr (Cbc.decryptAligned_encryptAligned (mapError_eq_ok.mp h))

def chosen (keys : DerivedKeys) (factors : FactorSet) : FactorKeys where
  possession := if factors.possession then some keys.possession else none
  knowledge := if factors.knowledge then some keys.knowledge else none
  biometry := if factors.biometry then some keys.biometry else none

def factorKey (keys : DerivedKeys) : Factor → Key
  | .possession => keys.possession
  | .knowledge => keys.knowledge
  | .biometry => keys.biometry

theorem unlock_of_factors {p : ProtectedKeys} {keys : DerivedKeys} {unlock : UnlockKeys}
    {external : Option Key} {factors : FactorSet} (hallowed : factors.allowed = true)
    (h : ∀ f, factors.contains f = true →
      p.unlockFactor unlock external f = .ok (factorKey keys f)) :
    p.unlock factors unlock external = .ok (chosen keys factors) := by
  have hone (f : Factor) :
      (if factors.contains f then some <$> p.unlockFactor unlock external f else pure none :
        Except Failure (Option Key)) =
        .ok (if factors.contains f then some (factorKey keys f) else none) := by
    split
    next hc => rw [h f hc]; rfl
    next => rfl
  refine bind_eq_ok.mpr ⟨(), if_pos hallowed, ?_⟩
  refine bind_eq_ok.mpr ⟨_, hone .possession, bind_eq_ok.mpr ⟨_, hone .knowledge, ?_⟩⟩
  exact bind_eq_ok.mpr ⟨_, hone .biometry, rfl⟩

structure LockedBy (keys : DerivedKeys) (held : Secrets) (p : ProtectedKeys) : Prop where
  usable : held.possession.isZero = false
  possession : p.possession = sealKey held.possession keys.possession
  transport : p.transport = sealKey held.possession keys.transport
  knowledge :
    lockKnowledge keys.knowledge held.password p.salt p.iterations held.external = .ok p.knowledge
  biometry : ∀ locked, p.biometry = some locked → ∃ key, held.biometry = some key ∧
    key.isZero = false ∧ lockBiometry keys.biometry key held.external = .ok locked

theorem usable_eq_ok {f : Factor} {given : Option Key} {key : Key} :
    UnlockKeys.usable f given = .ok key ↔ given = some key ∧ key.isZero = false := by
  constructor
  · intro h
    cases given with
    | none => cases h
    | some k =>
        unfold UnlockKeys.usable at h
        cases hzero : k.isZero with
        | true => simp [hzero] at h
        | false => simp_all
  · rintro ⟨rfl, hzero⟩
    simp [UnlockKeys.usable, hzero]

theorem requirePassword_eq_ok {unlock : UnlockKeys} {password : Password} :
    unlock.requirePassword = .ok password ↔ unlock.password = some password := by
  unfold UnlockKeys.requirePassword
  cases unlock.password <;> simp

theorem lockedBy_lock {keys : DerivedKeys} {unlock : UnlockKeys} {external : Option Key}
    {salt : Fixed 16} {p : ProtectedKeys} (h : lock keys unlock external salt = .ok p) :
    ∃ held : Secrets, held.unlock = unlock ∧ held.external = external ∧ LockedBy keys held p := by
  obtain ⟨possession, password, hpossession, hpassword, hp, ht, hk, hb⟩ := lock_eq_ok h
  obtain ⟨hgiven, hzero⟩ := usable_eq_ok.mp hpossession
  have hknown := requirePassword_eq_ok.mp hpassword
  refine ⟨⟨possession, password, unlock.biometry, external⟩, ?_, rfl, hzero, hp, ht, hk, ?_⟩
  · rw [Secrets.unlock, ← hgiven, ← hknown]
  · intro locked hlocked
    rw [hlocked] at hb
    cases hb with
    | @present key _ hkey hwrap =>
        obtain ⟨hsome, hnonzero⟩ := usable_eq_ok.mp hkey
        exact ⟨key, hsome, hnonzero, hwrap⟩

namespace LockedBy

variable {keys : DerivedKeys} {held : Secrets} {p q : ProtectedKeys} (h : LockedBy keys held p)
include h

theorem requirePossession : held.unlock.requirePossession = .ok held.possession :=
  usable_eq_ok.mpr ⟨rfl, h.usable⟩

theorem unlockTransport : p.unlockTransport held.unlock = .ok keys.transport := by
  refine bind_eq_ok.mpr ⟨held.possession, h.requirePossession, ?_⟩
  rw [h.transport, openKey_sealKey]

theorem unlockKnowledge : p.unlockKnowledge held.password held.external = .ok keys.knowledge := by
  obtain ⟨key, hkey, hwrap⟩ := bind_eq_ok.mp h.knowledge
  refine bind_eq_ok.mpr ⟨key, hkey, bind_eq_ok.mpr ⟨_, unwrap_of_wrap hwrap, ?_⟩⟩
  exact openKey_sealKey key keys.knowledge

theorem unlockFactor {f : Factor} (hf : f = .biometry → p.biometry ≠ none) :
    p.unlockFactor held.unlock held.external f = .ok (factorKey keys f) := by
  cases f with
  | possession =>
      refine bind_eq_ok.mpr ⟨held.possession, h.requirePossession, ?_⟩
      rw [h.possession, openKey_sealKey]
      rfl
  | knowledge => exact bind_eq_ok.mpr ⟨held.password, rfl, h.unlockKnowledge⟩
  | biometry =>
      obtain ⟨locked, hlocked⟩ := Option.ne_none_iff_exists'.mp (hf rfl)
      obtain ⟨key, hkey, hnonzero, hwrap⟩ := h.biometry locked hlocked
      rw [ProtectedKeys.unlockFactor, hlocked]
      refine bind_eq_ok.mpr ⟨_, unwrap_of_wrap hwrap, bind_eq_ok.mpr ⟨key, ?_, ?_⟩⟩
      · exact usable_eq_ok.mpr ⟨hkey, hnonzero⟩
      · exact openKey_sealKey key keys.biometry

theorem unlock {factors : FactorSet} (hallowed : factors.allowed = true)
    (hb : factors.biometry = true → p.biometry ≠ none) :
    p.unlock factors held.unlock held.external = .ok (chosen keys factors) := by
  refine unlock_of_factors hallowed fun f hf => h.unlockFactor ?_
  rintro rfl
  exact hb hf

theorem aligned : p.knowledge.length % 16 = 0 ∧
    ∀ locked, p.biometry = some locked → locked.length % 16 = 0 := by
  refine ⟨?_, fun locked hlocked => ?_⟩
  · exact aligned_of_length (length_lockKnowledge h.knowledge)
  · obtain ⟨_, -, -, hwrap⟩ := h.biometry locked hlocked
    exact aligned_of_length (length_lockBiometry hwrap)

theorem exists_addExternal (key : Key) : ∃ q, p.addExternal key = (.ok (), q) :=
  exists_relayer (fun _ => exists_wrap _) h.aligned.1 h.aligned.2

theorem exists_removeExternal (key : Key) : ∃ q, p.removeExternal key = (.ok (), q) :=
  exists_relayer (fun _ => exists_unwrap _) h.aligned.1 h.aligned.2

theorem changePassword {new : Password} {salt : Fixed 16}
    (hq : p.changePassword held.password new held.external salt = .ok q) :
    LockedBy keys { held with password := new } q := by
  obtain ⟨knowledge, hknowledge, hrest⟩ := bind_eq_ok.mp hq
  have hsame : keys.knowledge = knowledge := Except.ok.inj (h.unlockKnowledge.symm.trans hknowledge)
  rw [← hsame] at hrest
  obtain ⟨locked, hlocked, hdone⟩ := bind_eq_ok.mp hrest
  cases hdone
  exact ⟨h.usable, h.possession, h.transport, hlocked, h.biometry⟩

theorem removeBiometry : LockedBy keys held { p with biometry := none } :=
  ⟨h.usable, h.possession, h.transport, h.knowledge, fun locked hlocked => by cases hlocked⟩

theorem addBiometry {key : Key} {locked : Bytes} (hkey : key.isZero = false)
    (hlocked : lockBiometry keys.biometry key held.external = .ok locked) :
    LockedBy keys { held with biometry := some key } { p with biometry := some locked } := by
  refine ⟨h.usable, h.possession, h.transport, h.knowledge, ?_⟩
  rintro _ ⟨⟩
  exact ⟨key, rfl, hkey, hlocked⟩

theorem addExternal {key : Key} (hnone : held.external = none)
    (hq : p.addExternal key = (.ok (), q)) :
    LockedBy keys { held with external := some key } q := by
  have hlayered := relayered_of_relayer hq
  have hbiometry := h.biometry
  have hknowledge := h.knowledge
  rw [hnone] at hbiometry hknowledge
  refine ⟨h.usable, hlayered.possession.trans h.possession,
    hlayered.transport.trans h.transport, ?_, ?_⟩
  · obtain ⟨pkey, hpkey, hwrap⟩ := bind_eq_ok.mp hknowledge
    rw [hlayered.salt, hlayered.iterations]
    refine bind_eq_ok.mpr ⟨pkey, hpkey, ?_⟩
    rw [Except.ok.inj hwrap]
    exact hlayered.knowledge
  · intro locked hlocked
    obtain ⟨b, hb, hlayer⟩ := hlayered.biometry locked hlocked
    obtain ⟨bkey, hkey, hnonzero, hwrap⟩ := hbiometry b hb
    cases hwrap
    exact ⟨bkey, hkey, hnonzero, hlayer⟩

theorem removeExternal {key : Key} (hsome : held.external = some key)
    (hq : p.removeExternal key = (.ok (), q)) : LockedBy keys { held with external := none } q := by
  have hlayered := relayered_of_relayer hq
  have hbiometry := h.biometry
  have hknowledge := h.knowledge
  rw [hsome] at hbiometry hknowledge
  refine ⟨h.usable, hlayered.possession.trans h.possession,
    hlayered.transport.trans h.transport, ?_, ?_⟩
  · obtain ⟨pkey, hpkey, hwrap⟩ := bind_eq_ok.mp hknowledge
    rw [hlayered.salt, hlayered.iterations]
    refine bind_eq_ok.mpr ⟨pkey, hpkey, ?_⟩
    rw [← hlayered.knowledge, unwrap_of_wrap hwrap]
    rfl
  · intro locked hlocked
    obtain ⟨b, hb, hlayer⟩ := hlayered.biometry locked hlocked
    obtain ⟨bkey, hkey, hnonzero, hwrap⟩ := hbiometry b hb
    rw [unwrap_of_wrap hwrap] at hlayer
    exact ⟨bkey, hkey, hnonzero, hlayer⟩

end LockedBy

theorem biometry_of_lock {keys : DerivedKeys} {unlock : UnlockKeys} {external : Option Key}
    {salt : Fixed 16} {p : ProtectedKeys} (h : lock keys unlock external salt = .ok p)
    (hb : unlock.biometry ≠ none) : p.biometry ≠ none := by
  obtain ⟨_, _, -, -, -, -, -, hpresent⟩ := lock_eq_ok h
  intro hmissing
  rw [hmissing] at hpresent
  cases hpresent with
  | absent hnone => exact hb hnone

theorem unlock_of_lock {keys : DerivedKeys} {unlock : UnlockKeys} {external : Option Key}
    {salt : Fixed 16} {p : ProtectedKeys} (h : lock keys unlock external salt = .ok p)
    {factors : FactorSet} (hallowed : factors.allowed = true)
    (hb : factors.biometry = true → unlock.biometry ≠ none) :
    p.unlock factors unlock external = .ok (chosen keys factors) := by
  obtain ⟨held, rfl, rfl, hlocked⟩ := lockedBy_lock h
  exact hlocked.unlock hallowed fun hf => biometry_of_lock h (hb hf)

theorem unlockTransport_of_lock {keys : DerivedKeys} {unlock : UnlockKeys} {external : Option Key}
    {salt : Fixed 16} {p : ProtectedKeys} (h : lock keys unlock external salt = .ok p) :
    p.unlockTransport unlock = .ok keys.transport := by
  obtain ⟨held, rfl, -, hlocked⟩ := lockedBy_lock h
  exact hlocked.unlockTransport

theorem storable_lock {keys : DerivedKeys} {unlock : UnlockKeys} {external : Option Key}
    {salt : Fixed 16} {p : ProtectedKeys} (h : lock keys unlock external salt = .ok p) :
    p.Storable := by
  obtain ⟨possession, password, -, -, hp, ht, hk, hb⟩ := lock_eq_ok h
  refine ⟨hp ▸ short_sealKey _ _, short_of_length (length_lockKnowledge hk), ?_,
    ht ▸ short_sealKey _ _⟩
  intro b hmem
  rw [Option.mem_def] at hmem
  rw [hmem] at hb
  cases hb with
  | present _ hlocked => exact short_of_length (length_lockBiometry hlocked)

end ProtectedKeys

end DeviceAuth
