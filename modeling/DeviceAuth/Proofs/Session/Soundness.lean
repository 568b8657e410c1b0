import DeviceAuth.Proofs.Activation.Payload
import DeviceAuth.Proofs.Counter
import DeviceAuth.Proofs.Gcm
import DeviceAuth.Proofs.ProtectedKeys
import DeviceAuth.Proofs.Session.Effect
import DeviceAuth.Proofs.StoredStatus
import DeviceAuth.Session.Run

namespace DeviceAuth.Session

open Activation

theorem unused_initialCounter (response : Response) : (initialCounter response).Unused := by
  unfold initialCounter
  split
  · exact .chain _
  · exact .numeric

theorem issuedRecovery_eq_ok {response : Response} {recovery : Recovery}
    (h : issuedRecovery response = .ok (some recovery)) : response.recovery = some recovery := by
  unfold issuedRecovery at h
  cases hr : response.recovery with
  | none => rw [hr] at h; cases h
  | some given =>
      rw [hr] at h
      dsimp only at h
      split at h
      · cases h
      · obtain ⟨-, -, hg⟩ := map_eq_ok.mp h
        exact hg

theorem recordOf_eq_ok {s : Session} {pending : Pending} {response : Response}
    {unlock : UnlockKeys} {draws : ValidationDraws} {r : Record} :
    s.recordOf pending response unlock draws = .ok r ↔
      s.masterKey.verify response.signedData response.signature = .ok () ∧
      ∃ recovery serverKey keys, issuedRecovery response = .ok recovery ∧
        P256.PublicKey.ofBytes response.serverKey = .ok serverKey ∧
        ProtectedKeys.lock (DerivedKeys.ofSecret (pending.privateKey.agree serverKey).bytes) unlock
          s.externalKey draws.salt = .ok keys ∧
        r = {
          id := response.activationId
          serverKey := response.serverKey
          deviceKey := pending.privateKey.publicKey.compressed
          sealedPrivateKey := Gcm.sealed
            (DerivedKeys.ofSecret (pending.privateKey.agree serverKey).bytes).vault draws.keyNonce
            pending.privateKey.bytes
          sealedRecovery := recovery.map (sealRecovery
            (DerivedKeys.ofSecret (pending.privateKey.agree serverKey).bytes).vault
            draws.recoveryNonce)
          keys
          counter := initialCounter response
          external := s.externalKey.isSome
          health := .valid
          pendingUpgrade := none } := by
  constructor
  · intro h
    obtain ⟨_, hverify, h⟩ := bind_eq_ok.mp h
    obtain ⟨recovery, hrecovery, h⟩ := bind_eq_ok.mp h
    obtain ⟨serverKey, hserver, h⟩ := bind_eq_ok.mp h
    obtain ⟨keys, hkeys, h⟩ := bind_eq_ok.mp h
    cases h
    exact ⟨mapError_eq_ok.mp hverify, recovery, serverKey, keys, hrecovery, lift_eq_ok.mp hserver,
      hkeys, rfl⟩
  · rintro ⟨hverify, recovery, serverKey, keys, hrecovery, hserver, hkeys, rfl⟩
    refine bind_eq_ok.mpr ⟨(), mapError_eq_ok.mpr hverify, ?_⟩
    refine bind_eq_ok.mpr ⟨recovery, hrecovery, ?_⟩
    refine bind_eq_ok.mpr ⟨serverKey, lift_eq_ok.mpr hserver, ?_⟩
    exact bind_eq_ok.mpr ⟨keys, hkeys, rfl⟩

theorem ne_nil_of_ofBytes {b : Bytes} {k : P256.PublicKey}
    (h : P256.PublicKey.ofBytes b = .ok k) : b ≠ [] := by
  rintro rfl
  cases h

theorem short_of_fits {b : Bytes} (h : Framing.Fits b) : Codec.Short b :=
  Nat.lt_trans h (by decide)

theorem length_compressed (k : P256.PublicKey) : k.compressed.length = 33 := by
  simp [P256.PublicKey.compressed, P256.fieldBytes]

theorem short_sealRecovery {vaultKey : Key} {nonce : Fixed 12} {recovery : Recovery}
    (hc : Framing.Fits (Text.utf8 recovery.code)) (hp : Framing.Fits (Text.utf8 recovery.puk)) :
    Codec.Short (sealRecovery vaultKey nonce recovery) := by
  simp only [Codec.Short, Framing.Fits, sealRecovery, Gcm.length_sealed, Framing.join_cons,
    Framing.join_nil, List.length_append, Bytes.length_bigEndian, List.length_nil] at hc hp ⊢
  omega

theorem storable_recordOf {s : Session} {pending : Pending} {b : Bytes} {response : Response}
    {unlock : UnlockKeys} {draws : ValidationDraws} {r : Record}
    (hdecode : Response.decode b = .ok response)
    (h : s.recordOf pending response unlock draws = .ok r) : r.Storable := by
  obtain ⟨-, recovery, serverKey, keys, hrecovery, hserver, hkeys, rfl⟩ := recordOf_eq_ok.mp h
  have hfits := Response.fits_of_decode hdecode
  have hid : response.activationId.isEmpty = false := (Response.decode_eq_ok.mp hdecode).2
  have hserverKey : response.serverKey ≠ [] := ne_nil_of_ofBytes hserver
  have hdevice : pending.privateKey.publicKey.compressed ≠ [] :=
    List.ne_nil_of_length_eq_add_one (length_compressed _)
  have hlength (key : Key) :
      (Gcm.sealed key draws.keyNonce pending.privateKey.bytes).length = 60 := by
    rw [Gcm.length_sealed, P256.PrivateKey.bytes, Bytes.length_bigEndian]
  refine ⟨?_, ?_, ?_, ?_, ?_, ?_, ProtectedKeys.storable_lock hkeys⟩
  · have hsealed (key : Key) : Gcm.sealed key draws.keyNonce pending.privateKey.bytes ≠ [] :=
      List.ne_nil_of_length_eq_add_one (hlength key)
    simp [Record.complete, hid, hserverKey, hdevice, hsealed]
  · exact short_of_fits (hfits _ (by simp [Response.parts, Response.signedParts]))
  · exact short_of_fits (hfits _ (by simp [Response.parts, Response.signedParts]))
  · rw [Codec.Short, length_compressed]
    decide
  · rw [Codec.Short, hlength]
    decide
  · intro sealedBytes hmem
    obtain ⟨given, hgiven, rfl⟩ := Option.map_eq_some_iff.mp hmem
    subst hgiven
    have hissued := issuedRecovery_eq_ok hrecovery
    exact short_sealRecovery
      (hfits _ (by simp [Response.parts, Response.recoveryParts, hissued]))
      (hfits _ (by simp [Response.parts, Response.recoveryParts, hissued]))

structure Sound (s : Session) : Prop where
  storable : ∀ r, s.record? = some r → r.Storable
  unused : ∀ r, s.phase = .pendingCommit r → r.counter.Unused

theorem Sound.of_phase {s t : Session} (h : s.Sound) (hp : t.phase = s.phase) : t.Sound := by
  constructor
  · intro r hr
    rw [record?_eq_some, hp, ← record?_eq_some] at hr
    exact h.storable r hr
  · intro r hr
    exact h.unused r (hp ▸ hr)

theorem Sound.active {s : Session} (h : s.Sound) {r : Record} (hr : s.phase = .active r) :
    r.Storable :=
  h.storable r (record?_eq_some.mpr (.inr hr))

theorem sound_of_ofStored {s : Session} {status : StoredStatus} (h : status.Storable)
    (hp : s.phase = .ofStored status) : s.Sound := by
  constructor
  · intro r hr
    rw [record?_eq_some, hp] at hr
    cases status with
    | activated r' =>
        rcases hr with hr | hr
        · cases hr
        · cases hr
          exact StoredStatus.storable_activated.mp h
    | empty => rcases hr with hr | hr <;> cases hr
    | removed => rcases hr with hr | hr <;> cases hr
  · intro r hr
    rw [hp] at hr
    cases status <;> cases hr

theorem sound_of_idle {s : Session} (h : s.phase = .empty ∨ ∃ pending, s.phase = .started pending) :
    s.Sound := by
  constructor
  · intro r hr
    rw [record?_eq_some] at hr
    rcases h with h | ⟨pending, h⟩ <;> rw [h] at hr <;> rcases hr with hr | hr <;> cases hr
  · intro r hr
    rcases h with h | ⟨pending, h⟩ <;> rw [h] at hr <;> cases hr

def Change.status : Change → StoredStatus
  | .save status => status
  | .remove => .empty

structure Follows (s t : Session) : Prop where
  sound : t.Sound
  stored : t.phase.stored = s.phase.stored
  name : t.storageName = s.storageName
  stale : t.stale = s.stale

theorem Sound.follows {s t : Session} (h : s.Sound) (hp : t.phase = s.phase)
    (hn : t.storageName = s.storageName) (hs : t.stale = s.stale) : Follows s t :=
  ⟨h.of_phase hp, by rw [hp], hn, hs⟩

theorem follows_of_idle {s t : Session}
    (hs : s.phase = .empty ∨ ∃ pending, s.phase = .started pending)
    (ht : t.phase = .empty ∨ ∃ pending, t.phase = .started pending)
    (hn : t.storageName = s.storageName) (hst : t.stale = s.stale) : Follows s t := by
  refine ⟨sound_of_idle ht, ?_, hn, hst⟩
  rcases hs with hs | ⟨_, hs⟩ <;> rcases ht with ht | ⟨_, ht⟩ <;> rw [hs, ht] <;> rfl

inductive Plan.Faithful {α : Type} (s : Session) : Plan α → Prop
  | refuse {t : Session} {why : Failure} : Follows s t → Faithful s (.refuse t why)
  | keep {t : Session} {a : α} : Follows s t → Faithful s (.keep t a)
  | write {before after : Session} {change : Change} {a : α} :
      Follows s before → change.status.Storable → after.Sound →
      after.phase.stored = change.status → after.storageName = s.storageName →
      after.stale = s.stale → Faithful s (.write before change after a)

theorem Plan.Faithful.update {α : Type} {s before after : Session} {r : Record} {a : α}
    (hbefore : Follows s before) (hr : r.Storable) (hphase : after.phase = .active r)
    (hn : after.storageName = s.storageName) (hs : after.stale = s.stale) :
    (Plan.write before (.save (.activated r)) after a).Faithful s := by
  have hstorable := StoredStatus.storable_activated.mpr hr
  refine .write hbefore hstorable (sound_of_ofStored hstorable hphase) ?_ hn hs
  rw [hphase]
  rfl

theorem faithful_commit {α : Type} {s : Session} {r : Record} {a : α} (h : s.Sound)
    (hr : r.Storable) : (s.commit r a).Faithful s :=
  .update (h.follows rfl rfl rfl) hr rfl rfl rfl

theorem faithful_discard {α : Type} {s : Session} {a : α} (h : s.Sound) :
    (s.discard a).Faithful s :=
  .write (h.follows rfl rfl rfl) StoredStatus.storable_removed
    (sound_of_ofStored StoredStatus.storable_removed rfl) rfl rfl rfl

theorem storable_of_same_parts {r t : Record} (h : r.Storable) (hid : t.id = r.id)
    (hserver : t.serverKey = r.serverKey) (hdevice : t.deviceKey = r.deviceKey)
    (hprivate : t.sealedPrivateKey = r.sealedPrivateKey)
    (hrecovery : t.sealedRecovery = r.sealedRecovery) (hkeys : t.keys.Storable) : t.Storable := by
  have hc := h.complete
  refine ⟨?_, hid ▸ h.id, hserver ▸ h.serverKey, hdevice ▸ h.deviceKey,
    hprivate ▸ h.sealedPrivateKey, hrecovery ▸ h.sealedRecovery, hkeys⟩
  rw [Record.complete] at hc ⊢
  rw [hid, hserver, hdevice, hprivate]
  exact hc

theorem valid_phase {s : Session} {r : Record} (h : s.valid = .ok r) : s.phase = .active r :=
  (valid_eq_ok.mp h).1

theorem faithful_of_effect {s : Session} {op : Operation} {plan : Plan Answer}
    (h : Effect s op plan) (hs : s.Sound) (hop : ∀ blob, op ≠ .deserialize blob) :
    plan.Faithful s := by
  cases h with
  | refused op why => exact .refuse (hs.follows rfl rfl rfl)
  | ended pending why hp => exact .refuse (follows_of_idle (.inr ⟨_, hp⟩) (.inl rfl) rfl rfl)
  | spent why => exact .refuse (hs.follows rfl rfl rfl)
  | unreadable why => exact absurd rfl (hop _)
  | alreadyConfirmed => exact .keep (hs.follows rfl rfl rfl)
  | noBiometry => exact .keep (hs.follows rfl rfl rfl)
  | sameHealth => exact .keep (hs.follows rfl rfl rfl)
  | sameKey => exact .keep (hs.follows rfl rfl rfl)
  | givenKey => exact .keep (hs.follows rfl rfl rfl)
  | started hp => exact .keep (follows_of_idle hp (.inr ⟨_, rfl⟩) rfl rfl)
  | @validated _ _ _ _ pending answered r hp _ hdecode hr =>
      refine .keep ⟨⟨?_, ?_⟩, by rw [hp]; rfl, rfl, rfl⟩
      · intro r' hr'
        cases hr'
        exact storable_recordOf hdecode hr
      · intro r' hr'
        cases hr'
        obtain ⟨-, _, _, _, -, -, -, rfl⟩ := recordOf_eq_ok.mp hr
        exact unused_initialCounter answered
  | loaded => exact absurd rfl (hop _)
  | opened => exact .keep (hs.follows rfl rfl rfl)
  | confirmed hp => exact faithful_commit hs (hs.storable _ (record?_eq_some.mpr (.inl hp)))
  | discarded => exact faithful_discard hs
  | reportedGone => exact faithful_discard hs
  | cleared =>
      exact .write (hs.follows rfl rfl rfl) StoredStatus.storable_empty
        (sound_of_idle (.inl rfl)) rfl rfl rfl
  | signed hr _ =>
      have h := hs.active (valid_phase hr)
      exact faithful_commit hs (storable_of_same_parts h rfl rfl rfl rfl rfl h.keys)
  | vaultSigned hr _ =>
      have h := hs.active (valid_phase hr)
      exact .update (hs.follows rfl rfl rfl) (storable_of_same_parts h rfl rfl rfl rfl rfl h.keys)
        rfl rfl rfl
  | reported hp _ _ _ _ =>
      have h := hs.active hp
      exact faithful_commit hs (storable_of_same_parts h rfl rfl rfl rfl rfl h.keys)
  | passwordChanged hp _ hk =>
      have h := hs.active hp
      exact faithful_commit hs (storable_of_same_parts h rfl rfl rfl rfl rfl
        (ProtectedKeys.storable_changePassword hk h.keys))
  | biometryRemoved hp =>
      have h := hs.active hp
      refine faithful_commit hs (storable_of_same_parts h rfl rfl rfl rfl rfl ?_)
      exact ⟨h.keys.possession, h.keys.knowledge, by simp, h.keys.transport⟩
  | externalAdded hp _ hk =>
      have h := hs.active hp
      exact .update (hs.follows rfl rfl rfl) (storable_of_same_parts h rfl rfl rfl rfl rfl
        (ProtectedKeys.storable_addExternal hk h.keys)) rfl rfl rfl
  | externalRemoved hp _ _ hk =>
      have h := hs.active hp
      exact .update (hs.follows rfl rfl rfl) (storable_of_same_parts h rfl rfl rfl rfl rfl
        (ProtectedKeys.storable_removeExternal hk h.keys)) rfl rfl rfl
  | upgradeStarted hr _ _ =>
      have h := hs.active (valid_phase hr)
      exact faithful_commit hs (storable_of_same_parts h rfl rfl rfl rfl rfl h.keys)
  | upgradeApplied hr _ _ _ =>
      have h := hs.active (valid_phase hr)
      exact faithful_commit hs (storable_of_same_parts h rfl rfl rfl rfl rfl h.keys)
  | upgradeFinished hr _ _ =>
      have h := hs.active (valid_phase hr)
      exact faithful_commit hs (storable_of_same_parts h rfl rfl rfl rfl rfl h.keys)
  | biometryAdded hr _ _ _ _ _ _ _ hlocked =>
      have h := hs.active (valid_phase hr)
      refine .update (hs.follows rfl rfl rfl) (storable_of_same_parts h rfl rfl rfl rfl rfl ?_)
        rfl rfl rfl
      refine ⟨h.keys.possession, h.keys.knowledge, ?_, h.keys.transport⟩
      intro b hb
      cases hb
      exact ProtectedKeys.short_of_length (ProtectedKeys.length_lockBiometry hlocked)

theorem plan_faithful {s : Session} (op : Operation) (hs : s.Sound)
    (hop : ∀ blob, op ≠ .deserialize blob) : (op.plan s).Faithful s :=
  faithful_of_effect (plan_effect s op) hs hop

end DeviceAuth.Session
