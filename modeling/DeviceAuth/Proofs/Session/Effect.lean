import DeviceAuth.Proofs.Except
import DeviceAuth.Session.Operation

namespace DeviceAuth.Session

open Activation

variable {α β : Type}

theorem committed_eq_ok {s : Session} {r : Record} : s.committed = .ok r ↔ s.phase = .active r := by
  unfold committed
  split
  next r' h => simp [h]
  next h =>
    constructor
    · intro he
      cases he
    · intro hp
      exact absurd hp (h r)

theorem valid_eq_ok {s : Session} {r : Record} :
    s.valid = .ok r ↔ s.phase = .active r ∧ r.health = .valid := by
  unfold valid
  split
  next r' h =>
    split
    next hv =>
      constructor
      · intro he
        cases he
        exact ⟨h, hv⟩
      · rintro ⟨hp, -⟩
        rw [h] at hp
        cases hp
        rfl
    next hv =>
      constructor
      · intro he
        cases he
      · rintro ⟨hp, hr⟩
        rw [h] at hp
        cases hp
        exact absurd hr hv
  next h =>
    constructor
    · intro he
      cases he
    · rintro ⟨hp, -⟩
      exact absurd hp (h r)

namespace Plan

variable {P : Plan α → Prop} {s : Session}

theorem orRefuse_bind {x : Except Failure β} {f : β → Except Failure (Plan α)}
    (hr : ∀ why, P (.refuse s why)) (hk : ∀ b, x = .ok b → P (.orRefuse s (f b))) :
    P (.orRefuse s (x >>= f)) := by
  cases x with
  | error why => exact hr why
  | ok b => exact hk b rfl

theorem orRefuse_guard {c : Prop} [Decidable c] {why : Failure}
    {f : Unit → Except Failure (Plan α)} (hr : ∀ why, P (.refuse s why))
    (hk : ¬c → P (.orRefuse s (f ()))) :
    P (.orRefuse s (if c then throw why >>= f else f ())) := by
  split
  next => exact hr why
  next h => exact hk h

end Plan

def Operation.vaultRequest? : Operation → Option VaultRequest
  | .unlockVault request | .deriveVault request _ | .signDevice request _ | .recovery request
  | .addBiometry request => some request
  | _ => none

inductive Effect (s : Session) : Operation → Plan Answer → Prop
  | refused (op : Operation) (why : Failure) : Effect s op (.refuse s why)
  | ended {response unlock draws} (pending : Pending) (why : Failure) :
      s.phase = .started pending →
      Effect s (.validate response unlock draws) (.refuse { s with phase := .empty } why)
  | spent {op : Operation} {request : VaultRequest} {r : Record} (why : Failure) :
      op.vaultRequest? = some request → s.valid = .ok r →
      Effect s op (.refuse { s with vaultToken := none } why)
  | unreadable {blob} (why : Failure) :
      StoredStatus.decode blob = .error why →
      Effect s (.deserialize blob) (.refuse { s with vaultToken := none, phase := .empty } why)
  | alreadyConfirmed {r : Record} : s.valid = .ok r → Effect s .confirm (.keep s .done)
  | noBiometry {r : Record} :
      s.phase = .active r → r.keys.biometry = none → Effect s .removeBiometry (.keep s .done)
  | sameHealth {encrypted unlock} {r : Record} {status : ServerStatus} {transport : Key} :
      s.phase = .active r → r.keys.unlockTransport unlock = .ok transport →
      readStatus transport encrypted = .ok status →
      s.healthAfter r status transport = some r.health →
      Effect s (.applyStatus encrypted unlock) (.keep s (.status status))
  | sameKey {key} : s.externalKey = some key → Effect s (.setExternal key) (.keep s .done)
  | givenKey {key} :
      s.externalKey = none → (∀ r, s.record? = some r → r.external = true) →
      Effect s (.setExternal key) (.keep { s with externalKey := some key } .done)
  | started {code device ephemeral nonce encryptor c} :
      s.phase = .empty ∨ (∃ pending, s.phase = .started pending) →
      s.checkCode code = .ok () →
      (s.applicationEncryptor activationInfo).encryptRequest ephemeral nonce
        (Request.encode ⟨code.map OfferedCode.text, device.publicKey.compressed⟩) =
          (.ok c, encryptor) →
      Effect s (.start code device ephemeral nonce)
        (.keep { s with phase := .started ⟨device, encryptor⟩ } (.cryptogram c))
  | validated {response unlock draws plain} {pending : Pending} {answered : Response} {r : Record} :
      s.phase = .started pending →
      (pending.encryptor.decryptResponse response).1 = .ok plain →
      Response.decode plain = .ok answered →
      s.recordOf pending answered unlock draws = .ok r →
      Effect s (.validate response unlock draws)
        (.keep { s with phase := .pendingCommit r } (.activated ⟨r.id, r.fingerprint⟩))
  | loaded {blob} {status : StoredStatus} :
      StoredStatus.decode blob = .ok status →
      Effect s (.deserialize blob)
        (.keep { s with vaultToken := none, phase := .ofStored status } .done)
  | opened {op : Operation} {request : VaultRequest} {r : Record} {vaultKey : Key} (a : Answer) :
      op.vaultRequest? = some request → s.valid = .ok r → s.proves request.proof = true →
      openVaultKey r request.encryptedKey request.unlock = .ok vaultKey →
      Effect s op (.keep { s with vaultToken := none } a)
  | confirmed {r : Record} :
      s.phase = .pendingCommit r → Effect s .confirm (s.commit r .done)
  | discarded :
      s.phase ≠ .empty → (∀ pending, s.phase ≠ .started pending) →
      Effect s .remove (s.discard .done)
  | reportedGone {encrypted unlock} {r : Record} {status : ServerStatus} {transport : Key} :
      s.phase = .active r → r.keys.unlockTransport unlock = .ok transport →
      readStatus transport encrypted = .ok status → status.state = .removed →
      Effect s (.applyStatus encrypted unlock) (s.discard (.status status))
  | cleared : Effect s .reset (.write s .remove { s with phase := .empty, vaultToken := none } .done)
  | signed {request factors unlock nonce} {r : Record} {g : HttpSignature} :
      s.valid = .ok r → s.signature r request factors unlock nonce = .ok g →
      Effect s (.sign request factors unlock nonce)
        (s.commit { r with counter := r.counter.next } (.signature g))
  | vaultSigned {request factors unlock nonce token} {r : Record} {g : HttpSignature} :
      s.valid = .ok r → s.signature r request factors unlock nonce = .ok g →
      Effect s (.signVault request factors unlock nonce token)
        (.write s (.save (.activated { r with counter := r.counter.next }))
          { s with phase := .active { r with counter := r.counter.next }, vaultToken := some token }
          (.vaultSignature g ⟨token⟩))
  | reported {encrypted unlock} {r : Record} {status : ServerStatus} {transport : Key}
      {health : Health} :
      s.phase = .active r → r.keys.unlockTransport unlock = .ok transport →
      readStatus transport encrypted = .ok status →
      s.healthAfter r status transport = some health → health ≠ r.health →
      Effect s (.applyStatus encrypted unlock) (s.commit { r with health } (.status status))
  | passwordChanged {old new salt} {r : Record} {external : Option Key} {keys : ProtectedKeys} :
      s.phase = .active r → s.externalKeyFor r = .ok external →
      r.keys.changePassword old new external salt = .ok keys →
      Effect s (.changePassword old new salt) (s.commit { r with keys } .done)
  | biometryRemoved {r : Record} :
      s.phase = .active r →
      Effect s .removeBiometry (s.commit { r with keys := { r.keys with biometry := none } } .done)
  | externalAdded {key} {r : Record} {keys : ProtectedKeys} :
      s.phase = .active r → r.external = false → r.keys.addExternal key = (.ok (), keys) →
      Effect s (.addExternal key)
        (.write s (.save (.activated { r with keys, external := true }))
          { s with phase := .active { r with keys, external := true }, externalKey := some key } .done)
  | externalRemoved {key : Key} {r : Record} {keys : ProtectedKeys} :
      s.phase = .active r → r.external = true → s.externalKey = some key →
      r.keys.removeExternal key = (.ok (), keys) →
      Effect s .removeExternal
        (.write s (.save (.activated { r with keys, external := false }))
          { s with phase := .active { r with keys, external := false }, externalKey := none } .done)
  | upgradeStarted {r : Record} :
      s.valid = .ok r → r.pendingUpgrade = none → r.version = .v2 →
      Effect s .upgradeStart (s.commit { r with pendingUpgrade := some .v3 } .done)
  | upgradeApplied {b : Bytes} {seed : Key} {r : Record} :
      s.valid = .ok r → r.pendingUpgrade = some .v3 → r.version = .v2 → b = seed.bytes →
      Effect s (.upgradeApply b) (s.commit { r with counter := .ofSeed seed } .done)
  | upgradeFinished {r : Record} :
      s.valid = .ok r → r.pendingUpgrade.isSome = true → r.version = .v3 →
      Effect s .upgradeFinish (s.commit { r with pendingUpgrade := none } .done)
  | biometryAdded {request : VaultRequest} {r : Record} {unlockKey vaultKey : Key}
      {privateKey : P256.PrivateKey} {serverKey : P256.PublicKey} {external : Option Key}
      {locked : Bytes} :
      s.valid = .ok r → s.proves request.proof = true →
      request.unlock.requireBiometry = .ok unlockKey →
      openVaultKey r request.encryptedKey request.unlock = .ok vaultKey →
      openPrivateKey r vaultKey = .ok privateKey →
      P256.PublicKey.ofBytes r.serverKey = .ok serverKey →
      (DerivedKeys.ofSecret (privateKey.agree serverKey).bytes).vault = vaultKey →
      s.externalKeyFor r = .ok external →
      ProtectedKeys.lockBiometry (DerivedKeys.ofSecret (privateKey.agree serverKey).bytes).biometry
        unlockKey external = .ok locked →
      Effect s (.addBiometry request)
        (.write { s with vaultToken := none }
          (.save (.activated { r with keys := { r.keys with biometry := some locked } }))
          { s with
            vaultToken := none
            phase := .active { r with keys := { r.keys with biometry := some locked } } } .done)

theorem record?_eq_some {s : Session} {r : Record} :
    s.record? = some r ↔ s.phase = .pendingCommit r ∨ s.phase = .active r := by
  unfold record?
  cases s.phase <;> simp

theorem healthAfter_eq_none {s : Session} {r : Record} {status : ServerStatus} {transport : Key}
    (h : s.healthAfter r status transport = none) : status.state = .removed := by
  unfold healthAfter at h
  split at h
  next hs => exact hs
  all_goals cases h

section Plans

section Steps

variable {s : Session} {op : Operation} {f : α → Answer}

theorem effect_bind {x : Except Failure β} {k : β → Except Failure (Plan α)}
    (hk : ∀ b, x = .ok b → Effect s op ((Plan.orRefuse s (k b)).map f)) :
    Effect s op ((Plan.orRefuse s (x >>= k)).map f) :=
  Plan.orRefuse_bind (P := fun p => Effect s op (p.map f)) (fun why => .refused op why) hk

theorem effect_guard {c : Prop} [Decidable c] {why : Failure}
    {k : Unit → Except Failure (Plan α)}
    (hk : ¬c → Effect s op ((Plan.orRefuse s (k ())).map f)) :
    Effect s op ((Plan.orRefuse s (if c then throw why >>= k else k ())).map f) :=
  Plan.orRefuse_guard (P := fun p => Effect s op (p.map f)) (fun why => .refused op why) hk

variable {request : VaultRequest} {r : Record}

theorem effect_spent_bind {x : Except Failure β} {k : β → Except Failure (Plan α)}
    (hop : op.vaultRequest? = some request) (hr : s.valid = .ok r)
    (hk : ∀ b, x = .ok b →
      Effect s op ((Plan.orRefuse { s with vaultToken := none } (k b)).map f)) :
    Effect s op ((Plan.orRefuse { s with vaultToken := none } (x >>= k)).map f) :=
  Plan.orRefuse_bind (P := fun p => Effect s op (p.map f)) (fun why => .spent why hop hr) hk

theorem effect_spent_guard {c : Prop} [Decidable c] {why : Failure}
    {k : Unit → Except Failure (Plan α)}
    (hop : op.vaultRequest? = some request) (hr : s.valid = .ok r)
    (hk : ¬c → Effect s op ((Plan.orRefuse { s with vaultToken := none } (k ())).map f)) :
    Effect s op ((Plan.orRefuse { s with vaultToken := none }
      (if c then throw why >>= k else k ())).map f) :=
  Plan.orRefuse_guard (P := fun p => Effect s op (p.map f)) (fun why => .spent why hop hr) hk

end Steps

variable (s : Session)

theorem effect_start (code : Option OfferedCode) (device ephemeral : P256.PrivateKey)
    (nonce : Fixed 16) :
    Effect s (.start code device ephemeral nonce)
      ((s.start code device ephemeral nonce).map .cryptogram) := by
  have hrequest (hp : s.phase = .empty ∨ ∃ pending, s.phase = .started pending) :
      Effect s (.start code device ephemeral nonce)
        (Plan.map .cryptogram (.orRefuse s (s.request code device ephemeral nonce))) := by
    unfold request
    refine effect_bind fun _ hcode => ?_
    dsimp only
    cases hseal : (s.applicationEncryptor activationInfo).encryptRequest ephemeral nonce
        (Request.encode ⟨code.map OfferedCode.text, device.publicKey.compressed⟩) with
    | mk answer encryptor =>
        cases answer with
        | error why => exact .refused _ why
        | ok c => exact .started hp hcode hseal
  unfold start
  split
  next h => exact hrequest (.inl h)
  next pending h => exact hrequest (.inr ⟨pending, h⟩)
  next => exact .refused _ _

theorem effect_validate (response : Cryptogram) (unlock : UnlockKeys) (draws : ValidationDraws) :
    Effect s (.validate response unlock draws)
      ((s.validate response unlock draws).map .activated) := by
  unfold validate
  split
  next pending h =>
    refine Plan.orRefuse_bind (P := fun p => Effect s _ (p.map _)) (fun why => .ended pending why h)
      fun plain hplain => ?_
    refine Plan.orRefuse_bind (P := fun p => Effect s _ (p.map _)) (fun why => .ended pending why h)
      fun answered hanswered => ?_
    refine Plan.orRefuse_bind (P := fun p => Effect s _ (p.map _)) (fun why => .ended pending why h)
      fun r hr => ?_
    exact .validated h hplain (mapError_eq_ok.mp hanswered) hr
  next => exact .refused _ _

theorem effect_confirm : Effect s .confirm (s.confirm.map fun _ => .done) := by
  unfold confirm
  split
  next r h => exact .confirmed h
  next r h =>
    split
    next hv => exact .alreadyConfirmed (valid_eq_ok.mpr ⟨h, hv⟩)
    next => exact .refused _ _
  next => exact .refused _ _

theorem effect_remove : Effect s .remove (s.remove.map fun _ => .done) := by
  unfold remove
  split
  next => exact .refused _ _
  next => exact .refused _ _
  next hempty hstarted => exact .discarded hempty hstarted

theorem effect_deserialize (blob : Bytes) :
    Effect s (.deserialize blob) ((s.deserialize blob).map fun _ => .done) := by
  unfold deserialize
  dsimp only
  split
  next status h => exact .loaded h
  next why h => exact .unreadable why h

theorem effect_sign (request : HttpRequest) (factors : FactorSet) (unlock : UnlockKeys)
    (nonce : Fixed 16) :
    Effect s (.sign request factors unlock nonce)
      ((sign request factors unlock nonce s).map .signature) := by
  unfold sign
  refine effect_bind fun r hr => ?_
  refine effect_bind fun g hg => ?_
  exact .signed hr hg

theorem effect_signVault (request : HttpRequest) (factors : FactorSet) (unlock : UnlockKeys)
    (nonce token : Fixed 16) :
    Effect s (.signVault request factors unlock nonce token)
      ((signVault request factors unlock nonce token s).map fun a => .vaultSignature a.1 a.2) := by
  unfold signVault
  refine effect_bind fun r hr => ?_
  refine effect_bind fun g hg => ?_
  exact .vaultSigned hr hg

theorem effect_applyStatus (encrypted : String) (unlock : UnlockKeys) :
    Effect s (.applyStatus encrypted unlock) ((s.applyStatus encrypted unlock).map .status) := by
  unfold applyStatus
  refine effect_bind fun r hr => ?_
  have hp := committed_eq_ok.mp hr
  refine effect_bind fun transport ht => ?_
  refine effect_bind fun status hs => ?_
  split
  next hh => exact .reportedGone hp ht hs (healthAfter_eq_none hh)
  next health hh =>
    split
    next he =>
      subst he
      exact .sameHealth hp ht hs hh
    next he => exact .reported hp ht hs hh he

theorem effect_changePassword (old new : Password) (salt : Fixed 16) :
    Effect s (.changePassword old new salt)
      ((s.changePassword old new salt).map fun _ => .done) := by
  unfold changePassword
  refine effect_bind fun r hr => ?_
  refine effect_bind fun external he => ?_
  refine effect_bind fun keys hk => ?_
  exact .passwordChanged (committed_eq_ok.mp hr) he hk

theorem effect_removeBiometry :
    Effect s .removeBiometry (s.removeBiometry.map fun _ => .done) := by
  unfold removeBiometry
  refine effect_bind fun r hr => ?_
  have hp := committed_eq_ok.mp hr
  dsimp only
  split
  next h => exact .noBiometry hp (Option.isNone_iff_eq_none.mp h)
  next => exact .biometryRemoved hp

theorem effect_setExternal (key : Key) :
    Effect s (.setExternal key) ((s.setExternal key).map fun _ => .done) := by
  unfold setExternal
  split
  next current _ hc =>
    split
    next he =>
      subst he
      exact .sameKey hc
    next => exact .refused _ _
  next r hc hr =>
    split
    next he =>
      refine .givenKey hc fun r' hr' => ?_
      rw [hr] at hr'
      cases hr'
      exact he
    next => exact .refused _ _
  next hc hr =>
    refine .givenKey hc fun r' hr' => ?_
    rw [hr] at hr'
    cases hr'

theorem effect_addExternal (key : Key) :
    Effect s (.addExternal key) ((s.addExternal key).map fun _ => .done) := by
  unfold addExternal
  refine effect_bind fun r hr => ?_
  refine effect_guard fun he => ?_
  cases hk : r.keys.addExternal key with
  | mk layered keys =>
      refine effect_bind fun _ hl => ?_
      subst hl
      exact .externalAdded (committed_eq_ok.mp hr) (Bool.eq_false_iff.mpr he) hk

theorem effect_removeExternal :
    Effect s .removeExternal (s.removeExternal.map fun _ => .done) := by
  unfold removeExternal
  refine effect_bind fun r hr => ?_
  refine effect_guard fun he => ?_
  split
  next => exact .refused _ _
  next key hkey =>
    cases hk : r.keys.removeExternal key with
    | mk layered keys =>
        refine effect_bind fun _ hl => ?_
        subst hl
        exact .externalRemoved (committed_eq_ok.mp hr) (by simpa using he) hkey hk

theorem effect_upgradeStart : Effect s .upgradeStart (s.upgradeStart.map fun _ => .done) := by
  unfold upgradeStart
  refine effect_bind fun r hr => ?_
  refine effect_guard fun hp => ?_
  refine effect_guard fun hv => ?_
  exact .upgradeStarted hr (by simpa using hp) (Decidable.not_not.mp hv)

theorem effect_upgradeApply (seed : Bytes) :
    Effect s (.upgradeApply seed) ((s.upgradeApply seed).map fun _ => .done) := by
  unfold upgradeApply
  refine effect_bind fun r hr => ?_
  refine effect_guard fun hp => ?_
  refine effect_guard fun hv => ?_
  split
  next => exact .refused _ _
  next key hkey =>
    exact .upgradeApplied hr (Decidable.not_not.mp hp) (Decidable.not_not.mp hv)
      (Fixed.ofBytes?_eq_some.mp hkey)

theorem effect_upgradeFinish : Effect s .upgradeFinish (s.upgradeFinish.map fun _ => .done) := by
  unfold upgradeFinish
  refine effect_bind fun r hr => ?_
  refine effect_guard fun hp => ?_
  refine effect_guard fun hv => ?_
  exact .upgradeFinished hr (by simpa [Option.isNone_iff_eq_none, Option.isSome_iff_ne_none] using hp)
    (Decidable.not_not.mp hv)

theorem effect_withVault {op : Operation} {request : VaultRequest} {f : α → Answer}
    {use : Session → Record → Key → Except Failure (Plan α)} (hop : op.vaultRequest? = some request)
    (huse : ∀ r vaultKey, s.valid = .ok r → s.proves request.proof = true →
      openVaultKey r request.encryptedKey request.unlock = .ok vaultKey →
      Effect s op ((Plan.orRefuse { s with vaultToken := none }
        (use { s with vaultToken := none } r vaultKey)).map f)) :
    Effect s op ((s.withVault request use).map f) := by
  unfold withVault
  split
  next => exact .refused _ _
  next r hr =>
    dsimp only
    split
    next hproof =>
      refine effect_spent_bind hop hr fun vaultKey hkey => ?_
      exact huse r vaultKey hr hproof hkey
    next => exact .spent _ hop hr

theorem effect_unlockVault (request : VaultRequest) :
    Effect s (.unlockVault request) ((unlockVault request s).map .key) :=
  effect_withVault s rfl fun _ vaultKey hr hproof hkey => .opened (.key vaultKey) rfl hr hproof hkey

theorem effect_deriveVault (request : VaultRequest) (index : UInt64) :
    Effect s (.deriveVault request index) ((deriveVault request index s).map .key) :=
  effect_withVault s rfl fun _ vaultKey hr hproof hkey =>
    .opened (.key (KeyDerivation.subkey vaultKey.bytes index)) rfl hr hproof hkey

theorem effect_signDevice (request : VaultRequest) (data : Bytes) :
    Effect s (.signDevice request data) ((signDevice request data s).map .bytes) := by
  refine effect_withVault s rfl fun r vaultKey hr hproof hkey => ?_
  refine effect_spent_bind rfl hr fun key _ => ?_
  refine effect_spent_bind rfl hr fun signature _ => ?_
  exact .opened (.bytes signature) rfl hr hproof hkey

theorem effect_recovery (request : VaultRequest) :
    Effect s (.recovery request) ((recovery request s).map .recovery) := by
  unfold recovery
  split
  next => exact .refused _ _
  next r hr =>
    split
    next => exact .spent _ rfl hr
    next sealedRecovery _ =>
      refine effect_withVault s rfl fun r vaultKey hr hproof hkey => ?_
      refine effect_spent_bind rfl hr fun answer _ => ?_
      exact .opened (.recovery answer) rfl hr hproof hkey

theorem effect_addBiometry (request : VaultRequest) :
    Effect s (.addBiometry request) ((addBiometry request s).map fun _ => .done) := by
  unfold addBiometry
  split
  next => exact .refused _ _
  next unlockKey hunlock =>
    refine effect_withVault s rfl fun r vaultKey hr hproof hkey => ?_
    refine effect_spent_bind rfl hr fun privateKey hprivate => ?_
    refine effect_spent_bind rfl hr fun serverKey hserver => ?_
    refine effect_spent_guard rfl hr fun hvault => ?_
    refine effect_spent_bind rfl hr fun external hexternal => ?_
    refine effect_spent_bind rfl hr fun locked hlocked => ?_
    exact .biometryAdded hr hproof hunlock hkey hprivate (lift_eq_ok.mp hserver)
      (Decidable.not_not.mp hvault) hexternal hlocked

theorem plan_effect (op : Operation) : Effect s op (op.plan s) := by
  cases op with
  | start code device ephemeral nonce => exact effect_start s code device ephemeral nonce
  | validate response unlock draws => exact effect_validate s response unlock draws
  | confirm => exact effect_confirm s
  | remove => exact effect_remove s
  | reset => exact .cleared
  | deserialize blob => exact effect_deserialize s blob
  | sign request factors unlock nonce => exact effect_sign s request factors unlock nonce
  | signVault request factors unlock nonce token =>
      exact effect_signVault s request factors unlock nonce token
  | applyStatus encrypted unlock => exact effect_applyStatus s encrypted unlock
  | changePassword old new salt => exact effect_changePassword s old new salt
  | removeBiometry => exact effect_removeBiometry s
  | setExternal key => exact effect_setExternal s key
  | addExternal key => exact effect_addExternal s key
  | removeExternal => exact effect_removeExternal s
  | upgradeStart => exact effect_upgradeStart s
  | upgradeApply seed => exact effect_upgradeApply s seed
  | upgradeFinish => exact effect_upgradeFinish s
  | unlockVault request => exact effect_unlockVault s request
  | deriveVault request index => exact effect_deriveVault s request index
  | signDevice request data => exact effect_signDevice s request data
  | recovery request => exact effect_recovery s request
  | addBiometry request => exact effect_addBiometry s request

end Plans

end DeviceAuth.Session
