import DeviceAuth.Proofs.Session.Sign
import DeviceAuth.World

namespace DeviceAuth.Session

open Activation

variable {σ α γ : Type} {s t : Session} {op : Operation}

theorem hasValidActivation_iff : s.hasValidActivation = true ↔ ∃ r, s.valid = .ok r := by
  simp only [valid_eq_ok, hasValidActivation, status, beq_iff_eq]
  cases s.phase with
  | active r => cases hr : r.health <;> simp [Health.status, hr]
  | _ => simp

theorem hasValidActivation_of_error {why : Failure} (h : s.valid = .error why) :
    s.hasValidActivation = false := by
  refine Bool.eq_false_iff.mpr fun hvalid => ?_
  obtain ⟨r, hr⟩ := hasValidActivation_iff.mp hvalid
  rw [h] at hr
  cases hr

def Operation.abandons (s : Session) : Operation → Bool
  | .validate .. => s.hasPendingActivation
  | .deserialize _ => true
  | _ => false

def Operation.forgets (s : Session) : Operation → Bool
  | .unlockVault _ | .deriveVault .. | .signDevice .. | .recovery _ => s.hasValidActivation
  | .addBiometry request => request.unlock.requireBiometry.isOk && s.hasValidActivation
  | .deserialize _ => true
  | _ => false

def left (s : Session) (op : Operation) : Session :=
  { s with
    phase := if op.abandons s then .empty else s.phase
    vaultToken := if op.forgets s then none else s.vaultToken }

inductive Plan.FailsTo (t : Session) : Plan α → Prop
  | refuse (why : Failure) : FailsTo t (.refuse t why)
  | keep (after : Session) (a : α) : FailsTo t (.keep after a)
  | write (change : Change) (after : Session) (a : α) : FailsTo t (.write t change after a)

theorem Plan.FailsTo.map {β : Type} {plan : Plan α} (h : plan.FailsTo t) (f : α → β) :
    (plan.map f).FailsTo t := by
  cases h with
  | refuse why => exact .refuse why
  | keep after a => exact .keep after (f a)
  | write change after a => exact .write change after (f a)

theorem failsTo_of_effect {plan : Plan Answer} (h : Effect s op plan)
    (hvalidate : ∀ response unlock draws, op ≠ .validate response unlock draws)
    (hdeserialize : ∀ blob, op ≠ .deserialize blob) (hvault : op.vaultRequest? = none) :
    plan.FailsTo s := by
  cases h with
  | refused _ why => exact .refuse why
  | ended _ _ _ => exact absurd rfl (hvalidate _ _ _)
  | unreadable _ _ => exact absurd rfl (hdeserialize _)
  | spent _ hrequest _ =>
      rw [hvault] at hrequest
      cases hrequest
  | biometryAdded _ _ _ _ _ _ _ _ _ => cases hvault
  | _ => first | exact .keep _ _ | exact .write _ _ _

theorem validate_failsTo (response : Cryptogram) (unlock : UnlockKeys) (draws : ValidationDraws) :
    (s.validate response unlock draws).FailsTo (s.left (.validate response unlock draws)) := by
  obtain ⟨setup, config, masterKey, externalKey, phase, vaultToken, stale⟩ := s
  cases phase with
  | started pending =>
      refine Plan.orRefuse_bind (P := Plan.FailsTo _) .refuse fun plain _ => ?_
      refine Plan.orRefuse_bind (P := Plan.FailsTo _) .refuse fun answered _ => ?_
      refine Plan.orRefuse_bind (P := Plan.FailsTo _) .refuse fun r _ => ?_
      exact .keep _ _
  | _ => exact .refuse _

theorem deserialize_failsTo (blob : Bytes) :
    (s.deserialize blob).FailsTo (s.left (.deserialize blob)) := by
  unfold deserialize
  dsimp only
  split
  next => exact .keep _ _
  next => exact .refuse _

section Vault

variable {request : VaultRequest} {use : Session → Record → Key → Except Failure (Plan α)}

theorem withVault_failsTo
    (huse : ∀ r vaultKey, (Plan.orRefuse { s with vaultToken := none }
      (use { s with vaultToken := none } r vaultKey)).FailsTo { s with vaultToken := none }) :
    (s.withVault request use).FailsTo
      { s with vaultToken := if s.hasValidActivation then none else s.vaultToken } := by
  cases hvalid : s.valid with
  | error why =>
      rw [withVault, hvalid, hasValidActivation_of_error hvalid]
      exact .refuse why
  | ok r =>
      rw [withVault, hvalid, if_pos (hasValidActivation_iff.mpr ⟨r, hvalid⟩)]
      dsimp only
      split
      next =>
        exact Plan.orRefuse_bind (P := Plan.FailsTo _) .refuse fun vaultKey _ => huse r vaultKey
      next => exact .refuse _

theorem signDevice_failsTo (data : Bytes) :
    (s.signDevice request data).FailsTo (s.left (.signDevice request data)) := by
  refine withVault_failsTo fun r vaultKey => ?_
  refine Plan.orRefuse_bind (P := Plan.FailsTo _) .refuse fun key _ => ?_
  refine Plan.orRefuse_bind (P := Plan.FailsTo _) .refuse fun signature _ => ?_
  exact .keep _ _

theorem recovery_failsTo : (s.recovery request).FailsTo (s.left (.recovery request)) := by
  have hleft : s.left (.recovery request) =
      { s with vaultToken := if s.hasValidActivation then none else s.vaultToken } := rfl
  rw [hleft]
  cases hvalid : s.valid with
  | error why =>
      rw [recovery, hvalid, hasValidActivation_of_error hvalid]
      exact .refuse why
  | ok r =>
      rw [recovery, hvalid]
      cases hissued : r.sealedRecovery with
      | none =>
          rw [if_pos (hasValidActivation_iff.mpr ⟨r, hvalid⟩)]
          simp only [hissued]
          exact .refuse _
      | some sealedRecovery =>
          simp only [hissued]
          refine withVault_failsTo fun r vaultKey => ?_
          exact Plan.orRefuse_bind (P := Plan.FailsTo _) .refuse fun answer _ => .keep _ _

theorem addBiometry_failsTo : (s.addBiometry request).FailsTo (s.left (.addBiometry request)) := by
  have hleft : s.left (.addBiometry request) = { s with
      vaultToken := if request.unlock.requireBiometry.isOk && s.hasValidActivation then none
        else s.vaultToken } := rfl
  rw [hleft, addBiometry]
  cases hunlock : request.unlock.requireBiometry with
  | error why => exact .refuse why
  | ok unlockKey =>
      refine withVault_failsTo fun r vaultKey => ?_
      refine Plan.orRefuse_bind (P := Plan.FailsTo _) .refuse fun privateKey _ => ?_
      refine Plan.orRefuse_bind (P := Plan.FailsTo _) .refuse fun serverKey _ => ?_
      refine Plan.orRefuse_guard (P := Plan.FailsTo _) .refuse fun _ => ?_
      refine Plan.orRefuse_bind (P := Plan.FailsTo _) .refuse fun external _ => ?_
      refine Plan.orRefuse_bind (P := Plan.FailsTo _) .refuse fun locked _ => ?_
      exact .write _ _ _

end Vault

theorem plan_failsTo (op : Operation) (s : Session) : (op.plan s).FailsTo (s.left op) := by
  cases op with
  | validate response unlock draws => exact (validate_failsTo response unlock draws).map _
  | deserialize blob => exact (deserialize_failsTo blob).map _
  | unlockVault request => exact (withVault_failsTo fun _ _ => .keep _ _).map _
  | deriveVault request index => exact (withVault_failsTo fun _ _ => .keep _ _).map _
  | signDevice request data => exact (signDevice_failsTo data).map _
  | recovery request => exact recovery_failsTo.map _
  | addBiometry request => exact addBiometry_failsTo.map _
  | _ => exact failsTo_of_effect (plan_effect s _) nofun nofun rfl

def StoreActions.Steady (store : StoreActions σ) (view : σ → γ) : Prop :=
  ∀ (change : Change) name w why w', change.apply store name w = (.error why, w') →
    view w' = view w

section Run

variable {host : Host σ} {view : σ → γ} {w : σ} {why : Failure}

theorem perform_error {store : StoreActions σ} {plan : Plan α} {name : String}
    (hplan : plan.FailsTo t) (hsteady : store.Steady view)
    (h : (plan.perform store name w).answer = .error why) :
    view (plan.perform store name w).state = view w ∧
      (plan.perform store name w).modified = false ∧ (plan.perform store name w).session = t := by
  cases hplan with
  | refuse _ => exact ⟨rfl, rfl, rfl⟩
  | keep _ _ => cases h
  | write change after a =>
      rw [Plan.perform] at h ⊢
      split
      next w' happly =>
        rw [happly] at h
        cases h
      next why' w' happly => exact ⟨hsteady change name w why' w' happly, rfl, rfl⟩

theorem run_lockless (hlock : host.lock = none) (hrefusal : op.refusal? = none) (s : Session)
    (w : σ) : s.run host op w = (op.plan s).perform host.store s.storageName w := by
  simp only [run, hrefusal, exclusive, overwriting, hlock]
  split <;> rfl

theorem left_of_refusal (h : op.refusal? = some why) : s.left op = s := by
  cases op with
  | signVault request factors unlock nonce token => rfl
  | _ => cases h

theorem run_error (hlock : host.lock = none) (hsteady : host.store.Steady view)
    (h : (s.run host op w).answer = .error why) :
    view (s.run host op w).state = view w ∧ (s.run host op w).modified = false ∧
      (s.run host op w).session = s.left op := by
  cases hrefusal : op.refusal? with
  | some why' =>
      have hrun : s.run host op w = ⟨.error why', s, false, w⟩ := by
        simp only [run, hrefusal]
      rw [hrun, left_of_refusal hrefusal]
      exact ⟨rfl, rfl, rfl⟩
  | none =>
      rw [run_lockless hlock hrefusal] at h ⊢
      exact perform_error (plan_failsTo op s) hsteady h

theorem vaultRequest_of_forgets (habandons : op.abandons s = false)
    (hforgets : op.forgets s = true) :
    (∃ request, op.vaultRequest? = some request) ∧ s.hasValidActivation = true := by
  cases op with
  | addBiometry request => exact ⟨⟨request, rfl⟩, (Bool.and_eq_true_iff.mp hforgets).2⟩
  | deserialize blob => cases habandons
  | _ => first | exact ⟨⟨_, rfl⟩, hforgets⟩ | cases hforgets

theorem left_cases (s : Session) (op : Operation) :
    s.left op = s ∨
    s.left op = { s with vaultToken := none } ∧ (∃ request, op.vaultRequest? = some request) ∧
      s.hasValidActivation = true ∨
    s.left op = { s with phase := .empty } ∧
      (∃ response unlock draws, op = .validate response unlock draws) ∧
      s.hasPendingActivation = true ∨
    s.left op = { s with phase := .empty, vaultToken := none } ∧ ∃ blob, op = .deserialize blob := by
  cases habandons : op.abandons s with
  | false =>
      cases hforgets : op.forgets s with
      | false => exact .inl (by simp [left, habandons, hforgets])
      | true =>
          have hvault := vaultRequest_of_forgets habandons hforgets
          exact .inr (.inl ⟨by simp [left, habandons, hforgets], hvault⟩)
  | true =>
      cases op with
      | validate response unlock draws =>
          have hleft : s.left (.validate response unlock draws) = { s with phase := .empty } := by
            simp [left, habandons, Operation.forgets]
          exact .inr (.inr (.inl ⟨hleft, ⟨response, unlock, draws, rfl⟩, habandons⟩))
      | deserialize blob => exact .inr (.inr (.inr ⟨rfl, blob, rfl⟩))
      | _ => cases habandons

theorem failure_leaves_state (hlock : host.lock = none) (hsteady : host.store.Steady view)
    (h : (s.run host op w).answer = .error why) :
    let o := s.run host op w
    view o.state = view w ∧ o.modified = false ∧ o.session = s.left op ∧
    (o.session = s ∨
      o.session = { s with vaultToken := none } ∧ (∃ request, op.vaultRequest? = some request) ∧
        s.hasValidActivation = true ∨
      o.session = { s with phase := .empty } ∧
        (∃ response unlock draws, op = .validate response unlock draws) ∧
        s.hasPendingActivation = true ∨
      o.session = { s with phase := .empty, vaultToken := none } ∧ ∃ blob, op = .deserialize blob) ∧
    (∀ response unlock draws, op = .validate response unlock draws →
      s.hasPendingActivation = true →
      o.session.status = .noActivation ∧ o.session.hasPendingActivation = false) ∧
    (∀ blob, op = .deserialize blob →
      o.session.status = .noActivation ∧ o.session.vaultToken = none) ∧
    (op = .confirm → s.status = .pendingCommit → o.session.status = .pendingCommit) := by
  obtain ⟨hview, hmodified, hsession⟩ := run_error hlock hsteady h
  dsimp only
  rw [hsession]
  refine ⟨hview, hmodified, rfl, left_cases s op, ?_, ?_, ?_⟩
  · rintro response unlock draws rfl hstarted
    have habandons : Operation.abandons s (.validate response unlock draws) = true := hstarted
    simp only [left, habandons, if_true, status, hasPendingActivation, and_self]
  · rintro blob rfl
    exact ⟨rfl, rfl⟩
  · rintro rfl hpending
    exact hpending

theorem steady_storeActions (name : String) : (Site.storeActions name).Steady id := by
  intro change key w why w' h
  have hchange {changed : Except StoreFault Store}
      (h : w.changeStore name changed = (.error why, w')) : w' = w := by
    cases changed with
    | ok s => cases h
    | error fault =>
        cases h
        rfl
  cases change with
  | save status => exact hchange h
  | remove => exact hchange h

theorem pending_after_refused_write :
    let host : Host Site := ⟨Site.storeActions "main", none⟩
    let site : Site := { stores := Registry.empty.set "main" { writesFail := true } }
    let s : Session := { sampleSession with phase := .pendingCommit (signerRecord (.numeric 0) .valid) }
    (s.run host .confirm site).answer = .error (.store .write) ∧
      (s.run host .confirm site).state = site ∧
      (s.run host .confirm site).session.status = .pendingCommit := by
  intro host site s
  have hanswer : (s.run host .confirm site).answer = .error (.store .write) := by rfl
  obtain ⟨hstate, -, -, -, -, -, hpending⟩ :=
    failure_leaves_state rfl (steady_storeActions "main") hanswer
  exact ⟨hanswer, hstate, hpending rfl rfl⟩

end Run

end DeviceAuth.Session
