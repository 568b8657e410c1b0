import DeviceAuth.Proofs.Session.Course
import DeviceAuth.Session.Encryptor

namespace DeviceAuth

namespace Activation.StoredStatus

theorem eq_encode_of_removed {blob : Option Bytes} (h : ofBlob blob = .ok .removed) :
    blob = some (encode .removed) := by
  cases blob with
  | none => cases h
  | some b => exact congrArg some (eq_encode_of_decode_removed h)

end Activation.StoredStatus

namespace Session

open Activation

variable {σ α : Type} {host : Host σ} {store : StoreActions σ} {view : String → σ → Option Bytes}
  {s t : Session} {op : Operation} {w v : σ} {past : List (Step σ)} {r : Record} {name : String}
  {plan : Plan Answer}

inductive Transition (s : Session) : Operation → Answer → Status → Status → Prop
  | validated {response unlock draws a} :
      s.hasPendingActivation = true →
      Transition s (.validate response unlock draws) (.activated a) .noActivation .pendingCommit
  | confirmed : Transition s .confirm .done .pendingCommit .valid
  | reported {encrypted unlock report} (before after : Health) :
      Transition s (.applyStatus encrypted unlock) (.status report) before.status after.status
  | removed {before : Status} :
      before ∈ [Status.pendingCommit, .valid, .blocked, .deadlock] →
      Transition s .remove .done before .removed
  | reportedGone {encrypted unlock} {report : ServerStatus} (before : Health) :
      report.state = .removed →
      Transition s (.applyStatus encrypted unlock) (.status report) before.status .removed
  | cleared (before : Status) : Transition s .reset .done before .noActivation

theorem status_of_active (h : s.phase = .active r) : s.status = r.health.status := by
  rw [status, h]

theorem status_of_idle (h : s.phase = .empty ∨ ∃ pending, s.phase = .started pending) :
    s.status = .noActivation := by
  rw [status]
  rcases h with h | ⟨pending, h⟩ <;> rw [h]

theorem status_of_removable (hempty : s.phase ≠ .empty)
    (hstarted : ∀ pending, s.phase ≠ .started pending) :
    s.status = .removed ∨ s.status ∈ [Status.pendingCommit, .valid, .blocked, .deadlock] := by
  rw [status]
  cases hphase : s.phase with
  | empty => exact absurd hphase hempty
  | started pending => exact absurd hphase (hstarted pending)
  | pendingCommit r => exact .inr (by simp)
  | active r => exact .inr (by cases hr : r.health <;> simp [Health.status, hr])
  | removed => exact .inl rfl

theorem perform_write_cases {P : Outcome σ α → Prop} {before after : Session} {change : Change}
    {a : α} (hrefused : ∀ why w', P ⟨.error why, before, false, w'⟩)
    (htaken : ∀ w', P ⟨.ok a, after, true, w'⟩) :
    P ((Plan.write before change after a).perform store name w) := by
  rw [Plan.perform]
  split
  next => exact htaken _
  next => exact hrefused _ _

theorem answer_of_write {before after : Session} {change : Change} {a b : α}
    (h : ((Plan.write before change after a).perform store name w).answer = .ok b) : b = a := by
  rw [Plan.perform] at h
  split at h <;> cases h
  rfl

def Moves (s : Session) (op : Operation) (o : Outcome σ Answer) : Prop :=
  o.session.status = s.status ∨
    ∃ a, o.answer = .ok a ∧ Transition s op a s.status o.session.status

theorem moves_of_effect (h : Effect s op plan) (hfresh : s.phase.Fresh)
    (hop : ∀ blob, op ≠ .deserialize blob) : Moves s op (plan.perform store name w) := by
  -- what keeps an activation keeps its health
  have hkept {before after : Session} {change : Change} {a : Answer} {r : Record}
      (hr : s.phase = .active r) (hbefore : before.phase = s.phase)
      (hafter : ∃ r', after.phase = .active r' ∧ r'.health = r.health) :
      Moves s op ((Plan.write before change after a).perform store name w) := by
    refine perform_write_cases (fun _ _ => .inl ?_) fun _ => .inl ?_
    · rw [status, hbefore, status]
    · obtain ⟨r', hphase, hhealth⟩ := hafter
      rw [status_of_active hphase, status_of_active hr, hhealth]
  cases h with
  | refused _ _ | spent _ _ _ | alreadyConfirmed _ | noBiometry _ _ | sameHealth _ _ _ _ | sameKey _
  | givenKey _ _ | opened _ _ _ _ _ => exact .inl rfl
  | unreadable _ _ | loaded _ => exact absurd rfl (hop _)
  | ended pending _ hp => exact .inl (status_of_idle (.inr ⟨pending, hp⟩)).symm
  | started hp _ _ => exact .inl (status_of_idle hp).symm
  | validated hp _ _ _ =>
      refine .inr ⟨_, rfl, ?_⟩
      rw [status_of_idle (.inr ⟨_, hp⟩)]
      exact .validated (by rw [hasPendingActivation, hp])
  | @confirmed r hp =>
      refine perform_write_cases (fun _ _ => .inl rfl) fun _ => .inr ⟨_, rfl, ?_⟩
      have hbefore : s.status = .pendingCommit := by rw [status, hp]
      have hafter : r.health.status = .valid := by rw [(hfresh r hp).1]; rfl
      rw [hbefore, status_of_active rfl, hafter]
      exact .confirmed
  | discarded hempty hstarted =>
      refine perform_write_cases (fun _ _ => .inl rfl) fun _ => ?_
      rcases status_of_removable hempty hstarted with hgone | hbefore
      · exact .inl hgone.symm
      · exact .inr ⟨_, rfl, .removed hbefore⟩
  | reportedGone hp _ _ hgone =>
      refine perform_write_cases (fun _ _ => .inl rfl) fun _ => .inr ⟨_, rfl, ?_⟩
      rw [status_of_active hp]
      exact .reportedGone _ hgone
  | cleared => exact perform_write_cases (fun _ _ => .inl rfl) fun _ => .inr ⟨_, rfl, .cleared _⟩
  | reported hp _ _ _ _ =>
      refine perform_write_cases (fun _ _ => .inl rfl) fun _ => .inr ⟨_, rfl, ?_⟩
      rw [status_of_active hp, status_of_active rfl]
      exact .reported _ _
  | signed hr _ | vaultSigned hr _ | upgradeStarted hr _ _ | upgradeApplied hr _ _ _
  | upgradeFinished hr _ _ => exact hkept (valid_phase hr) rfl ⟨_, rfl, rfl⟩
  | biometryAdded hr _ _ _ _ _ _ _ _ => exact hkept (valid_phase hr) rfl ⟨_, rfl, rfl⟩
  | passwordChanged hp _ _ | biometryRemoved hp | externalAdded hp _ _ | externalRemoved hp _ _ _ =>
      exact hkept hp rfl ⟨_, rfl, rfl⟩

theorem moves_run (hlock : host.lock = none) (hfresh : s.phase.Fresh)
    (hop : ∀ blob, op ≠ .deserialize blob) : Moves s op (s.run host op w) := by
  rcases run_lockless_cases hlock op s w with ⟨why, hrun, -⟩ | ⟨hrun, -⟩
  · rw [hrun]
    exact .inl rfl
  · rw [hrun]
    exact moves_of_effect (plan_effect s op) hfresh hop

section Removed

theorem valid_ne_of_removed (hs : s.phase = .removed) : s.valid ≠ .ok r := by
  intro h
  have hactive := valid_phase h
  rw [hs] at hactive
  cases hactive

theorem gone_of_effect (h : Effect s op plan) (hs : s.phase = .removed)
    (hop : ∀ blob, op ≠ .deserialize blob) :
    (op ≠ .reset → (plan.perform store name w).session.phase = .removed) ∧
      ∀ a, (plan.perform store name w).answer = .ok a → a = .done := by
  have hother {phase : Phase} (hphase : s.phase = phase) (hne : phase ≠ .removed) : False :=
    hne (hphase.symm.trans hs)
  cases h with
  | refused _ _ => exact ⟨fun _ => hs, fun _ ha => by cases ha⟩
  | spent _ _ hr => exact absurd hr (valid_ne_of_removed hs)
  | opened _ _ hr _ _ => exact absurd hr (valid_ne_of_removed hs)
  | alreadyConfirmed hr => exact absurd hr (valid_ne_of_removed hs)
  | unreadable _ _ | loaded _ => exact absurd rfl (hop _)
  | sameKey _ | givenKey _ _ => exact ⟨fun _ => hs, fun _ ha => by cases ha; rfl⟩
  | started hp _ _ => rcases hp with hp | ⟨_, hp⟩ <;> exact (hother hp (by simp)).elim
  | ended _ _ hp | validated hp _ _ _ | confirmed hp => exact (hother hp (by simp)).elim
  | noBiometry hp _ | sameHealth hp _ _ _ | reportedGone hp _ _ _ | reported hp _ _ _ _
  | passwordChanged hp _ _ | biometryRemoved hp | externalAdded hp _ _ | externalRemoved hp _ _ _ =>
      exact (hother hp (by simp)).elim
  | signed hr _ | vaultSigned hr _ | upgradeStarted hr _ _ | upgradeApplied hr _ _ _
  | upgradeFinished hr _ _ => exact absurd hr (valid_ne_of_removed hs)
  | biometryAdded hr _ _ _ _ _ _ _ _ => exact absurd hr (valid_ne_of_removed hs)
  | discarded _ _ =>
      refine ⟨fun _ => ?_, fun _ => answer_of_write⟩
      exact Plan.session_of_write (P := fun t => t.phase = .removed) hs rfl
  | cleared => exact ⟨fun hreset => absurd rfl hreset, fun _ => answer_of_write⟩

theorem gone_run (hlock : host.lock = none) (hs : s.phase = .removed)
    (hop : ∀ blob, op ≠ .deserialize blob) :
    (op ≠ .reset → (s.run host op w).session.phase = .removed) ∧
      ∀ a, (s.run host op w).answer = .ok a → a = .done := by
  rcases run_lockless_cases hlock op s w with ⟨why, hrun, -⟩ | ⟨hrun, -⟩
  · rw [hrun]
    exact ⟨fun _ => hs, fun _ ha => by cases ha⟩
  · rw [hrun]
    exact gone_of_effect (plan_effect s op) hs hop

structure Gone (host : Host σ) (view : String → σ → Option Bytes) (name : String) (s : Session)
    (w : σ) : Prop where
  status : s.status = .removed
  tombstone : view name w = some StoredStatus.removed.encode
  silent : ∀ op v a, (∀ blob, op ≠ .deserialize blob) → (s.run host op v).answer = .ok a → a = .done
  closed : ∀ unlock info e, s.encryptor .activation unlock info ≠ .ok e

theorem removed_of_status (h : s.status = .removed) : s.phase = .removed := by
  rw [Session.status] at h
  cases hphase : s.phase with
  | active r => cases hr : r.health <;> simp [hphase, hr, Health.status] at h
  | removed => rfl
  | _ => simp [hphase] at h

theorem Attached.gone (hlock : host.lock = none) (h : Attached view s w) (hs : s.phase = .removed) :
    Gone host view s.storageName s w where
  status := by rw [Session.status, hs]
  tombstone := StoredStatus.eq_encode_of_removed (h.removed hs)
  silent op v a hop ha := (gone_run hlock hs hop).2 a ha
  closed unlock info e he := by
    obtain ⟨r, hr, -⟩ := bind_eq_ok.mp he
    exact valid_ne_of_removed hs hr

theorem Course.removed (hlock : host.lock = none) (hshows : host.store.Shows view)
    (h : Course host view s w past t v) (hs : Attached view s w) (hgone : s.phase = .removed)
    (hkept : ∀ e ∈ past, e.op ≠ .reset) : t.phase = .removed := by
  induction h with
  | start => exact hgone
  | perform op _ hop ih =>
      have hbefore := ih fun e he => hkept e (List.mem_append_left _ he)
      exact (gone_run hlock hbefore hop).1 (hkept _ (List.mem_append_right _ List.mem_cons_self))
  | weather v' _ _ ih => exact ih hkept
  | reopen hbefore _ hmade ih =>
      obtain ⟨hattached, -⟩ := hbefore.attached hlock hshows hs
      exact phase_of_reopened hshows (hattached.removed (ih hkept)) hmade

end Removed

theorem status_lifecycle (hlock : host.lock = none) :
    (∀ past s op w, History host past s → (∀ blob, op ≠ .deserialize blob) →
      (s.run host op w).session.status ≠ s.status →
      ∃ a, (s.run host op w).answer = .ok a ∧
        Transition s op a s.status (s.run host op w).session.status) ∧
    ∀ view s₀ w₀ past s w later t v, host.store.Shows view → Begins host s₀ w₀ →
      Course host view s₀ w₀ past s w → s.status = .removed →
      Course host view s w later t v → (∀ e ∈ later, e.op ≠ .reset) →
      Gone host view s.storageName t v := by
  refine ⟨fun past s op w hpast hop hchange => ?_, ?_⟩
  · rcases moves_run hlock (fresh_of_history hpast) hop with hsame | hmoves
    · exact absurd hsame hchange
    · exact hmoves
  · intro view s₀ w₀ past s w later t v hshows hbegins hpast hstatus hlater hkept
    obtain ⟨hattached, -⟩ := hpast.attached hlock hshows (hbegins.attached hshows)
    have hgone := hlater.removed hlock hshows hattached (removed_of_status hstatus) hkept
    obtain ⟨hafter, hname⟩ := hlater.attached hlock hshows hattached
    rw [← hname]
    exact hafter.gone hlock hgone

theorem removal_lasts :
    let s : Session := { sampleSession with phase := .active storedRecord }
    let removal := s.run siteHost .remove (sampleSite (.activated storedRecord) false)
    let again := removal.session.run siteHost .remove (sampleSite .removed true)
    Transition s .remove .done .valid removal.session.status ∧
      again.answer = .error (.store .write) ∧
      Gone siteHost siteView removal.session.storageName again.session again.state := by
  intro s removal again
  have hstorable := StoredStatus.storable_activated.mpr storable_storedRecord
  have hresumed := resume_sampleSite hstorable false
  have hpast : History siteHost [] s := .resumed hresumed
  have hbegins : Begins siteHost s (sampleSite (.activated storedRecord) false) :=
    .opened (sampleSite (.activated storedRecord) false) hresumed
  obtain ⟨hmoves, hlasts⟩ := status_lifecycle (rfl : siteHost.lock = none)
  have hremoved := Course.perform .remove
    (.start : Course siteHost siteView s (sampleSite (.activated storedRecord) false) [] s _)
    (by simp)
  have hgone := hlasts siteView s _ _ removal.session removal.state [] _ _ shows_siteHost hbegins
    hremoved rfl .start (by simp)
  have hname : s.storageName = sampleSession.storageName := storageName_with_phase sampleSession _
  have hkept : removal.session.storageName = s.storageName :=
    (hremoved.attached rfl shows_siteHost (hbegins.attached shows_siteHost)).2
  have hsame : siteView removal.session.storageName (sampleSite .removed true) =
      siteView removal.session.storageName removal.state := by
    rw [hgone.tombstone, hkept, hname, view_sampleSite]
  have hlater := Course.perform .remove (.weather (sampleSite .removed true)
    (.start : Course siteHost siteView removal.session removal.state [] _ _) hsame) (by simp)
  have hbefore : s.status = .valid := rfl
  have hafter : removal.session.status = .removed := rfl
  obtain ⟨a, hanswer, htransition⟩ := hmoves [] s .remove
    (sampleSite (.activated storedRecord) false) hpast (by simp) fun hsame => by
      cases hbefore.symm.trans (hsame.symm.trans hafter)
  cases hanswer
  refine ⟨htransition, rfl, ?_⟩
  exact hlasts siteView s _ _ removal.session removal.state _ again.session again.state
    shows_siteHost hbegins hremoved rfl hlater (by simp)

end Session

end DeviceAuth
