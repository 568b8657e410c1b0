import DeviceAuth.Proofs.Sharing.Discipline

namespace DeviceAuth.Session

open Activation

variable {σ α : Type} {host : Host σ} {store : StoreActions σ} {view : String → σ → Option Bytes}
  {s t : Session} {op : Operation} {w v : σ} {past : List (Step σ)} {r : Record}

section Invariants

def Call.alters : Call → Bool
  | .save _ _ _ | .remove _ _ => true
  | _ => false

theorem alters_of_mem_bracketed {changed : Bool} {inner : List Call} {c : Call}
    (h : c ∈ bracketed changed inner) (halters : c.alters = true) : c ∈ inner := by
  simp only [bracketed, List.cons_append, List.mem_cons, List.mem_append, List.not_mem_nil,
    or_false] at h
  rcases h with rfl | h | rfl
  · cases halters
  · exact h
  · cases halters

inductive CarriedOut (host : Host σ) (op : Operation) (s : Session) (o : Outcome σ Answer)
    (calls : List Call) : Prop
  | idle : o.session.phase = s.phase → (∀ c ∈ calls, c.alters = false) →
      CarriedOut host op s o calls
  | carried (t : Session) (v : σ) :
      t.phase = s.phase ∨ (∃ stored, Phase.load stored = .ok t.phase) →
      o.session.phase = ((op.plan t).perform host.store s.storageName v).session.phase →
      (∀ c ∈ calls, c.alters = true → c ∈ (op.plan t).calls host.store s.storageName v) →
      CarriedOut host op s o calls

theorem carriedOut_exclusive {lock : LockActions σ} (hlock : host.lock = some lock) :
    CarriedOut host op s (exclusive host op.plan s w)
      (bracketed (lock.acquire w).1 (s.exclusiveCalls host.store lock op.plan w)) := by
  cases hbehind : (lock.acquire w).1 || s.stale with
  | true =>
      have hcatches := catchesUp_exclusive op hlock hbehind
      generalize s.exclusiveCalls host.store lock op.plan w = inner at hcatches ⊢
      cases hcatches with
      | unread _ _ hsession =>
          refine .idle (by rw [hsession]) fun c hc => Bool.eq_false_iff.mpr fun halters => ?_
          obtain rfl := List.mem_singleton.mp (alters_of_mem_bracketed hc halters)
          cases halters
      | @current phase t p hload ht hp _ hsession =>
          refine .carried t _ (.inr ⟨_, by rw [ht]; exact hload⟩) (by rw [hsession, hp])
            fun c hc halters => ?_
          rcases List.mem_cons.mp (alters_of_mem_bracketed hc halters) with rfl | hc
          · cases halters
          · exact hc
  | false =>
      obtain ⟨hsession, hcalls⟩ := exclusive_current op hlock hbehind
      refine .carried s _ (.inl rfl) (by rw [hsession]) fun c hc halters => ?_
      rw [← hcalls]
      exact alters_of_mem_bracketed hc halters

theorem carriedOut_overwriting {lock : LockActions σ} (hlock : host.lock = some lock) :
    CarriedOut host op s (overwriting host op.plan s w)
      (bracketed (lock.acquire w).1 (s.overwritingCalls host.store lock op.plan w)) := by
  refine .carried { s with stale := s.stale || (lock.acquire w).1 } (lock.acquire w).2 (.inl rfl) ?_
    fun c hc halters => alters_of_mem_bracketed hc halters
  unfold overwriting
  rw [hlock]
  rfl

theorem carriedOut_run (host : Host σ) (op : Operation) (s : Session) (w : σ) :
    CarriedOut host op s (s.run host op w) (s.calls host op w) := by
  cases hrefusal : op.refusal? with
  | some why =>
      rw [run_refused hrefusal, calls_refused hrefusal]
      exact .idle rfl (by simp)
  | none =>
      cases hlock : host.lock with
      | none =>
          rw [run_lockless hlock hrefusal, calls_lockless hlock hrefusal]
          exact .carried s w (.inl rfl) rfl fun _ hc _ => hc
      | some lock =>
          rw [calls_locked hlock hrefusal]
          simp only [run, hrefusal, guardedCalls]
          cases op.access with
          | exclusive => exact carriedOut_exclusive hlock
          | overwriting => exact carriedOut_overwriting hlock
          | unlocked => exact .carried s w (.inl rfl) rfl (by simp)

theorem phase_run {P : Phase → Prop}
    (hread : ∀ stored phase, Phase.load stored = .ok phase → P phase)
    (hperform : ∀ (t : Session) name w, P t.phase →
      P ((op.plan t).perform host.store name w).session.phase)
    (h : P s.phase) : P (s.run host op w).session.phase := by
  cases carriedOut_run host op s w with
  | idle hphase _ =>
      rw [hphase]
      exact h
  | carried t v ht hphase _ =>
      rw [hphase]
      refine hperform t _ v ?_
      rcases ht with ht | ⟨stored, hstored⟩
      · rw [ht]
        exact h
      · exact hread stored _ hstored

theorem phase_of_history {P : Phase → Prop}
    (hread : ∀ stored phase, Phase.load stored = .ok phase → P phase)
    (hperform : ∀ (op : Operation) (t : Session) name w, P t.phase →
      P ((op.plan t).perform host.store name w).session.phase)
    (h : History host past s) : P s.phase := by
  have hofStored (blob : Option Bytes) (status : StoredStatus)
      (hstatus : StoredStatus.ofBlob blob = .ok status) : P (.ofStored status) :=
    hread _ _ (Phase.load_eq_ok.mpr ⟨status, hstatus, rfl⟩)
  induction h with
  | created hmade =>
      rw [(World.storageName_new hmade).2.1]
      exact hofStored none .empty rfl
  | resumed hmade =>
      obtain ⟨-, -, blob, status, -, hstatus, hphase⟩ := World.resume_eq_ok hmade
      rw [hphase]
      exact hofStored blob status hstatus
  | step op w _ ih => exact phase_run hread (hperform op) ih

theorem sound_perform (op : Operation) {name : String} (h : s.Sound) :
    ((op.plan s).perform store name w).session.Sound := by
  by_cases hop : ∃ blob, op = .deserialize blob
  · obtain ⟨blob, rfl⟩ := hop
    have heffect := plan_effect s (.deserialize blob)
    generalize Operation.plan (.deserialize blob) s = plan at heffect ⊢
    cases heffect with
    | refused _ _ => exact h
    | unreadable _ _ => exact sound_of_idle (.inl rfl)
    | loaded hdecode => exact sound_of_ofStored (StoredStatus.storable_of_decode hdecode) rfl
    | spent _ hrequest _ => cases hrequest
    | opened _ hrequest _ _ _ => cases hrequest
  · have hfaithful := plan_faithful op h fun blob hblob => hop ⟨blob, hblob⟩
    generalize op.plan s = plan at hfaithful ⊢
    cases hfaithful with
    | refuse hfollows => exact hfollows.sound
    | keep hfollows => exact hfollows.sound
    | write hbefore _ hafter _ _ _ => exact Plan.session_of_write hbefore.sound hafter

theorem sound_of_load {stored : Except StoreFault (Option Bytes)}
    (h : Phase.load stored = .ok s.phase) : s.Sound := by
  cases stored with
  | error why => cases h
  | ok blob =>
      obtain ⟨status, hstatus, hphase⟩ := Phase.load_eq_ok.mp h
      exact sound_of_ofStored (StoredStatus.storable_of_ofBlob hstatus) hphase

theorem sound_of_history (h : History host past s) : s.Sound := by
  refine phase_of_history (P := fun phase => ∀ t : Session, t.phase = phase → t.Sound)
    (fun stored phase hread t ht => ?_) (fun op t name w hP u hu => ?_) h s rfl
  · exact sound_of_load (ht ▸ hread)
  · exact (sound_perform op (hP t rfl)).of_phase hu

def Phase.Fresh (phase : Phase) : Prop :=
  ∀ r, phase = .pendingCommit r → r.health = .valid ∧ r.pendingUpgrade = none

theorem fresh_of_effect {plan : Plan Answer} {name : String} (h : Effect s op plan)
    (hs : s.phase.Fresh) : (plan.perform store name w).session.phase.Fresh := by
  cases h with
  | refused _ _ | spent _ _ _ | alreadyConfirmed _ | noBiometry _ _ | sameHealth _ _ _ _ | sameKey _
  | givenKey _ _ | opened _ _ _ _ _ => exact hs
  | ended _ _ _ | unreadable _ _ | started _ _ _ =>
      rintro r ⟨⟩
  | @loaded _ status _ =>
      intro r hr
      cases status <;> cases hr
  | validated _ _ _ hr =>
      rintro r' ⟨⟩
      obtain ⟨-, _, _, _, -, -, -, rfl⟩ := recordOf_eq_ok.mp hr
      exact ⟨rfl, rfl⟩
  | _ =>
      refine Plan.session_of_write (P := fun t => t.phase.Fresh) hs ?_
      rintro r' ⟨⟩

theorem fresh_of_history (h : History host past s) : s.phase.Fresh := by
  refine phase_of_history (fun stored phase hread => ?_)
    (fun op t name w hfresh => fresh_of_effect (plan_effect t op) hfresh) h
  cases stored with
  | error why => cases hread
  | ok blob =>
      obtain ⟨status, -, rfl⟩ := Phase.load_eq_ok.mp hread
      intro r hr
      cases status <;> cases hr

end Invariants

-- `view` tells what lies under a name. A store that answers shows it, and only a change that the
-- store has taken alters it.
structure StoreActions.Shows (store : StoreActions σ) (view : String → σ → Option Bytes) :
    Prop where
  told : ∀ name w blob, (store.load name w).1 = .ok blob → blob = view name w
  read : ∀ name w, view name (store.load name w).2 = view name w
  saved : ∀ name data w, (store.save name data w).1 = .ok () →
    view name (store.save name data w).2 = some data
  removed : ∀ name w, (store.remove name w).1 = .ok () → view name (store.remove name w).2 = none
  refused : ∀ name, store.Steady (view name)

inductive Begins (host : Host σ) : Session → σ → Prop
  | created {setup config} {s : Session} (w : σ) :
      Session.new setup config = .ok s → Begins host s w
  | opened {setup config} {s : Session} (w : σ) :
      Session.resume setup config (host.store.load (setup.storageName config) w).1 = .ok s →
      Begins host s (host.store.load (setup.storageName config) w).2

-- What is done from `s` and `w` on, with the operations in order. The store may begin or cease to
-- fail at any point, and the session may be opened again.
inductive Course (host : Host σ) (view : String → σ → Option Bytes) (s : Session) (w : σ) :
    List (Step σ) → Session → σ → Prop
  | start : Course host view s w [] s w
  | perform {past : List (Step σ)} {t : Session} {v : σ} (op : Operation) :
      Course host view s w past t v → (∀ blob, op ≠ .deserialize blob) →
      Course host view s w (past ++ [⟨t, op, v⟩]) (t.run host op v).session (t.run host op v).state
  | weather {past : List (Step σ)} {t : Session} {v : σ} (v' : σ) :
      Course host view s w past t v → view t.storageName v' = view t.storageName v →
      Course host view s w past t v'
  | reopen {past : List (Step σ)} {t u : Session} {v : σ} {setup config} :
      Course host view s w past t v → setup.storageName config = t.storageName →
      Session.resume setup config (host.store.load t.storageName v).1 = .ok u →
      Course host view s w past u (host.store.load t.storageName v).2

structure Attached (view : String → σ → Option Bytes) (s : Session) (w : σ) : Prop where
  sound : s.Sound
  stored : s.phase.stored ≠ .empty →
    StoredStatus.ofBlob (view s.storageName w) = .ok s.phase.stored

theorem attached_of_uncommitted (hs : s.Sound) (h : s.phase.stored = .empty) : Attached view s w :=
  ⟨hs, fun hcommitted => absurd h hcommitted⟩

theorem view_apply (hshows : store.Shows view) (name : String) (change : Change) (w : σ)
    (hstorable : change.status.Storable) :
    (∃ why, (change.apply store name w).1 = .error why ∧
      view name (change.apply store name w).2 = view name w) ∨
    ((change.apply store name w).1 = .ok () ∧
      StoredStatus.ofBlob (view name (change.apply store name w).2) = .ok change.status) := by
  cases hanswer : (change.apply store name w).1 with
  | error why =>
      exact .inl ⟨why, rfl, hshows.refused name change name w why _ (Prod.ext hanswer rfl)⟩
  | ok _ =>
      refine .inr ⟨rfl, ?_⟩
      cases change with
      | save status =>
          rw [Change.apply, hshows.saved _ _ _ hanswer]
          exact StoredStatus.ofBlob_encode hstorable
      | remove =>
          rw [Change.apply, hshows.removed _ _ hanswer]
          rfl

theorem attached_of_follows (h : Attached view s w) (hfollows : Follows s t)
    (hview : view s.storageName v = view s.storageName w) : Attached view t v := by
  refine ⟨hfollows.sound, fun hcommitted => ?_⟩
  rw [hfollows.stored] at hcommitted ⊢
  rw [hfollows.name, hview]
  exact h.stored hcommitted

theorem Attached.perform {plan : Plan α} (h : Attached view s w) (hshows : store.Shows view)
    (hplan : plan.Faithful s) :
    Attached view (plan.perform store s.storageName w).session
        (plan.perform store s.storageName w).state ∧
      (plan.perform store s.storageName w).session.storageName = s.storageName := by
  cases hplan with
  | refuse hfollows => exact ⟨attached_of_follows h hfollows rfl, hfollows.name⟩
  | keep hfollows => exact ⟨attached_of_follows h hfollows rfl, hfollows.name⟩
  | @write before after change a hbefore hstorable hafter hstored hname _ =>
      rw [Plan.perform]
      have hview := view_apply hshows s.storageName change w hstorable
      generalize change.apply store s.storageName w = made at hview ⊢
      obtain ⟨answer, w'⟩ := made
      cases answer with
      | error why =>
          rcases hview with ⟨-, -, hkept⟩ | ⟨hok, -⟩
          · exact ⟨attached_of_follows h hbefore hkept, hbefore.name⟩
          · cases hok
      | ok _ =>
          rcases hview with ⟨why, hwhy, -⟩ | ⟨-, hsaved⟩
          · cases hwhy
          · refine ⟨⟨hafter, fun _ => ?_⟩, hname⟩
            dsimp only
            rw [hname, hstored]
            exact hsaved

theorem Attached.run (h : Attached view s w) (hlock : host.lock = none)
    (hshows : host.store.Shows view) (hop : ∀ blob, op ≠ .deserialize blob) :
    Attached view (s.run host op w).session (s.run host op w).state ∧
      (s.run host op w).session.storageName = s.storageName := by
  rcases run_lockless_cases hlock op s w with ⟨why, hrun, -⟩ | ⟨hrun, -⟩
  · rw [hrun]
    exact ⟨h, rfl⟩
  · rw [hrun]
    exact h.perform hshows (plan_faithful op h.sound hop)

theorem attached_resume {setup : Setup} {config : Config} (hshows : host.store.Shows view)
    (h : Session.resume setup config (host.store.load (setup.storageName config) w).1 = .ok s) :
    Attached view s (host.store.load (setup.storageName config) w).2 ∧
      s.storageName = setup.storageName config := by
  obtain ⟨hname, -, blob, status, hload, hstatus, hphase⟩ := World.resume_eq_ok h
  refine ⟨⟨sound_of_ofStored (StoredStatus.storable_of_ofBlob hstatus) hphase, fun _ => ?_⟩, hname⟩
  rw [hname, hshows.read, ← hshows.told _ _ _ hload, hstatus, hphase, Phase.stored_ofStored]

theorem Attached.activated (h : Attached view s w) (hphase : s.phase = .active r) :
    StoredStatus.ofBlob (view s.storageName w) = .ok (.activated r) := by
  have hstored := h.stored
  rw [hphase] at hstored
  exact hstored (by simp [Phase.stored])

theorem Attached.removed (h : Attached view s w) (hphase : s.phase = .removed) :
    StoredStatus.ofBlob (view s.storageName w) = .ok .removed := by
  have hstored := h.stored
  rw [hphase] at hstored
  exact hstored (by simp [Phase.stored])

theorem phase_of_reopened {setup : Setup} {config : Config} {status : StoredStatus}
    (hshows : host.store.Shows view)
    (hstored : StoredStatus.ofBlob (view s.storageName w) = .ok status)
    (h : Session.resume setup config (host.store.load s.storageName w).1 = .ok t) :
    t.phase = .ofStored status := by
  obtain ⟨-, -, blob, found, hload, hfound, hphase⟩ := World.resume_eq_ok h
  rw [hshows.told _ _ _ hload, hstored] at hfound
  cases hfound
  exact hphase

theorem resume_of_ofBlob {setup : Setup} {config : Config} {blob : Option Bytes}
    {status : StoredStatus} (hnew : Session.new setup config = .ok s)
    (h : StoredStatus.ofBlob blob = .ok status) :
    Session.resume setup config (.ok blob) = .ok { s with phase := .ofStored status } := by
  refine bind_eq_ok.mpr ⟨s, hnew, bind_eq_ok.mpr ⟨blob, rfl, ?_⟩⟩
  cases blob with
  | none =>
      cases h
      have hphase : s.phase = .ofStored .empty := (World.storageName_new hnew).2.1
      rw [← hphase]
      rfl
  | some b => exact bind_eq_ok.mpr ⟨status, h, rfl⟩

theorem Begins.attached (h : Begins host s w) (hshows : host.store.Shows view) :
    Attached view s w := by
  cases h with
  | created _ hmade =>
      have hphase := (World.storageName_new hmade).2.1
      exact attached_of_uncommitted (sound_of_idle (.inl hphase)) (by rw [hphase]; rfl)
  | opened _ hmade => exact (attached_resume hshows hmade).1

theorem Course.attached (hlock : host.lock = none) (hshows : host.store.Shows view)
    (h : Course host view s w past t v) (hs : Attached view s w) :
    Attached view t v ∧ t.storageName = s.storageName := by
  induction h with
  | start => exact ⟨hs, rfl⟩
  | perform op _ hop ih =>
      obtain ⟨hattached, hname⟩ := ih
      obtain ⟨hrun, hsame⟩ := hattached.run hlock hshows hop
      exact ⟨hrun, hsame.trans hname⟩
  | weather v' _ hview ih =>
      refine ⟨⟨ih.1.sound, fun hcommitted => ?_⟩, ih.2⟩
      rw [hview]
      exact ih.1.stored hcommitted
  | reopen _ hsetup hmade ih =>
      rw [← hsetup] at hmade
      obtain ⟨hattached, hname⟩ := attached_resume hshows hmade
      rw [hsetup] at hattached hname
      exact ⟨hattached, hname.trans ih.2⟩

theorem shows_storeActions (store : String) :
    (Site.storeActions store).Shows fun name => Place.blob ⟨store, name⟩ where
  told name w blob h := by
    simp only [Site.storeActions, Store.load] at h
    split at h
    next => cases h
    next => exact (Except.ok.inj h).symm
  read name w := rfl
  saved name data w h := by
    simp only [Site.storeActions, Store.save] at h ⊢
    split at h
    next => cases h
    next hwrites =>
      rw [if_neg hwrites, Site.changeStore, Place.blob_setStore ⟨store, name⟩, Registry.get?_set,
        if_pos rfl]
  removed name w h := by
    simp only [Site.storeActions, Store.remove] at h ⊢
    split at h
    next => cases h
    next hwrites =>
      rw [if_neg hwrites, Site.changeStore, Place.blob_setStore ⟨store, name⟩,
        Registry.get?_erase, if_pos rfl]
  refused name change key w why w' h := by
    have hsame : w' = w := steady_storeActions store change key w why w' h
    rw [hsame]

section Example

def siteHost : Host Site where
  store := Site.storeActions "main"
  lock := none

def siteView (name : String) : Site → Option Bytes :=
  Place.blob ⟨"main", name⟩

theorem shows_siteHost : siteHost.store.Shows siteView :=
  shows_storeActions "main"

def storedRecord : Record :=
  { signerRecord (.numeric 0) .valid with
    serverKey := [2]
    deviceKey := [3]
    sealedPrivateKey := [4] }

theorem storable_storedRecord : storedRecord.Storable where
  complete := by decide
  id := by
    rw [Codec.Short]
    decide +kernel
  serverKey := by
    rw [Codec.Short]
    decide
  deviceKey := by
    rw [Codec.Short]
    decide
  sealedPrivateKey := by
    rw [Codec.Short]
    decide
  sealedRecovery := by rintro b ⟨⟩
  keys := {
    possession := ProtectedKeys.short_sealKey _ _
    knowledge := by
      rw [Codec.Short]
      decide
    biometry := by rintro b ⟨⟩
    transport := ProtectedKeys.short_sealKey _ _ }

def sampleSite (status : StoredStatus) (writesFail : Bool) : Site where
  stores := Registry.empty.set "main" {
    entries := Registry.empty.set sampleSession.storageName status.encode
    writesFail }

theorem storageName_with_phase (s : Session) (phase : Phase) :
    storageName { s with phase } = s.storageName :=
  rfl

theorem view_sampleSite (status : StoredStatus) (writesFail : Bool) :
    siteView sampleSession.storageName (sampleSite status writesFail) = some status.encode :=
  rfl

theorem resume_sampleSite {status : StoredStatus} (h : status.Storable) (writesFail : Bool) :
    Session.resume sampleSetup {}
      (siteHost.store.load (sampleSetup.storageName {}) (sampleSite status writesFail)).1 =
        .ok { sampleSession with phase := .ofStored status } := by
  have hload : (siteHost.store.load (sampleSetup.storageName {}) (sampleSite status writesFail)).1 =
      .ok (some status.encode) := by
    rfl
  rw [hload]
  exact resume_of_ofBlob new_sampleSetup (StoredStatus.ofBlob_encode h)

end Example

end DeviceAuth.Session
