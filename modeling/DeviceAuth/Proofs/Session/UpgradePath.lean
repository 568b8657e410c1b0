import DeviceAuth.Proofs.Session.Course
import DeviceAuth.Proofs.Sharing.UpgradeWindow

namespace DeviceAuth

def Activation.Record.stage (r : Activation.Record) : Option Version × Version :=
  (r.pendingUpgrade, r.version)

namespace Session

open Activation

variable {σ : Type} {host : Host σ} {store : StoreActions σ} {view : String → σ → Option Bytes}
  {s t u : Session} {op : Operation} {w v : σ} {past : List (Step σ)} {r r' : Record}
  {before after : Session} {change : Change} {a : Answer} {p q : Option Version × Version}

inductive Advances : Operation → Option Version × Version → Option Version × Version → Prop
  | started : Advances .upgradeStart (none, .v2) (some .v3, .v2)
  | applied (seed : Key) : Advances (.upgradeApply seed.bytes) (some .v3, .v2) (some .v3, .v3)
  | finished : Advances .upgradeFinish (some .v3, .v3) (none, .v3)

inductive Upgraded : List Operation → Option Version × Version → Prop
  | numbered : Upgraded [] (none, .v2)
  | started : Upgraded [.upgradeStart] (some .v3, .v2)
  | applied (seed : Key) :
      Upgraded [.upgradeStart, .upgradeApply seed.bytes] (some .v3, .v3)
  | finished (seed : Key) :
      Upgraded [.upgradeStart, .upgradeApply seed.bytes, .upgradeFinish] (none, .v3)

theorem Upgraded.advance {ops : List Operation} (h : Upgraded ops p) (hnext : Advances op p q) :
    Upgraded (ops ++ [op]) q := by
  cases hnext with
  | started =>
      cases h with
      | numbered => exact .started
  | applied seed =>
      cases h with
      | started => exact .applied seed
  | finished =>
      cases h with
      | applied seed => exact .finished seed

theorem Advances.ne (h : Advances op p q) : q ≠ p := by
  cases h <;> simp

theorem Advances.keeps (h : Advances op p q) :
    (∀ blob, op ≠ .deserialize blob) ∧ ∀ a, ¬Ends op a := by
  cases h <;> refine ⟨nofun, fun a hends => ?_⟩ <;> cases hends

theorem Upgraded.pending {ops : List Operation} {version : Version} (h : Upgraded ops p)
    (hpending : p.1 = some version) : version = .v3 := by
  cases h <;> cases hpending <;> rfl

theorem Upgraded.ahead {ops : List Operation} (h : Upgraded ops p) :
    p = (none, .v3) ∨ ∃ op q, Advances op p q := by
  cases h with
  | numbered => exact .inr ⟨_, _, .started⟩
  | started => exact .inr ⟨_, _, .applied (.zero 32)⟩
  | applied _ => exact .inr ⟨_, _, .finished⟩
  | finished _ => exact .inl rfl

def storedStage (view : String → σ → Option Bytes) (name : String) (w : σ) :
    Option (Option Version × Version) :=
  match StoredStatus.ofBlob (view name w) with
  | .ok (.activated r) => some r.stage
  | _ => none

theorem storedStage_eq {name : String}
    (h : StoredStatus.ofBlob (view name w) = .ok (.activated r)) :
    storedStage view name w = some r.stage := by
  rw [storedStage, h]

def Step.moves (host : Host σ) (view : String → σ → Option Bytes) (e : Step σ) : Bool :=
  storedStage view e.before.storageName (e.outcome host).state !=
    storedStage view e.before.storageName e.state

def moves (host : Host σ) (view : String → σ → Option Bytes) (past : List (Step σ)) :
    List Operation :=
  (past.filter (Step.moves host view)).map Step.op

section Steps

theorem activated_or_ends (h : Effect s op (.write before change after a)) :
    (∃ r, change = .save (.activated r)) ∨ Ends op a := by
  cases h with
  | discarded _ _ => exact .inr .removed
  | reportedGone _ _ _ hgone => exact .inr (.reported hgone)
  | cleared => exact .inr .reset
  | _ => exact .inl ⟨_, rfl⟩

inductive Develops (view : String → σ → Option Bytes) (s : Session) (op : Operation) (w : σ)
    (r : Record) (o : Outcome σ Answer) (cs : List Call) : Record → Prop
  | kept : o.session.phase = .active r → view s.storageName o.state = view s.storageName w →
      Develops view s op w r o cs r
  | written {before after : Session} {change : Change} {a : Answer} {r' : Record} :
      Effect s op (.write before change after a) → after.phase = .active r' →
      o.session.phase = .active r' → o.answer = .ok a →
      StoredStatus.ofBlob (view s.storageName o.state) = .ok (.activated r') →
      cs = [.save s.storageName (StoredStatus.activated r').encode (.ok ())] →
      Develops view s op w r o cs r'

theorem develops_perform {plan : Plan Answer} (hshows : store.Shows view)
    (heffect : Effect s op plan) (hfaithful : plan.Faithful s) (hphase : s.phase = .active r)
    (hkeeps : ∀ a, (plan.perform store s.storageName w).answer = .ok a → ¬Ends op a) :
    ∃ r', Develops view s op w r (plan.perform store s.storageName w)
      (plan.calls store s.storageName w) r' := by
  have hfollows {t : Session} (h : Follows s t) : t.phase = .active r :=
    World.phase_active_of_stored (h.stored.trans (by rw [hphase]; rfl))
  cases hfaithful with
  | refuse h => exact ⟨r, .kept (hfollows h) rfl⟩
  | keep h => exact ⟨r, .kept (hfollows h) rfl⟩
  | @write before after change a hbefore hstorable _ _ _ _ =>
      have hview := view_apply hshows s.storageName change w hstorable
      rw [Plan.perform] at hkeeps ⊢
      rw [Plan.calls]
      generalize change.apply store s.storageName w = made at hview hkeeps ⊢
      obtain ⟨answer, w'⟩ := made
      cases answer with
      | error why =>
          rcases hview with ⟨-, -, hsame⟩ | ⟨hok, -⟩
          · exact ⟨r, .kept (hfollows hbefore) hsame⟩
          · cases hok
      | ok _ =>
          rcases hview with ⟨why, hwhy, -⟩ | ⟨-, hsaved⟩
          · cases hwhy
          · rcases activated_or_ends heffect with ⟨r', rfl⟩ | hends
            · have hafter := phase_of_write heffect
              exact ⟨r', .written heffect hafter hafter rfl hsaved rfl⟩
            · exact absurd hends (hkeeps a rfl)

theorem develops_run (hlock : host.lock = none) (hshows : host.store.Shows view)
    (hsound : s.Sound) (hop : ∀ blob, op ≠ .deserialize blob) (hphase : s.phase = .active r)
    (hkeeps : ∀ a, (s.run host op w).answer = .ok a → ¬Ends op a) :
    ∃ r', Develops view s op w r (s.run host op w) (s.calls host op w) r' := by
  rcases run_lockless_cases hlock op s w with ⟨why, hrun, -⟩ | ⟨hrun, hcalls⟩
  · rw [hrun]
    exact ⟨r, .kept hphase rfl⟩
  · rw [hrun] at hkeeps
    rw [hrun, hcalls]
    exact develops_perform hshows (plan_effect s op) (plan_faithful op hsound hop) hphase hkeeps

theorem advances_started (hpending : r.pendingUpgrade = none) (hversion : r.version = .v2) :
    Advances .upgradeStart r.stage { r with pendingUpgrade := some .v3 }.stage := by
  have hbefore : r.stage = (none, .v2) := Prod.ext hpending hversion
  have hafter : { r with pendingUpgrade := some .v3 }.stage = (some .v3, .v2) :=
    Prod.ext rfl hversion
  rw [hbefore, hafter]
  exact .started

theorem advances_applied (seed : Key) (hpending : r.pendingUpgrade = some .v3)
    (hversion : r.version = .v2) :
    Advances (.upgradeApply seed.bytes) r.stage { r with counter := .ofSeed seed }.stage := by
  have hbefore : r.stage = (some .v3, .v2) := Prod.ext hpending hversion
  have hafter : { r with counter := .ofSeed seed }.stage = (some .v3, .v3) :=
    Prod.ext hpending rfl
  rw [hbefore, hafter]
  exact .applied seed

theorem advances_finished (hpending : r.pendingUpgrade = some .v3) (hversion : r.version = .v3) :
    Advances .upgradeFinish r.stage { r with pendingUpgrade := none }.stage := by
  have hbefore : r.stage = (some .v3, .v3) := Prod.ext hpending hversion
  have hafter : { r with pendingUpgrade := none }.stage = (none, .v3) := Prod.ext rfl hversion
  rw [hbefore, hafter]
  exact .finished

theorem stage_of_write (h : Effect s op (.write before change after a))
    (hphase : s.phase = .active r) (hafter : after.phase = .active r')
    (hpath : ∀ version, r.pendingUpgrade = some version → version = .v3) :
    r'.stage = r.stage ∨ Advances op r.stage r'.stage ∧ a = .done := by
  have hactive {r₁ : Record} (hr : s.phase = .active r₁) : r₁ = r :=
    Phase.active.inj (hr.symm.trans hphase)
  cases h with
  | confirmed hp =>
      rw [hphase] at hp
      cases hp
  | discarded _ _ | reportedGone _ _ _ _ | cleared => cases hafter
  | signed hr _ | vaultSigned hr _ =>
      obtain rfl := hactive (valid_phase hr)
      cases hafter
      exact .inl (Prod.ext rfl (Counter.version_next _))
  | passwordChanged hp _ _ | biometryRemoved hp | externalAdded hp _ _ | externalRemoved hp _ _ _
  | reported hp _ _ _ _ =>
      obtain rfl := hactive hp
      cases hafter
      exact .inl rfl
  | biometryAdded hr _ _ _ _ _ _ _ _ =>
      obtain rfl := hactive (valid_phase hr)
      cases hafter
      exact .inl rfl
  | upgradeStarted hr hpending hversion =>
      obtain rfl := hactive (valid_phase hr)
      cases hafter
      exact .inr ⟨advances_started hpending hversion, rfl⟩
  | upgradeApplied hr hpending hversion hseed =>
      obtain rfl := hactive (valid_phase hr)
      cases hafter
      rw [hseed]
      exact .inr ⟨advances_applied _ hpending hversion, rfl⟩
  | upgradeFinished hr hpending hversion =>
      obtain rfl := hactive (valid_phase hr)
      cases hafter
      obtain ⟨version, hsome⟩ := Option.isSome_iff_exists.mp hpending
      exact .inr ⟨advances_finished (hpath version hsome ▸ hsome) hversion, rfl⟩

theorem upgraded_step {ops : List Operation} (hlock : host.lock = none)
    (hshows : host.store.Shows view) (hs : Attached view s w) (hphase : s.phase = .active r)
    (hpath : Upgraded ops r.stage) (hop : ∀ blob, op ≠ .deserialize blob)
    (hkeeps : ∀ a, (s.run host op w).answer = .ok a → ¬Ends op a) :
    ∃ r', (s.run host op w).session.phase = .active r' ∧
      storedStage view s.storageName (s.run host op w).state = some r'.stage ∧
      (r'.stage = r.stage ∨
        Advances op r.stage r'.stage ∧ (s.run host op w).answer = .ok .done ∧
          ∃ data, s.calls host op w = [.save s.storageName data (.ok ())]) := by
  have hstored := hs.activated hphase
  obtain ⟨r', hdevelops⟩ := develops_run hlock hshows hs.sound hop hphase hkeeps
  cases hdevelops with
  | kept hafter hview =>
      refine ⟨r, hafter, ?_, .inl rfl⟩
      rw [storedStage, hview]
      exact storedStage_eq hstored
  | written heffect hplanned hafter hanswer hsaved hcalls =>
      refine ⟨r', hafter, storedStage_eq hsaved, ?_⟩
      have hstage := stage_of_write heffect hphase hplanned fun _ => hpath.pending
      rcases hstage with hsame | ⟨hmoved, rfl⟩
      · exact .inl hsame
      · exact .inr ⟨hmoved, hanswer, _, hcalls⟩

theorem moves_append (past : List (Step σ)) (e : Step σ) :
    moves host view (past ++ [e]) =
      moves host view past ++ if e.moves host view then [e.op] else [] := by
  simp only [moves, List.filter_append, List.map_append, List.filter_cons, List.filter_nil]
  split <;> rfl

theorem Course.upgraded {ops : List Operation} (hlock : host.lock = none)
    (hshows : host.store.Shows view) (h : Course host view s w past t v) (hs : Attached view s w)
    (hphase : s.phase = .active r) (hpath : Upgraded ops r.stage)
    (hkeeps : ∀ e ∈ past, ∀ a, (e.outcome host).answer = .ok a → ¬Ends e.op a) :
    ∃ r', t.phase = .active r' ∧ Upgraded (ops ++ moves host view past) r'.stage := by
  induction h with
  | start => exact ⟨r, hphase, by simpa [moves] using hpath⟩
  | @perform past t v op hbefore hop ih =>
      obtain ⟨r₁, hactive, hupgraded⟩ := ih fun e he => hkeeps e (List.mem_append_left _ he)
      obtain ⟨hattached, -⟩ := hbefore.attached hlock hshows hs
      have hlast := hkeeps _ (List.mem_append_right _ List.mem_cons_self)
      obtain ⟨r₂, hafter, hstage, hmoved⟩ :=
        upgraded_step hlock hshows hattached hactive hupgraded hop hlast
      have hstored := hattached.activated hactive
      have hmoves : Step.moves host view ⟨t, op, v⟩ = (some r₂.stage != some r₁.stage) := by
        rw [Step.moves, storedStage_eq hstored]
        exact congrArg (· != some r₁.stage) hstage
      refine ⟨r₂, hafter, ?_⟩
      rw [moves_append, hmoves, ← List.append_assoc]
      rcases hmoved with hsame | ⟨hadvances, -⟩
      · simpa [hsame] using hupgraded
      · simpa [hadvances.ne] using hupgraded.advance hadvances
  | weather _ _ _ ih => exact ih hkeeps
  | reopen hbefore _ hmade ih =>
      obtain ⟨r₁, hactive, hupgraded⟩ := ih hkeeps
      obtain ⟨hattached, -⟩ := hbefore.attached hlock hshows hs
      exact ⟨r₁, phase_of_reopened hshows (hattached.activated hactive) hmade, hupgraded⟩

theorem Upgraded.version_stays {ops more : List Operation} (h : Upgraded ops p)
    (hversion : p.2 = .v3) (hlater : Upgraded (ops ++ more) q) : q.2 = .v3 := by
  generalize hall : ops ++ more = all at hlater
  cases hlater with
  | applied seed => rfl
  | finished seed => rfl
  | numbered =>
      obtain ⟨rfl, -⟩ := List.append_eq_nil_iff.mp hall
      cases h
      cases hversion
  | started =>
      have hlength := congrArg List.length hall
      cases h with
      | numbered | started => cases hversion
      | applied _ | finished _ => simp at hlength

theorem plan_upgradeStart (hphase : s.phase = .active r) (hhealth : r.health = .valid)
    (hpending : r.pendingUpgrade = none) (hversion : r.version = .v2) :
    Operation.plan .upgradeStart s = s.commit { r with pendingUpgrade := some .v3 } .done := by
  have hvalid := valid_eq_ok.mpr ⟨hphase, hhealth⟩
  have hstart : s.upgradeStart = s.commit { r with pendingUpgrade := some .v3 } () := by
    refine congrArg (Plan.orRefuse s) (?_ : _ = Except.ok _)
    refine bind_eq_ok.mpr ⟨r, hvalid, guard_eq_ok.mpr ⟨by simp [hpending], ?_⟩⟩
    exact guard_eq_ok.mpr ⟨by simp [hversion], rfl⟩
  rw [Operation.plan, hstart]
  rfl

theorem plan_of_advances (h : Advances op r.stage q) (hphase : s.phase = .active r)
    (hhealth : r.health = .valid) :
    op.refusal? = none ∧ ∃ r', op.plan s = s.commit r' .done ∧ r'.stage = q ∧
      r'.health = .valid := by
  generalize hstage : r.stage = p at h
  cases h with
  | started =>
      obtain ⟨hpending, hversion⟩ := Prod.mk.inj hstage
      have hplan := plan_upgradeStart hphase hhealth hpending hversion
      exact ⟨rfl, _, hplan, Prod.ext rfl hversion, hhealth⟩
  | applied seed =>
      obtain ⟨hpending, hversion⟩ := Prod.mk.inj hstage
      refine ⟨rfl, _, plan_upgradeApply hphase hhealth hpending hversion, ?_, hhealth⟩
      exact Prod.ext hpending rfl
  | finished =>
      obtain ⟨hpending, hversion⟩ := Prod.mk.inj hstage
      have hplan := plan_upgradeFinish hphase hhealth hpending hversion
      exact ⟨rfl, _, hplan, Prod.ext rfl hversion, hhealth⟩

theorem perform_commit_of_saved {name : String}
    (hsaved : ∀ data, (store.save name data w).1 = .ok ()) :
    ((s.commit r a).perform store name w).answer = .ok a ∧
      ((s.commit r a).perform store name w).session = { s with phase := .active r } := by
  have hok := hsaved (StoredStatus.activated r).encode
  rw [commit, Plan.perform, Change.apply]
  split
  next => exact ⟨rfl, rfl⟩
  next why _ hrefused =>
    rw [hrefused] at hok
    cases hok

theorem signature_ne_ok {request : HttpRequest} {factors : FactorSet} {unlock : UnlockKeys}
    {nonce : Fixed 16} {g : HttpSignature} (hpending : r.pendingUpgrade.isSome = true)
    (hoffline : request.isOffline = true) :
    s.signature r request factors unlock nonce ≠ .ok g := by
  intro h
  obtain ⟨_, -, h⟩ := bind_eq_ok.mp h
  obtain ⟨_, -, h⟩ := bind_eq_ok.mp h
  obtain ⟨honline, -⟩ := guard_eq_ok.mp h
  simp [hoffline, hpending] at honline

end Steps

def Operation.signs? : Operation → Option HttpRequest
  | .sign request _ _ _ | .signVault request _ _ _ _ => some request
  | _ => none

theorem unsigned_offline {request : HttpRequest} (hlock : host.lock = none)
    (hphase : s.phase = .active r) (hpending : r.pendingUpgrade.isSome = true)
    (hop : op.signs? = some request) (hoffline : request.isOffline = true) :
    (s.run host op w).answer ≠ .ok a := by
  intro hanswer
  rcases run_lockless_cases hlock op s w with ⟨why, hrun, -⟩ | ⟨hrun, -⟩
  · rw [hrun] at hanswer
    cases hanswer
  · rw [hrun] at hanswer
    have heffect := plan_effect s op
    generalize op.plan s = plan at heffect hanswer
    have hactive {r₁ : Record} (hr : s.valid = .ok r₁) : r₁ = r :=
      Phase.active.inj ((valid_phase hr).symm.trans hphase)
    cases heffect with
    | signed hr hg | vaultSigned hr hg =>
        cases hop
        obtain rfl := hactive hr
        exact signature_ne_ok hpending hoffline hg
    | refused _ _ => cases hanswer
    | spent _ _ _ => cases hanswer
    | opened _ hrequest _ _ _ =>
        cases op with
        | sign _ _ _ _ | signVault _ _ _ _ _ => cases hrequest
        | _ => cases hop
    | _ => cases hop

-- Where a run has come to: the activation `r` is held and stored, it stands on the path, and the
-- session can go no other way.
structure OnPath (host : Host σ) (view : String → σ → Option Bytes) (past : List (Step σ))
    (t : Session) (v : σ) (r : Record) : Prop where
  held : t.phase = .active r
  stored : StoredStatus.ofBlob (view t.storageName v) = .ok (.activated r)
  path : Upgraded (moves host view past) r.stage
  next : ∀ op, (∀ blob, op ≠ .deserialize blob) →
    (∀ a, (t.run host op v).answer = .ok a → ¬Ends op a) →
    ∃ q, storedStage view t.storageName (t.run host op v).state = some q ∧
      (q = r.stage ∨ Advances op r.stage q ∧ (t.run host op v).answer = .ok .done ∧
        ∃ data, t.calls host op v = [.save t.storageName data (.ok ())])
  failed : ∀ op why, (t.run host op v).answer = .error why →
    view t.storageName (t.run host op v).state = view t.storageName v
  reopened : ∀ setup config made blob, setup.storageName config = t.storageName →
    Session.new setup config = .ok made → (host.store.load t.storageName v).1 = .ok blob →
    ∃ u, Session.resume setup config (host.store.load t.storageName v).1 = .ok u ∧
      u.phase = .active r
  ahead : r.stage = (none, .v3) ∨ ∃ op q, Advances op r.stage q
  continues : ∀ (u : Session) w op q, u.phase = .active r → r.health = .valid →
    Advances op r.stage q → (∀ data, (host.store.save u.storageName data w).1 = .ok ()) →
    (u.run host op w).answer = .ok .done ∧
      ∃ r', (u.run host op w).session.phase = .active r' ∧ r'.stage = q ∧ r'.health = .valid
  forward : r.version = .v3 → ∀ later u w, Course host view t v later u w →
    (∀ e ∈ later, ∀ a, (e.outcome host).answer = .ok a → ¬Ends e.op a) →
    ∃ r', u.phase = .active r' ∧ r'.version = .v3
  online : r.pendingUpgrade.isSome = true → ∀ op request w a, op.signs? = some request →
    request.isOffline = true → (t.run host op w).answer ≠ .ok a

theorem onPath_of_upgraded (hlock : host.lock = none) (hshows : host.store.Shows view)
    (ht : Attached view t v) (hphase : t.phase = .active r)
    (hpath : Upgraded (moves host view past) r.stage) : OnPath host view past t v r where
  held := hphase
  stored := ht.activated hphase
  path := hpath
  next op hop hkeeps := by
    obtain ⟨r', -, hstage, hmoved⟩ := upgraded_step hlock hshows ht hphase hpath hop hkeeps
    exact ⟨_, hstage, hmoved⟩
  failed op why h := (run_error hlock (hshows.refused _) h).1
  reopened setup config made blob hname hmade hload := by
    have hstored := ht.activated hphase
    rw [← hshows.told _ _ _ hload] at hstored
    rw [hload]
    exact ⟨_, resume_of_ofBlob hmade hstored, rfl⟩
  ahead := hpath.ahead
  continues u w op q hu hhealth hadvances hsaved := by
    obtain ⟨hrefusal, r', hplan, hnext⟩ := plan_of_advances hadvances hu hhealth
    rw [run_lockless hlock hrefusal, hplan]
    obtain ⟨hanswer, hsession⟩ := perform_commit_of_saved hsaved
    rw [hsession]
    exact ⟨hanswer, r', rfl, hnext⟩
  forward hversion later u w hlater hkeeps := by
    obtain ⟨r', hafter, hupgraded⟩ := hlater.upgraded hlock hshows ht hphase hpath hkeeps
    exact ⟨r', hafter, hpath.version_stays hversion hupgraded⟩
  online hpending op request w a hop hoffline :=
    unsigned_offline hlock hphase hpending hop hoffline

theorem stage_of_numeric {n : UInt64} (h : History host past s) (hphase : s.phase = .pendingCommit r)
    (hnumeric : r.counter = .numeric n) : r.stage = (none, .v2) := by
  refine Prod.ext (fresh_of_history h r hphase).2 ?_
  rw [Record.stage, Record.version, hnumeric]
  rfl

theorem attached_of_pending (h : History host past s) (hphase : s.phase = .pendingCommit r) :
    Attached view s w :=
  attached_of_uncommitted (sound_of_history h) (by rw [hphase]; rfl)

theorem plan_confirm (hphase : s.phase = .pendingCommit r) :
    Operation.plan .confirm s = s.commit r .done := by
  rw [Operation.plan, confirm, hphase]
  rfl

theorem run_confirm_eq_ok (hlock : host.lock = none) (hphase : s.phase = .pendingCommit r)
    (h : (s.run host .confirm w).answer = .ok a) :
    (s.run host .confirm w).session.phase = .active r := by
  rw [run_lockless hlock rfl] at h ⊢
  rw [plan_confirm hphase, commit, Plan.perform] at h ⊢
  split at h
  next => rfl
  next => cases h

theorem upgrade_goes_one_way {earlier : List (Step σ)} {n : UInt64} (hlock : host.lock = none)
    (hshows : host.store.Shows view) (hearlier : History host earlier s)
    (hphase : s.phase = .pendingCommit r) (hnumeric : r.counter = .numeric n)
    (hconfirmed : (s.run host .confirm w).answer = .ok .done)
    (hcourse : Course host view (s.run host .confirm w).session (s.run host .confirm w).state
      past t v)
    (hkeeps : ∀ e ∈ past, ∀ a, (e.outcome host).answer = .ok a → ¬Ends e.op a) :
    ∃ r', OnPath host view past t v r' := by
  have hattached : Attached view (s.run host .confirm w).session (s.run host .confirm w).state :=
    ((attached_of_pending hearlier hphase).run hlock hshows (by simp)).1
  have hstart : Upgraded [] r.stage := by
    rw [stage_of_numeric hearlier hphase hnumeric]
    exact .numbered
  obtain ⟨r', hafter, hpath⟩ := hcourse.upgraded hlock hshows hattached
    (run_confirm_eq_ok hlock hphase hconfirmed) hstart hkeeps
  obtain ⟨ht, -⟩ := hcourse.attached hlock hshows hattached
  exact ⟨r', onPath_of_upgraded hlock hshows ht hafter hpath⟩

section Example

def shelfHost : Host (String → Option Bytes) where
  store := {
    load := fun name w => (.ok (w name), w)
    save := fun name data w => (.ok (), fun key => if key = name then some data else w key)
    remove := fun name w => (.ok (), fun key => if key = name then none else w key) }
  lock := none

def shelfView (name : String) (w : String → Option Bytes) : Option Bytes :=
  w name

theorem shows_shelfHost : shelfHost.store.Shows shelfView where
  told name w blob h := (Except.ok.inj h).symm
  read name w := rfl
  saved name data w _ := if_pos rfl
  removed name w _ := if_pos rfl
  refused name change key w why w' h := by cases change <;> cases h

theorem undisturbed_shelfHost (s : Session) (w : String → Option Bytes) :
    Undisturbed shelfHost s w := by
  rintro lock ⟨⟩

def numericGrant : Grant :=
  { sampleGrant with seed := none }

theorem sign_numericGrant : (sampleMaster.sign numericGrant.signedData).isOk = true := by
  decide +kernel

theorem exists_numericHistory : ∃ (earlier : List (Step (String → Option Bytes))) (s : Session)
    (r : Record), History shelfHost earlier s ∧ s.phase = .pendingCommit r ∧
      r.counter = .numeric 0 ∧ r.health = .valid ∧ s.storageName = sampleSetup.storageName {} := by
  obtain ⟨signature, hsign⟩ := exists_of_isOk sign_numericGrant
  obtain ⟨c, keys, reply, r, hstart, -, hvalidate, hgranted⟩ :=
    exists_exchange hsign (by decide +kernel)
  have hmade : History shelfHost [] sampleSession := .created new_sampleSetup
  have hstarted := hmade.next _ (fun _ => none)
    (run_of_keep (undisturbed_shelfHost _ _) rfl rfl hstart).2
  have hpending := hstarted.next _ (fun _ => none)
    (run_of_keep (undisturbed_shelfHost _ _) rfl rfl hvalidate).2
  have hname := (storageName_with_phase sampleSession (.pendingCommit r)).trans
    (World.storageName_new new_sampleSetup).1
  exact ⟨_, _, r, hpending, rfl, hgranted.counter, hgranted.health, hname⟩

structure Lasts (s : Session) (w : String → Option Bytes)
    (past : List (Step (String → Option Bytes))) (t : Session) (v : String → Option Bytes)
    (r : Record) : Prop where
  course : Course shelfHost shelfView s w past t v
  held : t.phase = .active r
  health : r.health = .valid
  keeps : ∀ e ∈ past, ∀ a, (e.outcome shelfHost).answer = .ok a → ¬Ends e.op a

theorem Lasts.advance {s t : Session} {w v : String → Option Bytes}
    {past : List (Step (String → Option Bytes))} (h : Lasts s w past t v r)
    (hpath : OnPath shelfHost shelfView past t v r) (hadvances : Advances op r.stage q) :
    ∃ t' v' r', Lasts s w (past ++ [⟨t, op, v⟩]) t' v' r' ∧ r'.stage = q := by
  obtain ⟨-, r', hafter, hstage, hhealth⟩ :=
    hpath.continues t v op q h.held h.health hadvances fun _ => rfl
  obtain ⟨hop, hkeeps⟩ := hadvances.keeps
  refine ⟨_, _, r', ⟨h.course.perform op hop, hafter, hhealth, ?_⟩, hstage⟩
  intro e he a hanswer
  rcases List.mem_append.mp he with he | he
  · exact h.keeps e he a hanswer
  · obtain rfl := List.mem_singleton.mp he
    exact hkeeps a

theorem upgraded_through_restart : ∃ (past : List (Step (String → Option Bytes))) (t : Session)
    (v : String → Option Bytes) (r : Record),
    past.map Step.op = [.upgradeStart, .upgradeApply (Fixed.zero 32).bytes, .upgradeFinish] ∧
      OnPath shelfHost shelfView past t v r ∧ r.stage = (none, .v3) := by
  obtain ⟨earlier, s, r, hearlier, hphase, hcounter, hhealth, hname⟩ := exists_numericHistory
  have hconfirmed : (s.run shelfHost .confirm fun _ => none).answer = .ok .done :=
    (run_of_commit (undisturbed_shelfHost _ _) (fun _ _ _ => rfl) rfl rfl (plan_confirm hphase)).1
  have hheld := run_confirm_eq_ok rfl hphase hconfirmed
  have hbegun : Attached shelfView s fun _ => none := attached_of_pending hearlier hphase
  obtain ⟨hattached, hsame⟩ :
      Attached shelfView (s.run shelfHost .confirm fun _ => none).session
          (s.run shelfHost .confirm fun _ => none).state ∧
        (s.run shelfHost .confirm fun _ => none).session.storageName = s.storageName :=
    hbegun.run rfl shows_shelfHost (by simp)
  generalize hrun : s.run shelfHost .confirm (fun _ => none) = confirmed at *
  have hstays {past t v r₁} (h : Lasts confirmed.session confirmed.state past t v r₁) :
      sampleSetup.storageName {} = t.storageName := by
    rw [(h.course.attached rfl shows_shelfHost hattached).2, hsame, hname]
  -- wherever the run has come to, the path is known
  have honPath {past t v r₁} (h : Lasts confirmed.session confirmed.state past t v r₁) :
      OnPath shelfHost shelfView past t v r₁ := by
    have hcourse := h.course
    rw [← hrun] at hconfirmed hcourse
    obtain ⟨r₂, hpath⟩ := upgrade_goes_one_way rfl shows_shelfHost hearlier hphase hcounter
      hconfirmed hcourse h.keeps
    obtain rfl : r₁ = r₂ := Phase.active.inj (h.held.symm.trans hpath.held)
    exact hpath
  have hcommitted : Lasts confirmed.session confirmed.state [] confirmed.session
      confirmed.state r :=
    ⟨.start, hheld, hhealth, by simp⟩
  have hstage := stage_of_numeric hearlier hphase hcounter
  obtain ⟨t₁, v₁, r₁, hstarted, hstage₁⟩ :=
    hcommitted.advance (honPath hcommitted) (by rw [hstage]; exact .started)
  obtain ⟨u, hresumed, hu⟩ := (honPath hstarted).reopened sampleSetup {} sampleSession
    (v₁ t₁.storageName) (hstays hstarted) new_sampleSetup rfl
  have hreopened : Lasts confirmed.session confirmed.state _ u v₁ r₁ :=
    ⟨hstarted.course.reopen (hstays hstarted) hresumed, hu, hstarted.health, hstarted.keeps⟩
  obtain ⟨t₂, v₂, r₂, happlied, hstage₂⟩ :=
    hreopened.advance (honPath hreopened) (by rw [hstage₁]; exact .applied (.zero 32))
  obtain ⟨t₃, v₃, r₃, hfinished, hstage₃⟩ :=
    happlied.advance (honPath happlied) (by rw [hstage₂]; exact .finished)
  exact ⟨_, t₃, v₃, r₃, rfl, honPath hfinished, hstage₃⟩

end Example

end Session

end DeviceAuth
