import DeviceAuth.Proofs.Sharing.World

namespace DeviceAuth

open Activation Session

structure InStep (phase : Phase) (blob : Option Bytes) : Prop where
  active : ∀ r, phase = .active r ↔ ∃ b, blob = some b ∧ StoredStatus.decode b = .ok (.activated r)
  removed : phase = .removed ↔ ∃ b, blob = some b ∧ StoredStatus.decode b = .ok .removed
  idle : phase.stored = .empty → ∀ b, blob = some b → StoredStatus.decode b = .ok .empty

theorem decode_of_status {blob : Option Bytes} {status : StoredStatus} (hne : status ≠ .empty) :
    StoredStatus.ofBlob blob = .ok status ↔
      ∃ b, blob = some b ∧ StoredStatus.decode b = .ok status := by
  cases blob with
  | none =>
      constructor
      · intro h
        cases h
        exact absurd rfl hne
      · rintro ⟨b, hb, -⟩
        cases hb
  | some b =>
      constructor
      · intro h
        exact ⟨b, rfl, h⟩
      · rintro ⟨b', hb, h⟩
        cases hb
        exact h

theorem inStep_of_status {phase : Phase} {blob : Option Bytes}
    (h : StoredStatus.ofBlob blob = .ok phase.stored) : InStep phase blob := by
  have hiff (status : StoredStatus) (hne : status ≠ .empty) :
      phase.stored = status ↔ ∃ b, blob = some b ∧ StoredStatus.decode b = .ok status := by
    rw [← decode_of_status hne, h]
    constructor
    · intro he
      rw [he]
    · intro he
      exact Except.ok.inj he
  refine ⟨fun r => ?_, ?_, ?_⟩
  · rw [← hiff (.activated r) (by simp)]
    cases phase <;> simp [Phase.stored]
  · rw [← hiff .removed (by simp)]
    cases phase <;> simp [Phase.stored]
  · intro hempty b hb
    rw [hempty, hb] at h
    exact h

namespace World

variable {p : Place} {w w' : World} {name : String}

def Rereads (w : World) (name : String) (op : Session.Operation) : Prop :=
  ∃ m k, w.members.get? name = some m ∧ m.lock = some k ∧ op.refusal? = none ∧
    op.access = .exclusive ∧ ¬w.site.Current k m.session ∧
    (m.session.enter m.host.store (Site.lockActions k) w.site).answer = .ok ()

inductive Loads (p : Place) (w : World) (name : String) : Action → Prop
  | resumed {config setup handle s} :
      w.openSession config setup p.store = .ok s → Loads p w name (.resume name config setup handle)
  | reread {op} : w.Rereads name op → Loads p w name (.perform name op)

-- A stretch of a run in which nobody writes and `name` does not read.
inductive Unread (p : Place) (name : String) : World → World → Prop
  | none (w : World) : Unread p name w w
  | step {w w' a} :
      Unread p name w w' → Permits p w' a → (∀ n op, a = .perform n op → ¬w'.Writes n op) →
      ¬Loads p w' name a → Unread p name w (w'.act p a)

def Missed (w : World) (name : String) : Prop :=
  ∀ m k, w.members.get? name = some m → m.lock = some k → ¬w.site.Current k m.session

section Missed

variable {m : Member} {k : LockHandle} {op : Session.Operation}

theorem run_missed (h : Coherent p False w) (hm : w.members.get? name = some m)
    (hk : m.lock = some k) (hc : ¬w.site.Current k m.session) (hreads : ¬w.Rereads name op)
    (hreset : op = .reset → (m.session.run m.host op w.site).modified = false)
    (hop : ∀ blob, op ≠ .deserialize blob) :
    (m.session.run m.host op w.site).modified = false ∧
    ¬(m.session.run m.host op w.site).state.Current k
      (m.session.run m.host op w.site).session := by
  have hin := h.members name m hm
  have hfree := h.lock_free hm hk
  have hhost := hin.host hk
  have hrereads : op.refusal? = none → op.access = .exclusive →
      (m.session.enter (Site.storeActions p.store) (Site.lockActions k) w.site).answer ≠ .ok () := by
    intro hrefusal haccess henter
    refine hreads ⟨m, k, hm, hk, hrefusal, haccess, hc, ?_⟩
    rw [hhost]
    exact henter
  rw [hhost] at hreset ⊢
  unfold run at hreset ⊢
  split
  next => exact ⟨rfl, hc⟩
  next hrefusal =>
    rw [hrefusal] at hreset
    dsimp only at hreset
    split
    next haccess =>
      have hentered := enter_entered (h := k) hin.name hfree
      have hanswer := hrereads hrefusal haccess
      simp only [exclusive]
      generalize m.session.enter (Site.storeActions p.store) (Site.lockActions k) w.site = o
        at hentered hanswer ⊢
      cases hentered with
      | current hcurrent => exact absurd hcurrent hc
      | unread why _ _ =>
          refine ⟨rfl, ?_⟩
          rintro ⟨-, hstale⟩
          cases hstale
      | reread _ _ => exact absurd rfl hanswer
    next haccess =>
      have hop := eq_reset_of_overwriting haccess
      subst hop
      rw [haccess] at hreset
      dsimp only at hreset
      rcases overwriting_reset (h := k) hin.name hfree with
        ⟨why, -, hrun⟩ | ⟨w', -, -, -, hrun⟩
      · rw [hrun]
        refine ⟨rfl, ?_⟩
        rintro ⟨-, hstale⟩
        exact hc (behind_stale.mp hstale)
      · rw [hrun] at hreset
        cases hreset rfl
    next haccess =>
      rw [hin.name]
      obtain ⟨hmod, hstate⟩ := unlocked_keeps (p := p) (w := w.site) haccess m.session
      have ho := performed (p := p) (plan_faithful op hin.sound hop) w.site
      refine ⟨hmod, ?_⟩
      rintro ⟨hlast, hstale⟩
      rw [hstate] at hlast
      exact hc ⟨hlast, ho.stale ▸ hstale⟩

theorem missed_of_writes (h : Coherent p False w) {other : String} (hw : w.Writes name op)
    (hne : name ≠ other) (hop : ∀ blob, op ≠ .deserialize blob) :
    (w.act p (.perform name op)).Missed other := by
  obtain ⟨m, hm, hmod⟩ := hw
  rw [act_perform hm]
  intro m' k hm' hk hc
  rcases get?_attach hm' with ⟨he, -⟩ | ⟨-, hold⟩
  · exact hne he.symm
  · obtain ⟨hkept, -⟩ := current_of_perform h hm hold hne hop hk hc
    rw [hkept] at hmod
    cases hmod

theorem missed_perform (h : Coherent p False w) (hmissed : w.Missed name) {n : String}
    (hop : ∀ blob, op ≠ .deserialize blob) (hquiet : ¬w.Writes n op)
    (hload : ¬Loads p w name (.perform n op)) : (w.act p (.perform n op)).Missed name := by
  cases hm : w.members.get? n with
  | none =>
      rw [act_perform_none hm]
      exact hmissed
  | some m =>
      have hmod : (m.session.run m.host op w.site).modified = false :=
        Bool.eq_false_iff.mpr fun hmod => hquiet ⟨m, hm, hmod⟩
      rw [act_perform hm]
      intro m' k hm' hk hc
      rcases get?_attach hm' with ⟨rfl, rfl⟩ | ⟨hne, hold⟩
      · have hreads : ¬w.Rereads name op := fun hr => hload (.reread hr)
        exact (run_missed h hm hk (hmissed m k hm hk) hreads (fun _ => hmod) hop).2 hc
      · obtain ⟨-, hbefore⟩ := current_of_perform h hm hold hne.symm hop hk hc
        exact hmissed m' k hold hk hbefore

theorem missed_enrol (hmissed : w.Missed name) {n : String} {lock : Option LockHandle}
    {made : Except Failure Session} (hmade : ∀ s, made = .ok s → n = name → lock = none) :
    (w.enrol n p.store lock made).Missed name := by
  cases made with
  | error why => exact hmissed
  | ok s =>
      intro m k hm hk hc
      rcases get?_attach hm with ⟨he, rfl⟩ | ⟨-, hold⟩
      · have hlock := hmade s rfl he.symm
        rw [hlock] at hk
        cases hk
      · exact hmissed m k hold hk hc

theorem missed_act (h : Coherent p False w) (hmissed : w.Missed name) {a : Action}
    (hp : Permits p w a) (hquiet : ∀ n op, a = .perform n op → ¬w.Writes n op)
    (hload : ¬Loads p w name a) : (w.act p a).Missed name := by
  cases hp with
  | share n source =>
      intro m k hm hk hc
      rw [act] at hm hc
      rcases shareLock_cases h n source with hw | hw
      · rw [hw] at hm hc
        exact hmissed m k hm hk hc
      · rw [hw] at hm hc
        exact hmissed m k hm hk (current_of_share h hm hk hc)
  | create _ _ => exact missed_enrol hmissed fun _ _ _ => rfl
  | alone _ _ => exact missed_enrol hmissed fun _ _ _ => rfl
  | shared _ _ _ =>
      refine missed_enrol hmissed fun s hs he => ?_
      subst he
      exact absurd (.resumed hs) hload
  | perform hop => exact missed_perform h hmissed hop (hquiet _ _ rfl) hload
  | close n =>
      intro m k hm hk hc
      rw [act, close, Registry.get?_erase] at hm
      split at hm
      · cases hm
      · exact hmissed m k hm hk hc
  | fail reads writes => exact hmissed

theorem missed_of_unread (h : Coherent p False w) (hmissed : w.Missed name)
    (hrun : Unread p name w w') : Coherent p False w' ∧ w'.Missed name := by
  induction hrun with
  | none => exact ⟨h, hmissed⟩
  | step _ hp hquiet hload ih =>
      obtain ⟨hcoherent, hstill⟩ := ih
      exact ⟨coherent_act hcoherent hp False.elim, missed_act hcoherent hstill hp hquiet hload⟩

end Missed

theorem rereads_of_writes (h : Coherent p False w) (hmissed : w.Missed name) {m : Member}
    {k : LockHandle} {op : Session.Operation} (hm : w.members.get? name = some m)
    (hk : m.lock = some k) (hop : ∀ blob, op ≠ .deserialize blob) (hreset : op ≠ .reset)
    (hw : w.Writes name op) : w.Rereads name op := by
  obtain ⟨m', hm', hmod⟩ := hw
  rw [hm] at hm'
  cases hm'
  by_cases hreads : w.Rereads name op
  · exact hreads
  · obtain ⟨hkept, -⟩ :=
      run_missed h hm hk (hmissed m k hm hk) hreads (fun he => absurd he hreset) hop
    rw [hkept] at hmod
    cases hmod

theorem enter_agrees (h : Coherent p False w) {m : Member} {k : LockHandle}
    (hm : w.members.get? name = some m) (hk : m.lock = some k)
    (hanswer : (m.session.enter m.host.store (Site.lockActions k) w.site).answer = .ok ()) :
    p.status (m.session.enter m.host.store (Site.lockActions k) w.site).state =
      .ok (m.session.enter m.host.store (Site.lockActions k) w.site).session.phase.stored := by
  have hin := h.members name m hm
  have hstore : m.host.store = Site.storeActions p.store := by rw [Member.host, hin.store]
  have hentered := enter_entered (h := k) hin.name (h.lock_free hm hk)
  rw [← hstore] at hentered
  generalize m.session.enter m.host.store (Site.lockActions k) w.site = o at hentered hanswer ⊢
  cases hentered with
  | current hcurrent =>
      refine hin.agrees (fun j hj => ?_) (fun hnone => ?_)
      · rw [hk] at hj
        cases hj
        exact hcurrent
      · rw [hk] at hnone
        cases hnone
  | unread why _ _ => cases hanswer
  | reread _ hload => exact (Phase.stored_of_load hload).1

theorem empty_of_confirm_writes (h : Coherent p False w) {m : Member} {k : LockHandle}
    (hm : w.members.get? name = some m) (hk : m.lock = some k) (hw : w.Writes name .confirm) :
    p.status w.site = .ok .empty := by
  obtain ⟨m', hm', hmod⟩ := hw
  rw [hm] at hm'
  cases hm'
  have hop (blob : Bytes) : Session.Operation.confirm ≠ .deserialize blob := by simp
  have hbody := (h.round hm hop).body
  cases hbody with
  | keptOut why _ hkept _ _ =>
      rw [hkept] at hmod
      cases hmod
  | planned s w' _ _ _ hstatus hcarried =>
      have hagrees := hstatus rfl (fun hnone => by rw [hk] at hnone; cases hnone)
      rw [hcarried.modified] at hmod
      have heffect := plan_effect s .confirm
      generalize Operation.plan .confirm s = plan at heffect hmod
      cases heffect with
      | confirmed hp =>
          rw [hp] at hagrees
          exact hagrees
      | spent why hrequest _ => cases hrequest
      | opened a hrequest _ _ _ => cases hrequest
      | _ => cases hmod

theorem shared_sessions_coherent (h : Reachable p w) :
    (∀ name m k op, w.members.get? name = some m → m.lock = some k →
      op.refusal? = none → op.access = .exclusive →
      ∀ o, m.session.enter m.host.store (Site.lockActions k) w.site = o → o.answer = .ok () →
        InStep o.session.phase (p.blob o.state) ∧
        m.session.run m.host op w.site =
          ((op.plan o.session).perform m.host.store m.session.storageName o.state).released
            (Site.lockActions k)) ∧
    (∀ first op second op' w' m k, Permits p w (.perform first op) → w.Writes first op →
      first ≠ second → Unread p second (w.act p (.perform first op)) w' →
      w'.members.get? second = some m → m.lock = some k →
      Permits p w' (.perform second op') → op' ≠ .reset → w'.Writes second op' →
      w'.Rereads second op') ∧
    (∀ name m k, w.members.get? name = some m → m.lock = some k → w.Writes name .confirm →
      ∀ b, p.blob w.site = some b → StoredStatus.decode b = .ok .empty) := by
  have hcoherent := coherent_of_reachable h
  refine ⟨?_, ?_, ?_⟩
  · intro name m k op hm hk hrefusal haccess o ho hanswer
    subst ho
    refine ⟨inStep_of_status (enter_agrees hcoherent hm hk hanswer), ?_⟩
    have hlock : m.host.lock = some (Site.lockActions k) := by rw [Member.host, hk]; rfl
    simp only [run, hrefusal, haccess, exclusive, hlock, hanswer]
  · intro first op second op' w' m k hp hw hne hrun hm hk hp' hreset hw'
    cases hp with
    | perform hop =>
        cases hp' with
        | perform hop' =>
            have hmissed := missed_of_writes hcoherent hw hne hop
            have hafter : Coherent p False (w.act p (.perform first op)) :=
              coherent_perform hcoherent hop
            obtain ⟨hstill, hbehind⟩ := missed_of_unread hafter hmissed hrun
            exact rereads_of_writes hstill hbehind hm hk hop' hreset hw'
  · intro name m k hm hk hw b hb
    have hempty := empty_of_confirm_writes hcoherent hm hk hw
    rw [Place.status, hb] at hempty
    exact hempty

section Example

def samplePlace : Place :=
  ⟨"store", "powerauth.status.default"⟩

def sampleSetup : Setup where
  applicationKey := "key"
  applicationSecret := "secret"
  masterKey := "A2sX0fLhLEJH+Lzm5WOkQPJ3A32BLeszoPShOUXYmMKW"

def removedStore : Store :=
  { entries := Registry.empty.set "powerauth.status.default" StoredStatus.removed.encode }

def firstSession : World :=
  ((start samplePlace removedStore "left").act samplePlace (.share "right" "left")).act samplePlace
    (.resume "a" {} sampleSetup (some "left"))

def twoSessions : World :=
  firstSession.act samplePlace (.resume "b" {} sampleSetup (some "right"))

theorem reachable_twoSessions : Reachable samplePlace twoSessions := by
  have hshared : Reachable samplePlace
      ((start samplePlace removedStore "left").act samplePlace (.share "right" "left")) :=
    .act (.start removedStore "left") (.share "right" "left")
  have hfirst : Reachable samplePlace firstSession := by
    refine hshared.act (.shared (h := ⟨0, 0⟩) rfl rfl (spare_of_entries ?_))
    decide
  refine hfirst.act (.shared (h := ⟨0, 1⟩) rfl (by decide +kernel) (spare_of_entries ?_))
  decide +kernel

theorem rereads_twoSessions :
    (twoSessions.act samplePlace (.perform "a" .remove)).Rereads "b" .remove := by
  have hmember : ((twoSessions.act samplePlace (.perform "a" .remove)).members.get? "b").any
      (fun m => m.lock == some ⟨0, 1⟩) = true := by decide +kernel
  obtain ⟨m, hm, hlock⟩ := Option.any_eq_true _ _ |>.mp hmember
  have hop (blob : Bytes) : Session.Operation.remove ≠ .deserialize blob := by simp
  exact (shared_sessions_coherent reachable_twoSessions).2.1 "a" .remove "b" .remove _ m ⟨0, 1⟩
    (.perform hop) (by decide +kernel) (by decide) (.none _) hm (by simpa using hlock) (.perform hop)
    (by decide) (by decide +kernel)

end Example

end World

end DeviceAuth
