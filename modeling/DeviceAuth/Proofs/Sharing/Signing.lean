import DeviceAuth.Proofs.Session.Agreement
import DeviceAuth.Proofs.Session.Sign
import DeviceAuth.Proofs.Sharing.Coherence

namespace DeviceAuth

open Activation

namespace Session

def Operation.movesCounter : Operation → Bool
  | .sign .. | .signVault .. | .upgradeApply _ => true
  | _ => false

inductive Ends : Operation → Answer → Prop
  | removed : Ends .remove .done
  | reset : Ends .reset .done
  | reported {encrypted unlock} {status : ServerStatus} :
      status.state = .removed → Ends (.applyStatus encrypted unlock) (.status status)

-- What has become of the stored record `r` after an operation of `s` and its answer.
inductive Fate (p : Place) (s : Session) (r : Record) (w : Site) :
    Operation → Except Failure Answer → Prop
  | signed {request factors unlock nonce g} :
      s.signature r request factors unlock nonce = .ok g →
      p.status w = .ok (.activated { r with counter := r.counter.next }) →
      Fate p s r w (.sign request factors unlock nonce) (.ok (.signature g))
  | vaultSigned {request factors unlock nonce token g} :
      s.signature r request factors unlock nonce = .ok g →
      p.status w = .ok (.activated { r with counter := r.counter.next }) →
      Fate p s r w (.signVault request factors unlock nonce token) (.ok (.vaultSignature g ⟨token⟩))
  | upgraded {seed : Key} :
      r.version = .v2 → p.status w = .ok (.activated { r with counter := .ofSeed seed }) →
      Fate p s r w (.upgradeApply seed.bytes) (.ok .done)
  | ended {op answer} :
      Ends op answer → p.status w = .ok .removed ∨ p.status w = .ok .empty →
      Fate p s r w op (.ok answer)
  | kept {op answer r'} :
      op.movesCounter = true → (∃ why, answer = .error why) →
      p.status w = .ok (.activated r') → r'.counter = r.counter → Fate p s r w op answer
  | unmoved {op answer r'} :
      op.movesCounter = false →
      p.status w = .ok (.activated r') → r'.counter = r.counter → Fate p s r w op answer

variable {p : Place} {s t : Session} {r : Record} {w w' : Site} {o : Outcome Site Answer}
  {op : Operation}

theorem fate_of_error {answer : Except Failure Answer} {why : Failure}
    (h : p.status w = .ok (.activated r)) (ha : answer = .error why) : Fate p s r w op answer := by
  cases hmoves : op.movesCounter with
  | true => exact .kept hmoves ⟨why, ha⟩ h rfl
  | false => exact .unmoved hmoves h rfl

theorem Alike.signature {request : HttpRequest} {factors : FactorSet} {unlock : UnlockKeys}
    {nonce : Fixed 16} (h : Alike s t) :
    t.signature r request factors unlock nonce = s.signature r request factors unlock nonce := by
  simp only [Session.signature, signingKey, externalKeyFor, applicationSecret, applicationKey,
    h.setup, h.externalKey]

section Carried

variable {before after : Session} {change : Change} {why : Failure} {a : Answer}

theorem Carried.status (h : Carried p w' plan o) : p.status o.state =
    p.status (plan.perform (Site.storeActions p.store) p.name w').state := by
  rw [Place.status, Place.status, h.blob]

theorem Carried.of_refuse (h : Carried p w' (.refuse after why) o) :
    o.answer = .error why ∧ p.status o.state = p.status w' :=
  ⟨h.answer, h.status⟩

theorem Carried.of_keep (h : Carried p w' (.keep after a) o) :
    o.answer = .ok a ∧ p.status o.state = p.status w' :=
  ⟨h.answer, h.status⟩

theorem Carried.of_write (h : Carried p w' (.write before change after a) o)
    (hs : change.status.Storable) :
    (∃ why, o.answer = .error why ∧ p.status o.state = p.status w' ∧ Alike before o.session) ∨
    (o.answer = .ok a ∧ p.status o.state = .ok change.status ∧ Alike after o.session) := by
  have hanswer := h.answer
  have hstatus := h.status
  have halike := h.alike
  rw [Plan.perform] at hanswer hstatus halike
  rcases Change.apply_cases hs w' with ⟨why, happly⟩ | ⟨w₁, happly, -, hsaved⟩
  · rw [happly] at hanswer hstatus halike
    exact .inl ⟨.store why, hanswer, hstatus, halike⟩
  · rw [happly] at hanswer hstatus halike
    exact .inr ⟨hanswer, hstatus.trans hsaved, halike⟩

end Carried

theorem fate_of_write {before after : Session} {change : Change} {a : Answer}
    (h : Carried p w' (.write before change after a) o) (hs : change.status.Storable)
    (hstatus : p.status w' = .ok (.activated r))
    (hdone : p.status o.state = .ok change.status → Fate p s r o.state op (.ok a)) :
    Fate p s r o.state op o.answer := by
  rcases h.of_write hs with ⟨why, ha, hkept, -⟩ | ⟨ha, hsaved, -⟩
  · exact fate_of_error (hkept.trans hstatus) ha
  · rw [ha]
    exact hdone hsaved

theorem fate_of_update {before after : Session} {r' : Record} {a : Answer}
    (h : Carried p w' (.write before (.save (.activated r')) after a) o)
    (hs : (StoredStatus.activated r').Storable) (hstatus : p.status w' = .ok (.activated r))
    (hmoves : op.movesCounter = false) (hcounter : r'.counter = r.counter) :
    Fate p s r o.state op o.answer :=
  fate_of_write h hs hstatus fun hsaved => .unmoved hmoves hsaved hcounter

theorem vaultRequest_moves {request : VaultRequest} (h : op.vaultRequest? = some request) :
    op.movesCounter = false := by
  cases op <;> first | rfl | cases h

theorem Plan.Faithful.storable {before after : Session} {change : Change} {a : Answer}
    (h : (Plan.write before change after a).Faithful s) : change.status.Storable := by
  cases h with
  | write _ hstorable _ _ _ _ => exact hstorable

theorem fate_of_effect {plan : Plan Answer} (h : Effect t op plan) (hfaithful : plan.Faithful t)
    (hop : ∀ blob, op ≠ .deserialize blob) (halike : Alike s t)
    (hphase : op.access = .exclusive → t.phase = .active r)
    (hstatus : p.status w' = .ok (.activated r)) (hc : Carried p w' plan o) :
    Fate p s r o.state op o.answer := by
  have hactive {r' : Record} (hexclusive : op.access = .exclusive) (hr' : t.phase = .active r') :
      r' = r := by
    rw [hphase hexclusive] at hr'
    cases hr'
    rfl
  cases h with
  | refused op why => exact fate_of_error (hc.of_refuse.2.trans hstatus) hc.of_refuse.1
  | ended pending why _ => exact fate_of_error (hc.of_refuse.2.trans hstatus) hc.of_refuse.1
  | spent why _ _ => exact fate_of_error (hc.of_refuse.2.trans hstatus) hc.of_refuse.1
  | unreadable why _ => exact absurd rfl (hop _)
  | loaded _ => exact absurd rfl (hop _)
  | alreadyConfirmed _ => exact .unmoved rfl (hc.of_keep.2.trans hstatus) rfl
  | noBiometry _ _ => exact .unmoved rfl (hc.of_keep.2.trans hstatus) rfl
  | sameHealth _ _ _ _ => exact .unmoved rfl (hc.of_keep.2.trans hstatus) rfl
  | sameKey _ => exact .unmoved rfl (hc.of_keep.2.trans hstatus) rfl
  | givenKey _ _ => exact .unmoved rfl (hc.of_keep.2.trans hstatus) rfl
  | started _ _ _ => exact .unmoved rfl (hc.of_keep.2.trans hstatus) rfl
  | validated _ _ _ _ => exact .unmoved rfl (hc.of_keep.2.trans hstatus) rfl
  | opened a hrequest _ _ _ =>
      exact .unmoved (vaultRequest_moves hrequest) (hc.of_keep.2.trans hstatus) rfl
  | confirmed hp =>
      rw [hphase rfl] at hp
      cases hp
  | discarded _ _ =>
      exact fate_of_write hc hfaithful.storable hstatus fun hsaved => .ended .removed (.inl hsaved)
  | reportedGone _ _ _ hgone =>
      exact fate_of_write hc hfaithful.storable hstatus fun hsaved =>
        .ended (.reported hgone) (.inl hsaved)
  | cleared =>
      exact fate_of_write hc hfaithful.storable hstatus fun hsaved => .ended .reset (.inr hsaved)
  | signed hr hg =>
      have hsame := hactive rfl (valid_phase hr)
      subst hsame
      exact fate_of_write hc hfaithful.storable hstatus fun hsaved =>
        .signed (halike.signature ▸ hg) hsaved
  | vaultSigned hr hg =>
      have hsame := hactive rfl (valid_phase hr)
      subst hsame
      exact fate_of_write hc hfaithful.storable hstatus fun hsaved =>
        .vaultSigned (halike.signature ▸ hg) hsaved
  | reported hp _ _ _ _ =>
      exact fate_of_update hc hfaithful.storable hstatus rfl (hactive rfl hp ▸ rfl)
  | passwordChanged hp _ _ =>
      exact fate_of_update hc hfaithful.storable hstatus rfl (hactive rfl hp ▸ rfl)
  | biometryRemoved hp =>
      exact fate_of_update hc hfaithful.storable hstatus rfl (hactive rfl hp ▸ rfl)
  | externalAdded hp _ _ =>
      exact fate_of_update hc hfaithful.storable hstatus rfl (hactive rfl hp ▸ rfl)
  | externalRemoved hp _ _ _ =>
      exact fate_of_update hc hfaithful.storable hstatus rfl (hactive rfl hp ▸ rfl)
  | upgradeStarted hr _ _ =>
      exact fate_of_update hc hfaithful.storable hstatus rfl (hactive rfl (valid_phase hr) ▸ rfl)
  | upgradeApplied hr _ hv hb =>
      have hsame := hactive rfl (valid_phase hr)
      subst hsame
      subst hb
      exact fate_of_write hc hfaithful.storable hstatus fun hsaved => .upgraded hv hsaved
  | upgradeFinished hr _ _ =>
      exact fate_of_update hc hfaithful.storable hstatus rfl (hactive rfl (valid_phase hr) ▸ rfl)
  | biometryAdded hr _ _ _ _ _ _ _ _ =>
      exact fate_of_update hc hfaithful.storable hstatus rfl (hactive rfl (valid_phase hr) ▸ rfl)

end Session

namespace World

open Session Counter

variable {p : Place} {w w' : World} {name : String} {m : Member} {r r' : Record}
  {op : Session.Operation}

theorem phase_active_of_stored {phase : Phase} (h : phase.stored = .activated r) :
    phase = .active r := by
  cases phase with
  | active r' =>
      cases h
      rfl
  | _ => cases h

inductive Stored (p : Place) (m : Member) (op : Session.Operation) (r : Record)
    (o : Outcome Site Answer) : Prop
  | keptOut (why : Failure) :
      o.answer = .error why → p.status o.state = .ok (.activated r) →
      Alike m.session o.session → Stored p m op r o
  | planned (s : Session) (w' : Site) :
      s.Sound → Alike m.session s → p.status w' = .ok (.activated r) →
      (op.access = .exclusive → s.phase = .active r) → Carried p w' (op.plan s) o →
      Stored p m op r o

theorem stored_run (h : Coherent p True w) (hm : w.members.get? name = some m)
    (hop : ∀ blob, op ≠ .deserialize blob) (hstatus : p.status w.site = .ok (.activated r)) :
    Stored p m op r (m.session.run m.host op w.site) := by
  have hsame {w' : Site} (hblob : p.blob w' = p.blob w.site) :
      p.status w' = .ok (.activated r) := by
    rw [Place.status, hblob]
    exact hstatus
  cases (h.round hm hop).body with
  | keptOut why ha _ hblob halike => exact .keptOut why ha (hsame hblob) halike
  | planned s w' hsound halike hblob hagrees hcarried =>
      refine .planned s w' hsound halike (hsame hblob) (fun hexclusive => ?_) hcarried
      have hread := (hagrees hexclusive fun _ => .inl trivial).symm.trans hstatus
      exact phase_active_of_stored (Except.ok.inj hread)

theorem fate_perform (h : Coherent p True w) (hm : w.members.get? name = some m)
    (hop : ∀ blob, op ≠ .deserialize blob) (hstatus : p.status w.site = .ok (.activated r)) :
    Fate p m.session r (m.session.run m.host op w.site).state op
      (m.session.run m.host op w.site).answer := by
  cases stored_run h hm hop hstatus with
  | keptOut why ha hkept _ => exact fate_of_error hkept ha
  | planned s w' hsound halike hbefore hphase hcarried =>
      exact fate_of_effect (plan_effect s op) (plan_faithful op hsound hop) hop halike hphase hbefore
        hcarried

theorem status_act (h : Coherent p True w) {a : Action} (ha : ∀ name op, a ≠ .perform name op) :
    p.status (w.act p a).site = p.status w.site := by
  have henrol (name : String) (lock : Option LockHandle) (made : Except Failure Session) :
      (w.enrol name p.store lock made).site = w.site := by
    cases made <;> rfl
  cases a with
  | share name source =>
      rw [act]
      rcases shareLock_cases h name source with hw | hw <;> rw [hw]
      rfl
  | create name config setup => rw [act, henrol]
  | resume name config setup handle => rw [act, henrol]
  | perform name op => exact absurd rfl (ha name op)
  | close name => rfl
  | fail reads writes =>
      rw [Place.status, Place.status]
      exact congrArg StoredStatus.ofBlob (Place.blob_setStore p w.site _)

def storedCounter? (p : Place) (w : World) : Option Counter :=
  match p.status w.site with
  | .ok (.activated r) => some r.counter
  | _ => none

def eventOf? (p : Place) (w : World) : Session.Operation → Option Event
  | .sign .. | .signVault .. => (w.storedCounter? p).map .signed
  | .upgradeApply b => (Fixed.ofBytes? 32 b).map .upgraded
  | _ => none

def event? (p : Place) (w : World) : Action → Option Event
  | .perform name op =>
      match w.perform name op with
      | some (.ok _, _) => w.eventOf? p op
      | _ => none
  | _ => none

-- A run in which the activation stays stored, with the events of its counter.
inductive Life (p : Place) (w : World) : List Event → World → Prop
  | confirmed : Life p w [] w
  | act {w' events a r} :
      Life p w events w' → Permits p w' a → a.reads →
      p.status (w'.act p a).site = .ok (.activated r) →
      Life p w (events ++ (w'.event? p a).toList) (w'.act p a)

theorem eventOf?_eq_none (h : op.movesCounter = false) : w.eventOf? p op = none := by
  cases op <;> first | rfl | cases h

theorem trail_perform (h : Coherent p True w) (hstatus : p.status w.site = .ok (.activated r))
    (hop : ∀ blob, op ≠ .deserialize blob)
    (hafter : p.status (w.act p (.perform name op)).site = .ok (.activated r'))
    {origin : Counter} {events : List Event} (htrail : Trail origin events r.counter) :
    Trail origin (events ++ (w.event? p (.perform name op)).toList) r'.counter := by
  have hcounter : w.storedCounter? p = some r.counter := by rw [storedCounter?, hstatus]
  cases hm : w.members.get? name with
  | none =>
      have hevent : w.event? p (.perform name op) = none := by
        rw [event?, perform, hm]
        rfl
      rw [act_perform_none hm, hstatus] at hafter
      cases hafter
      rw [hevent]
      simpa using htrail
  | some m =>
      have hfate := fate_perform h hm hop hstatus
      have hevent : w.event? p (.perform name op) =
          if (m.session.run m.host op w.site).answer.isOk then w.eventOf? p op else none := by
        rw [event?, perform, hm]
        simp only [Option.map_some]
        cases (m.session.run m.host op w.site).answer <;> rfl
      rw [act_perform hm] at hafter
      change p.status (m.session.run m.host op w.site).state = _ at hafter
      rw [hevent]
      generalize (m.session.run m.host op w.site).answer = answer at hfate ⊢
      cases hfate with
      | signed _ hsaved =>
          rw [hsaved] at hafter
          cases hafter
          simpa [eventOf?, hcounter, Except.isOk, Except.toBool] using Trail.signed htrail
      | vaultSigned _ hsaved =>
          rw [hsaved] at hafter
          cases hafter
          simpa [eventOf?, hcounter, Except.isOk, Except.toBool] using Trail.signed htrail
      | @upgraded seed hv hsaved =>
          rw [hsaved] at hafter
          cases hafter
          simpa [eventOf?, Except.isOk, Except.toBool] using Trail.upgraded seed htrail hv
      | ended _ hgone =>
          rw [hafter] at hgone
          rcases hgone with hgone | hgone <;> cases hgone
      | kept _ herror hsaved hsame =>
          obtain ⟨why, rfl⟩ := herror
          rw [hsaved] at hafter
          cases hafter
          simpa [hsame, Except.isOk, Except.toBool] using htrail
      | unmoved hmoves hsaved hsame =>
          rw [hsaved] at hafter
          cases hafter
          rw [eventOf?_eq_none hmoves, hsame]
          cases answer <;> simpa using htrail

theorem Coherent.of_read (h : Coherent p False w)
    (hread : ∀ n m, w.members.get? n = some m → m.lock = none → m.session.phase.stored ≠ .empty) :
    Coherent p True w := by
  refine ⟨h.size, h.free, h.bounded, h.handles, ?_, h.apart⟩
  intro n m hn
  have hin := h.members n m hn
  refine ⟨hin.store, hin.name, hin.sound, hin.handle, fun hc _ => ?_⟩
  exact hin.agrees hc fun hlock => .inr (hread n m hn hlock)

theorem run_confirm (h : Coherent p False w) (hm : w.members.get? name = some m)
    (hmod : (m.session.run m.host .confirm w.site).modified = true) :
    ∃ r, m.session.phase = .pendingCommit r ∧ r.counter.Unused ∧
      p.status (m.session.run m.host .confirm w.site).state = .ok (.activated r) ∧
      (m.session.run m.host .confirm w.site).session.phase = .active r ∧
      (m.session.run m.host .confirm w.site).session.externalKey = m.session.externalKey := by
  have hop (blob : Bytes) : Session.Operation.confirm ≠ .deserialize blob := by simp
  have hbody := (h.round hm hop).body
  generalize m.session.run m.host .confirm w.site = o at hmod hbody ⊢
  cases hbody with
  | keptOut why _ hkept _ _ =>
      rw [hkept] at hmod
      cases hmod
  | planned s w' hsound halike _ _ hcarried =>
      have heffect := plan_effect s .confirm
      have hfaithful := plan_faithful .confirm hsound hop
      generalize Operation.plan .confirm s = plan at heffect hfaithful hcarried
      have hcommitted : ∃ r, s.phase = .pendingCommit r ∧ plan = s.commit r .done := by
        cases heffect with
        | confirmed hp => exact ⟨_, hp, rfl⟩
        | spent why hrequest _ => cases hrequest
        | opened a hrequest _ _ _ => cases hrequest
        | _ =>
            rw [hcarried.modified] at hmod
            cases hmod
      obtain ⟨r, hp, rfl⟩ := hcommitted
      have hphase := hcarried.phase
      have hmodified := hcarried.modified
      have hkey := hcarried.alike.externalKey
      rw [commit, Plan.perform] at hphase hmodified hkey
      rcases Change.apply_cases (p := p) hfaithful.storable w' with
        ⟨why, happly⟩ | ⟨w₁, happly, -, hsaved⟩
      · rw [happly, hmod] at hmodified
        cases hmodified
      · rw [happly] at hphase hkey
        refine ⟨r, halike.pending r hp, hsound.unused r hp, ?_, hphase,
          hkey.trans halike.externalKey⟩
        rw [hcarried.status, commit, Plan.perform, happly]
        exact hsaved

theorem confirm_writes (h : Coherent p False w) (hw : w.Writes name .confirm) :
    Coherent p True (w.act p (.perform name .confirm)) ∧
    ∃ r, p.status (w.act p (.perform name .confirm)).site = .ok (.activated r) ∧
      r.counter.Unused := by
  obtain ⟨m, hm, hmod⟩ := hw
  have hafter : Coherent p False (w.act p (.perform name .confirm)) :=
    coherent_perform h fun _ => by simp
  obtain ⟨r, -, hunused, hstatus, hphase, -⟩ := run_confirm h hm hmod
  rw [act_perform hm] at hafter ⊢
  refine ⟨hafter.of_read fun n m' hn hlock => ?_, r, hstatus, hunused⟩
  rcases get?_attach hn with ⟨-, rfl⟩ | ⟨hne, hold⟩
  · rw [hphase]
    simp [Phase.stored]
  · obtain ⟨k, -, hk, -, -⟩ := h.apart n m' name m hne hold hm
    rw [hlock] at hk
    cases hk

theorem life_coherent {w : World} {events : List Event} (h : Coherent p True w)
    {r₀ : Record} (hstatus : p.status w.site = .ok (.activated r₀)) (hlife : Life p w events w') :
    Coherent p True w' ∧ ∃ r, p.status w'.site = .ok (.activated r) ∧
      Trail r₀.counter events r.counter := by
  induction hlife with
  | confirmed => exact ⟨h, r₀, hstatus, .start⟩
  | @act w' events a r' _ hp hreads hafter ih =>
      obtain ⟨hcoherent, r, hbefore, htrail⟩ := ih
      refine ⟨coherent_act hcoherent hp fun _ => hreads, r', hafter, ?_⟩
      by_cases ha : ∃ name op, a = .perform name op
      · obtain ⟨name, op, rfl⟩ := ha
        cases hp with
        | perform hop => exact trail_perform hcoherent hbefore hop hafter htrail
      · have hsame := status_act hcoherent (a := a) fun name op he => ha ⟨name, op, he⟩
        rw [hsame, hbefore] at hafter
        cases hafter
        have hevent : w'.event? p a = none := by
          cases a with
          | perform name op => exact absurd ⟨name, op, rfl⟩ ha
          | _ => rfl
        rw [hevent]
        simpa using htrail

section Example

variable {p : Place} {w w' : World} {name : String} {s t : Session} {r : Record}
  {op : Session.Operation} {answer : Answer}

structure Holds (p : Place) (w : World) (name : String) (s : Session) : Prop where
  member : w.members.get? name = some ⟨s, p.store, none⟩
  writable : (w.site.store p.store).writesFail = false

theorem save_writable {store : Store} (h : store.writesFail = false) (name : String) (b : Bytes) :
    store.save name b = .ok { store with entries := store.entries.set name b } := by
  rw [Store.save, if_neg]
  rw [h]
  exact Bool.false_ne_true

theorem apply_save {status : StoredStatus} {site : Site}
    (h : (site.store p.store).writesFail = false) (key : String) :
    (Change.save status).apply (Site.storeActions p.store) key site =
      (.ok (), site.setStore p.store { site.store p.store with
        entries := (site.store p.store).entries.set key status.encode }) := by
  rw [Change.apply, Site.storeActions]
  dsimp only
  rw [save_writable h, Site.changeStore]

theorem Holds.run (h : Holds p w name s) (hrefusal : op.refusal? = none)
    (haccess : op.access = .exclusive) : ∃ m, w.members.get? name = some m ∧ m.session = s ∧
      m.store = p.store ∧ m.lock = none ∧ m.session.run m.host op w.site =
        (op.plan s).perform (Site.storeActions p.store) s.storageName w.site := by
  refine ⟨_, h.member, rfl, rfl, rfl, ?_⟩
  simp only [Session.run, hrefusal, haccess, exclusive, Member.host, Option.map_none]

theorem Holds.keep (h : Holds p w name s) (hrefusal : op.refusal? = none)
    (haccess : op.access = .exclusive) (hplan : op.plan s = .keep t answer) :
    Holds p (w.act p (.perform name op)) name t := by
  obtain ⟨m, hm, -, hstore, hlock, hrun⟩ := h.run hrefusal haccess
  rw [hplan, Plan.perform] at hrun
  rw [act_perform hm, hrun, hstore, hlock]
  refine ⟨?_, h.writable⟩
  rw [attach, Registry.get?_set, if_pos rfl]

theorem Holds.save (h : Holds p w name s) (hrefusal : op.refusal? = none)
    (haccess : op.access = .exclusive) {before : Session} {status : StoredStatus}
    (hplan : op.plan s = .write before (.save status) t answer) :
    Holds p (w.act p (.perform name op)) name t ∧
      w.Writes name op ∧ (w.perform name op).map Prod.fst = some (.ok answer) := by
  obtain ⟨m, hm, -, hstore, hlock, hrun⟩ := h.run hrefusal haccess
  rw [hplan, Plan.perform, apply_save h.writable] at hrun
  refine ⟨?_, ⟨m, hm, ?_⟩, ?_⟩
  · rw [act_perform hm, hrun, hstore, hlock]
    refine ⟨?_, ?_⟩
    · rw [attach, Registry.get?_set, if_pos rfl]
    · exact (congrArg Store.writesFail (Site.store_setStore_self _ _ _)).trans h.writable
  · rw [hrun]
  · rw [perform, hm, Option.map_some, hrun]
    rfl

theorem Holds.commit (h : Holds p w name s) (hrefusal : op.refusal? = none)
    (haccess : op.access = .exclusive) (hplan : op.plan s = s.commit r answer) :
    Holds p (w.act p (.perform name op)) name { s with phase := .active r } ∧
      w.Writes name op ∧ (w.perform name op).map Prod.fst = some (.ok answer) :=
  h.save hrefusal haccess hplan

theorem Holds.status (h : Holds p w name s) (hreachable : Reachable p w)
    (hphase : s.phase = .active r) : p.status w.site = .ok (.activated r) := by
  have hin := (coherent_of_reachable hreachable).members name _ h.member
  have hagrees := hin.agrees (fun k hk => by cases hk) fun _ => .inr (by
    rw [hphase]
    simp [Phase.stored])
  rw [hagrees, hphase]
  rfl

def sampleStart : World :=
  (start samplePlace {} "left").act samplePlace (.resume "a" {} Session.sampleSetup none)

theorem holds_sampleStart : Holds samplePlace sampleStart "a" sampleSession := by
  have hopen : (start samplePlace {} "left").openSession {} Session.sampleSetup samplePlace.store =
      .ok sampleSession := bind_eq_ok.mpr ⟨_, new_sampleSetup, rfl⟩
  rw [sampleStart, act, hopen, enrol]
  refine ⟨?_, rfl⟩
  rw [attach, Registry.get?_set, if_pos rfl]
  rfl

theorem reachable_sampleStart : Reachable samplePlace sampleStart := by
  refine .act (.start {} "left") (.alone (by decide +kernel) fun n _ => ?_)
  rfl

theorem exists_pending : ∃ (w : World) (s : Session) (r : Record), Reachable samplePlace w ∧
    Holds samplePlace w "a" { s with phase := .pendingCommit r } ∧
    Granted s.externalKey ⟨2, by decide, by decide⟩ sampleGrant sampleUnlock
      ⟨.zero 16, .zero 12, .zero 12⟩ r := by
  obtain ⟨_, _, _, _, r, hstart, -, -, hvalidate, hgranted⟩ := exists_sampleExchange
  have hstarted := holds_sampleStart.keep rfl rfl hstart
  have hvalidated := hstarted.keep rfl rfl hvalidate
  refine ⟨_, sampleSession, r, ?_, hvalidated, hgranted⟩
  exact (reachable_sampleStart.act (.perform fun _ => by simp)).act (.perform fun _ => by simp)

theorem Holds.signed (h : Holds p w' name s) (hreachable : Reachable p w')
    {events : List Event} (hlife : Life p w events w') (hphase : s.phase = .active r)
    (hhealth : r.health = .valid) {request : HttpRequest} {factors : FactorSet}
    {unlock : UnlockKeys} {nonce : Fixed 16} {g : HttpSignature}
    (hg : s.signature r request factors unlock nonce = .ok g) :
    ∃ after, Reachable p after ∧
      Holds p after name { s with phase := .active { r with counter := r.counter.next } } ∧
      Life p w (events ++ [.signed r.counter]) after ∧
      p.status after.site = .ok (.activated { r with counter := r.counter.next }) := by
  have hpermits : Permits p w' (.perform name (.sign request factors unlock nonce)) :=
    .perform fun _ => by simp
  obtain ⟨hsigned, -, hanswer⟩ := h.commit rfl rfl (plan_sign hphase hhealth hg)
  have hafter := hsigned.status (hreachable.act hpermits) rfl
  have hstored : w'.storedCounter? p = some r.counter := by
    rw [storedCounter?, h.status hreachable hphase]
  obtain ⟨⟨answer, after⟩, hperform, rfl⟩ := Option.map_eq_some_iff.mp hanswer
  have hevent : w'.event? p (.perform name (.sign request factors unlock nonce)) =
      some (.signed r.counter) := by
    simp only [event?, hperform, eventOf?, hstored, Option.map_some]
  have hlonger := Life.act hlife hpermits trivial hafter
  rw [hevent] at hlonger
  exact ⟨_, hreachable.act hpermits, hsigned, hlonger, hafter⟩

end Example

end World

end DeviceAuth
