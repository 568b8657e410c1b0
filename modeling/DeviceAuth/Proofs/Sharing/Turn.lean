import DeviceAuth.Proofs.Sharing.Site

namespace DeviceAuth

open Activation Session

def Site.Current (w : Site) (h : LockHandle) (s : Session) : Prop :=
  (w.lock h.lock).lastSeen h.handle = (w.lock h.lock).generation ∧ s.stale = false

def Site.held (w : Site) (h : LockHandle) : Site :=
  w.setLock h.lock ((w.lock h.lock).taken h.handle)

namespace Session

variable {p : Place} {α : Type}

inductive Entered (p : Place) (h : LockHandle) (s : Session) (w : Site) : Outcome Site Unit → Prop
  | current : w.Current h s → Entered p h s w ⟨.ok (), s, false, w.held h⟩
  | unread (why : Failure) :
      ¬w.Current h s → Phase.load ((w.store p.store).load p.name) = .error why →
      Entered p h s w ⟨.error why, { s with vaultToken := none, stale := true }, false, w.held h⟩
  | reread {phase : Phase} :
      ¬w.Current h s → Phase.load ((w.store p.store).load p.name) = .ok phase →
      Entered p h s w
        ⟨.ok (), { s with vaultToken := none, phase, stale := false }, false, w.held h⟩

theorem acquire_free {w : Site} {h : LockHandle} (hfree : (w.lock h.lock).holder = none) :
    w.acquire h =
      ((w.lock h.lock).lastSeen h.handle != (w.lock h.lock).generation, w.held h) := by
  rw [Site.acquire, Lock.acquire?_free hfree]
  rfl

theorem current_iff {w : Site} {h : LockHandle} {s : Session} :
    ((w.lock h.lock).lastSeen h.handle != (w.lock h.lock).generation || s.stale) = false ↔
      w.Current h s := by
  rw [Bool.or_eq_false_iff, bne_eq_false_iff_eq]
  rfl

theorem enter_entered {s : Session} {h : LockHandle} {w : Site} (hn : s.storageName = p.name)
    (hfree : (w.lock h.lock).holder = none) :
    Entered p h s w (s.enter (Site.storeActions p.store) (Site.lockActions h) w) := by
  have hstore : (w.held h).store p.store = w.store p.store := rfl
  rw [enter]
  simp only [Site.lockActions, acquire_free hfree]
  split
  next hbehind =>
    have hc : ¬w.Current h s := by
      intro hc
      rw [current_iff.mpr hc] at hbehind
      cases hbehind
    simp only [reload, Site.storeActions]
    cases hload : Phase.load ((w.store p.store).load p.name) with
    | error why =>
        have hl : Phase.load (((w.held h).store p.store).load
            (storageName { s with vaultToken := none, stale := true })) = .error why := by
          rw [hstore, ← hload, ← hn]
          rfl
        rw [hl]
        exact .unread why hc hload
    | ok phase =>
        have hl : Phase.load (((w.held h).store p.store).load
            (storageName { s with vaultToken := none, stale := true })) = .ok phase := by
          rw [hstore, ← hload, ← hn]
          rfl
        rw [hl]
        exact .reread hc hload
  next hcurrent => exact .current (current_iff.mp (Bool.eq_false_iff.mpr hcurrent))

theorem Phase.stored_of_load {w : Site} {phase : Phase}
    (h : Phase.load ((w.store p.store).load p.name) = .ok phase) :
    p.status w = .ok phase.stored ∧ ∃ status : StoredStatus, status.Storable ∧
      phase = .ofStored status := by
  unfold Store.load at h
  split at h
  · cases h
  · obtain ⟨status, hs, rfl⟩ := Phase.load_eq_ok.mp h
    rw [stored_ofStored]
    exact ⟨hs, status, StoredStatus.storable_of_ofBlob hs, rfl⟩

end Session

-- A member stands for what is stored, unless its lock will tell it to read again. A session that
-- was made without reading, which `read` excludes, does so once it holds something.
structure InTouch (p : Place) (read : Prop) (w : Site) (m : Member) : Prop where
  store : m.store = p.store
  name : m.session.storageName = p.name
  sound : m.session.Sound
  handle : ∀ h, m.lock = some h → h.lock = 0 ∧ h.handle < (w.lock 0).seen.length
  agrees : (∀ h, m.lock = some h → w.Current h m.session) →
    (m.lock = none → read ∨ m.session.phase.stored ≠ .empty) →
    p.status w = .ok m.session.phase.stored

theorem InTouch.host {p : Place} {read : Prop} {site : Site} {m : Member} {k : LockHandle}
    (h : InTouch p read site m) (hk : m.lock = some k) :
    m.host = ⟨Site.storeActions p.store, some (Site.lockActions k)⟩ := by
  rw [Member.host, h.store, hk]
  rfl

theorem InTouch.of_same {p : Place} {read : Prop} {site site' : Site} {m : Member}
    (h : InTouch p read site m)
    (hseen : (site.lock 0).seen.length ≤ (site'.lock 0).seen.length)
    (hsame : (∀ k, m.lock = some k → site'.Current k m.session) →
      p.blob site' = p.blob site ∧ ∀ k, m.lock = some k → site.Current k m.session) :
    InTouch p read site' m := by
  refine ⟨h.store, h.name, h.sound, ?_, ?_⟩
  · intro k hk
    obtain ⟨hzero, hlen⟩ := h.handle k hk
    exact ⟨hzero, Nat.lt_of_lt_of_le hlen hseen⟩
  · intro hc hread
    obtain ⟨hblob, hcurrent⟩ := hsame hc
    rw [Place.status, hblob]
    exact h.agrees hcurrent hread

structure Turn (p : Place) (m : Member) (w : Site) (modified : Bool) (w' : Site) : Prop where
  size : w'.locks.length = w.locks.length
  free : (w'.lock 0).holder = none
  seen : (w'.lock 0).seen.length = (w.lock 0).seen.length
  bounded : (∀ k, (w.lock 0).lastSeen k ≤ (w.lock 0).generation) →
    ∀ k, (w'.lock 0).lastSeen k ≤ (w'.lock 0).generation
  others : ∀ h, m.lock = some h → ∀ k, k ≠ h.handle →
    (∀ j, (w.lock 0).lastSeen j ≤ (w.lock 0).generation) →
    (w'.lock 0).lastSeen k = (w'.lock 0).generation →
    modified = false ∧ (w.lock 0).lastSeen k = (w.lock 0).generation
  kept : modified = false → p.blob w' = p.blob w

section Turns

variable {p : Place} {m : Member} {w w' : Site} {modified : Bool}

theorem turn_of_same_locks (hfree : (w.lock 0).holder = none) (hlocks : w'.locks = w.locks)
    (hmodified : m.lock.isSome = true → modified = false)
    (hkept : modified = false → p.blob w' = p.blob w) : Turn p m w modified w' := by
  have hlock : w'.lock 0 = w.lock 0 := by rw [Site.lock, Site.lock, hlocks]
  refine ⟨by rw [hlocks], by rw [hlock, hfree], by rw [hlock], ?_, ?_, hkept⟩
  · intro hb k
    rw [hlock]
    exact hb k
  · intro h hm k _ _ hk
    rw [hlock] at hk
    exact ⟨hmodified (by rw [hm]; rfl), hk⟩

theorem turn_of_passed {h : LockHandle} (hm : m.lock = some h)
    (hsize : w'.locks.length = w.locks.length)
    (hpassed : (w.lock 0).Passed h.handle modified (w'.lock 0))
    (hkept : modified = false → p.blob w' = p.blob w) : Turn p m w modified w' := by
  refine ⟨hsize, hpassed.free, hpassed.size, ?_, ?_, hkept⟩
  · intro hb k
    by_cases hk : k = h.handle
    · exact Nat.le_of_eq (hk ▸ hpassed.own)
    · have hle := hb k
      rw [hpassed.others k hk, hpassed.generation]
      split <;> omega
  · intro h' hm' k hk hb hlast
    rw [hm] at hm'
    cases hm'
    have hle := hb k
    rw [hpassed.others k hk, hpassed.generation] at hlast
    cases modified with
    | true =>
        rw [if_pos rfl] at hlast
        omega
    | false => exact ⟨rfl, by simpa using hlast⟩

theorem lock_released {α : Type} {o : Outcome Site α} {h : LockHandle} (hzero : h.lock = 0)
    (hsize : w.locks.length = 1) (hlocks : o.state.locks = (w.held h).locks) :
    (o.released (Site.lockActions h)).state.lock 0 =
      ((w.lock 0).taken h.handle).release h.handle o.modified := by
  obtain ⟨n, k⟩ := h
  subst hzero
  have hsize' : o.state.locks.length = w.locks.length := by
    rw [hlocks, Site.held, Site.length_setLock]
  have hpos : 0 < w.locks.length := by rw [hsize]; decide
  have htaken : o.state.lock 0 = (w.lock 0).taken k := by
    rw [Site.lock, hlocks]
    exact Site.lock_setLock hpos _
  rw [← htaken]
  exact Site.lock_setLock (hsize' ▸ hpos) _

theorem turn_of_released {α : Type} {o : Outcome Site α} {h : LockHandle} (hm : m.lock = some h)
    (hzero : h.lock = 0) (hlen : h.handle < (w.lock 0).seen.length) (hsize : w.locks.length = 1)
    (hlocks : o.state.locks = (w.held h).locks)
    (hkept : o.modified = false → p.blob o.state = p.blob w) :
    Turn p m w o.modified (o.released (Site.lockActions h)).state := by
  refine turn_of_passed hm ?_ ?_ hkept
  · have hsize' : o.state.locks.length = w.locks.length := by
      rw [hlocks, Site.held, Site.length_setLock]
    exact (Site.length_setLock _ _ _).trans hsize'
  · rw [lock_released hzero hsize hlocks]
    exact Lock.passed_release hlen _

end Turns

namespace Session

-- The same session but for what it has read. A pending activation is never read.
structure Alike (s t : Session) : Prop where
  setup : t.setup = s.setup
  config : t.config = s.config
  masterKey : t.masterKey = s.masterKey
  externalKey : t.externalKey = s.externalKey
  pending : ∀ r, t.phase = .pendingCommit r → s.phase = .pendingCommit r

theorem Alike.refl (s : Session) : Alike s s :=
  ⟨rfl, rfl, rfl, rfl, fun _ => id⟩

structure Carried (p : Place) (w : Site) (plan : Plan Answer) (o : Outcome Site Answer) : Prop where
  answer : o.answer = (plan.perform (Site.storeActions p.store) p.name w).answer
  modified : o.modified = (plan.perform (Site.storeActions p.store) p.name w).modified
  blob : p.blob o.state = p.blob (plan.perform (Site.storeActions p.store) p.name w).state
  phase : o.session.phase = (plan.perform (Site.storeActions p.store) p.name w).session.phase
  alike : Alike (plan.perform (Site.storeActions p.store) p.name w).session o.session

inductive Body (p : Place) (read : Prop) (m : Member) (op : Operation) (w : Site)
    (o : Outcome Site Answer) : Prop
  | keptOut (why : Failure) :
      o.answer = .error why → o.modified = false → p.blob o.state = p.blob w →
      Alike m.session o.session → Body p read m op w o
  | planned (s : Session) (w' : Site) :
      s.Sound → Alike m.session s → p.blob w' = p.blob w →
      (op.access = .exclusive → (m.lock = none → read ∨ s.phase.stored ≠ .empty) →
        p.status w = .ok s.phase.stored) →
      Carried p w' (op.plan s) o → Body p read m op w o

variable {p : Place} {read : Prop} {m : Member} {w : Site}

theorem unlocked_keeps {op : Operation} (hop : op.access = .unlocked) (s : Session) :
    ((op.plan s).perform (Site.storeActions p.store) p.name w).modified = false ∧
    ((op.plan s).perform (Site.storeActions p.store) p.name w).state = w := by
  have heffect := plan_effect s op
  cases op with
  | setExternal key =>
      generalize Operation.plan (.setExternal key) s = plan at heffect ⊢
      cases heffect <;> exact ⟨rfl, rfl⟩
  | deserialize blob =>
      generalize Operation.plan (.deserialize blob) s = plan at heffect ⊢
      cases heffect <;> exact ⟨rfl, rfl⟩
  | _ => cases hop

theorem inTouch_performed {s : Session} {o : Outcome Site Answer} {w₀ w' : Site}
    (hin : InTouch p read w₀ m)
    (hagrees : (m.lock = none → read ∨ s.phase.stored ≠ .empty) → p.status w = .ok s.phase.stored)
    (ho : Performed p s w o) (hname : s.storageName = p.name) (hblob : p.blob w' = p.blob o.state)
    (hseen : (w'.lock 0).seen.length = (w₀.lock 0).seen.length) :
    InTouch p read w' { m with session := o.session } := by
  refine ⟨hin.store, ho.name.trans hname, ho.sound, ?_, ?_⟩
  · intro h hm
    rw [hseen]
    exact hin.handle h hm
  · intro _ hread
    have hstatus : p.status w' = p.status o.state := by rw [Place.status, Place.status, hblob]
    rw [hstatus]
    cases hmod : o.modified with
    | true => exact ho.wrote hmod
    | false =>
        obtain ⟨hsame, hstored⟩ := ho.kept hmod
        have hstate : p.status o.state = p.status w := by rw [Place.status, Place.status, hsame]
        rw [hstored] at hread ⊢
        rw [hstate]
        exact hagrees hread

structure Round (p : Place) (read : Prop) (m : Member) (op : Operation) (w : Site)
    (o : Outcome Site Answer) : Prop where
  turn : Turn p m w o.modified o.state
  inTouch : InTouch p read o.state { m with session := o.session }
  body : Body p read m op w o

theorem round_keptOut {op : Operation} {why : Failure} (hin : InTouch p read w m)
    (hfree : (w.lock 0).holder = none) :
    Round p read m op w ⟨.error why, m.session, false, w⟩ :=
  ⟨turn_of_same_locks hfree rfl (fun _ => rfl) (fun _ => rfl), hin,
    .keptOut why rfl rfl rfl (.refl _)⟩

theorem round_alone {op : Operation} (hin : InTouch p read w m) (hfree : (w.lock 0).holder = none)
    (hop : ∀ blob, op ≠ .deserialize blob) (halone : m.lock = none) :
    Round p read m op w ((op.plan m.session).perform (Site.storeActions p.store) p.name w) := by
  have ho := performed (p := p) (plan_faithful op hin.sound hop) w
  have hagrees : (m.lock = none → read ∨ m.session.phase.stored ≠ .empty) →
      p.status w = .ok m.session.phase.stored := by
    refine hin.agrees fun h hm => ?_
    rw [halone] at hm
    cases hm
  have hturn : Turn p m w _ _ :=
    turn_of_same_locks hfree ho.locks (by simp [halone]) fun hmod => (ho.kept hmod).1
  refine ⟨hturn, inTouch_performed hin hagrees ho hin.name rfl hturn.seen, ?_⟩
  exact .planned m.session w hin.sound (.refl _) rfl (fun _ => hagrees)
    ⟨rfl, rfl, rfl, rfl, .refl _⟩

theorem round_unlocked {op : Operation} (hin : InTouch p read w m)
    (hfree : (w.lock 0).holder = none) (hop : ∀ blob, op ≠ .deserialize blob)
    (haccess : op.access = .unlocked) :
    Round p read m op w ((op.plan m.session).perform (Site.storeActions p.store) p.name w) := by
  obtain ⟨hmod, hstate⟩ := unlocked_keeps (p := p) (w := w) haccess m.session
  have ho := performed (p := p) (plan_faithful op hin.sound hop) w
  refine ⟨?_, ?_, ?_⟩
  · exact turn_of_same_locks hfree ho.locks (fun _ => hmod) fun hmod => (ho.kept hmod).1
  · refine ⟨hin.store, ho.name.trans hin.name, ho.sound, ?_, ?_⟩
    · rw [hstate]
      exact hin.handle
    · intro hcurrent hread
      rw [hstate] at hcurrent ⊢
      rw [(ho.kept hmod).2] at hread ⊢
      refine hin.agrees (fun h hm => ?_) hread
      obtain ⟨hlast, hstale⟩ := hcurrent h hm
      exact ⟨hlast, ho.stale ▸ hstale⟩
  · refine .planned m.session w hin.sound (.refl _) rfl ?_ ⟨rfl, rfl, rfl, rfl, .refl _⟩
    intro hexclusive
    rw [haccess] at hexclusive
    cases hexclusive

variable {h : LockHandle}

theorem round_planned {op : Operation} {s : Session} (hin : InTouch p read w m)
    (hm : m.lock = some h) (hsize : w.locks.length = 1) (hsound : s.Sound)
    (halike : Alike m.session s) (hname : s.storageName = p.name)
    (hstatus : p.status w = .ok s.phase.stored) (hop : ∀ blob, op ≠ .deserialize blob) :
    Round p read m op w (((op.plan s).perform (Site.storeActions p.store) p.name (w.held h)).released
      (Site.lockActions h)) := by
  obtain ⟨hzero, hlen⟩ := hin.handle h hm
  have ho := performed (p := p) (plan_faithful op hsound hop) (w.held h)
  have hturn := turn_of_released hm hzero hlen hsize ho.locks fun hmod => (ho.kept hmod).1
  refine ⟨hturn, ?_, ?_⟩
  · exact inTouch_performed (w := w.held h)
      (o := (op.plan s).perform (Site.storeActions p.store) p.name (w.held h))
      hin (fun _ => hstatus) ho hname rfl hturn.seen
  · exact .planned s (w.held h) hsound halike rfl (fun _ _ => hstatus)
      ⟨rfl, rfl, rfl, rfl, .refl _⟩

theorem round_unread {op : Operation} (hin : InTouch p read w m) (hm : m.lock = some h)
    (hsize : w.locks.length = 1) (why : Failure) :
    Round p read m op w (Outcome.released (Site.lockActions h)
      ⟨.error why, { m.session with vaultToken := none, stale := true }, false, w.held h⟩) := by
  obtain ⟨hzero, hlen⟩ := hin.handle h hm
  have hturn : Turn p m w _ _ :=
    turn_of_released (o := ⟨(.error why : Except Failure Answer),
      { m.session with vaultToken := none, stale := true }, false, w.held h⟩)
      hm hzero hlen hsize rfl fun _ => rfl
  refine ⟨hturn, ?_, .keptOut why rfl rfl rfl ⟨rfl, rfl, rfl, rfl, fun _ => id⟩⟩
  refine ⟨hin.store, hin.name, hin.sound.of_phase rfl, ?_, ?_⟩
  · intro h' hm'
    rw [hturn.seen]
    exact hin.handle h' hm'
  · intro hcurrent _
    cases (hcurrent h hm).2

theorem round_exclusive {op : Operation} (hin : InTouch p read w m) (hm : m.lock = some h)
    (hsize : w.locks.length = 1) (hfree : (w.lock 0).holder = none)
    (hop : ∀ blob, op ≠ .deserialize blob) :
    Round p read m op w (exclusive ⟨Site.storeActions p.store, some (Site.lockActions h)⟩ op.plan
      m.session w) := by
  obtain ⟨hzero, hlen⟩ := hin.handle h hm
  have hentered := enter_entered (h := h) hin.name (by rw [hzero]; exact hfree)
  simp only [exclusive]
  generalize m.session.enter (Site.storeActions p.store) (Site.lockActions h) w = o at hentered ⊢
  cases hentered with
  | current hcurrent =>
      have hstatus := hin.agrees (fun h' hm' => by rw [hm] at hm'; cases hm'; exact hcurrent)
        (fun hnone => by rw [hm] at hnone; cases hnone)
      rw [hin.name]
      exact round_planned hin hm hsize hin.sound (.refl _) hin.name hstatus hop
  | unread why _ _ => exact round_unread hin hm hsize why
  | reread _ hload =>
      obtain ⟨hstatus, status, hstorable, hphase⟩ := Phase.stored_of_load hload
      rw [hin.name]
      refine round_planned hin hm hsize (sound_of_ofStored hstorable hphase)
        ⟨rfl, rfl, rfl, rfl, fun r hr => ?_⟩ hin.name hstatus hop
      dsimp only at hr
      rw [hphase] at hr
      cases status <;> cases hr

theorem eq_reset_of_overwriting {op : Operation} (h : op.access = .overwriting) : op = .reset := by
  cases op with
  | reset => rfl
  | _ => cases h

def behind (s : Session) (w : Site) (h : LockHandle) : Session :=
  { s with
    stale := s.stale || ((w.lock h.lock).lastSeen h.handle != (w.lock h.lock).generation) }

theorem behind_stale {s : Session} : (s.behind w h).stale = false ↔ w.Current h s := by
  rw [← current_iff, behind, Bool.or_comm]

theorem perform_reset (s : Session) :
    (∃ why, (Operation.plan .reset s).perform (Site.storeActions p.store) p.name w =
      ⟨.error (.store why), s, false, w⟩) ∨
    ∃ w', w'.locks = w.locks ∧ p.status w' = .ok .empty ∧
      (Operation.plan .reset s).perform (Site.storeActions p.store) p.name w =
        ⟨.ok .done, { s with phase := .empty, vaultToken := none }, true, w'⟩ := by
  have hplan : Operation.plan .reset s =
      .write s .remove { s with phase := .empty, vaultToken := none } .done := rfl
  rcases Change.remove.apply_cases (p := p) StoredStatus.storable_empty w with
    ⟨why, happly⟩ | ⟨w', happly, hlocks, hstatus⟩
  · exact .inl ⟨why, by rw [hplan, Plan.perform, happly]⟩
  · exact .inr ⟨w', hlocks, hstatus, by rw [hplan, Plan.perform, happly]⟩

theorem overwriting_reset {s : Session} (hname : s.storageName = p.name)
    (hfree : (w.lock h.lock).holder = none) :
    (∃ why, (Operation.plan .reset (s.behind w h)).perform (Site.storeActions p.store) p.name
        (w.held h) = ⟨.error (.store why), s.behind w h, false, w.held h⟩ ∧
      overwriting ⟨Site.storeActions p.store, some (Site.lockActions h)⟩ (Operation.plan .reset) s w =
        Outcome.released (Site.lockActions h)
          ⟨.error (.store why), s.behind w h, false, w.held h⟩) ∨
    ∃ w', w'.locks = (w.held h).locks ∧ p.status w' = .ok .empty ∧
      (Operation.plan .reset (s.behind w h)).perform (Site.storeActions p.store) p.name (w.held h) =
        ⟨.ok .done, { s.behind w h with phase := .empty, vaultToken := none }, true, w'⟩ ∧
      overwriting ⟨Site.storeActions p.store, some (Site.lockActions h)⟩ (Operation.plan .reset) s w =
        Outcome.released (Site.lockActions h)
          ⟨.ok .done, { s with phase := .empty, vaultToken := none, stale := false }, true, w'⟩ := by
  have hacquire := acquire_free (w := w) (h := h) hfree
  have hrun : overwriting ⟨Site.storeActions p.store, some (Site.lockActions h)⟩
      (Operation.plan .reset) s w =
      let o := (Operation.plan .reset (s.behind w h)).perform (Site.storeActions p.store) p.name
        (w.held h)
      Outcome.released (Site.lockActions h)
        { o with session := { o.session with stale := o.session.stale && !o.answer.isOk } } := by
    rw [← hname]
    simp only [overwriting, Site.lockActions, hacquire]
    rfl
  rcases perform_reset (p := p) (w := w.held h) (s.behind w h) with
    ⟨why, hperform⟩ | ⟨w', hlocks, hstatus, hperform⟩
  · refine .inl ⟨why, hperform, ?_⟩
    rw [hrun, hperform]
    simp [Except.isOk, Except.toBool]
  · refine .inr ⟨w', hlocks, hstatus, hperform, ?_⟩
    rw [hrun, hperform]
    simp [Except.isOk, Except.toBool, behind]

theorem round_reset (hin : InTouch p read w m) (hm : m.lock = some h)
    (hsize : w.locks.length = 1) (hfree : (w.lock 0).holder = none) :
    Round p read m .reset w (overwriting ⟨Site.storeActions p.store, some (Site.lockActions h)⟩
      (Operation.plan .reset) m.session w) := by
  obtain ⟨hzero, hlen⟩ := hin.handle h hm
  have hbody (o : Outcome Site Answer)
      (ho : Carried p (w.held h) (Operation.plan .reset (m.session.behind w h)) o) :
      Body p read m .reset w o :=
    .planned (m.session.behind w h) (w.held h) (hin.sound.of_phase rfl)
      ⟨rfl, rfl, rfl, rfl, fun _ => id⟩ rfl (fun haccess => by cases haccess) ho
  rcases overwriting_reset (h := h) hin.name (hzero ▸ hfree) with
    ⟨why, hperform, hrun⟩ | ⟨w', hlocks, hstatus, hperform, hrun⟩
  · rw [hrun]
    have hturn : Turn p m w _ _ :=
      turn_of_released (o := ⟨(.error (.store why) : Except Failure Answer),
        m.session.behind w h, false, w.held h⟩) hm hzero hlen hsize rfl fun _ => rfl
    refine ⟨hturn, ?_, hbody _ ?_⟩
    · refine ⟨hin.store, hin.name, hin.sound.of_phase rfl, ?_, ?_⟩
      · intro h' hm'
        exact hturn.seen ▸ hin.handle h' hm'
      · intro hcurrent hread
        refine hin.agrees (fun h' hm' => ?_) hread
        have hstale := (hcurrent h' hm').2
        rw [hm] at hm'
        cases hm'
        exact behind_stale.mp hstale
    · constructor <;> rw [hperform]
      all_goals first | rfl | exact ⟨rfl, rfl, rfl, rfl, fun _ => id⟩
  · rw [hrun]
    have hturn : Turn p m w _ _ :=
      turn_of_released (o := ⟨(.ok .done : Except Failure Answer),
        { m.session with phase := .empty, vaultToken := none, stale := false }, true, w'⟩)
        hm hzero hlen hsize hlocks (by simp)
    refine ⟨hturn, ?_, hbody _ ?_⟩
    · refine ⟨hin.store, hin.name, sound_of_idle (.inl rfl), ?_, fun _ _ => hstatus⟩
      intro h' hm'
      exact hturn.seen ▸ hin.handle h' hm'
    · constructor <;> rw [hperform]
      all_goals first | rfl | exact ⟨rfl, rfl, rfl, rfl, fun _ => id⟩

theorem round_run {op : Operation} (hin : InTouch p read w m) (hsize : w.locks.length = 1)
    (hfree : (w.lock 0).holder = none) (hop : ∀ blob, op ≠ .deserialize blob) :
    Round p read m op w (m.session.run m.host op w) := by
  have hstore : m.host.store = Site.storeActions p.store := by rw [Member.host, hin.store]
  unfold run
  split
  next why _ => exact round_keptOut hin hfree
  next =>
    cases hm : m.lock with
    | none =>
        have hlock : m.host.lock = none := by rw [Member.host, hm]; rfl
        have halone := round_alone hin hfree hop hm
        split
        next => simpa only [exclusive, hlock, hstore, hin.name] using halone
        next => simpa only [overwriting, hlock, hstore, hin.name] using halone
        next => simpa only [hstore, hin.name] using halone
    | some h =>
        rw [hin.host hm]
        split
        next => exact round_exclusive hin hm hsize hfree hop
        next haccess =>
          have hreset := eq_reset_of_overwriting haccess
          subst hreset
          exact round_reset hin hm hsize hfree
        next haccess =>
          rw [hin.name]
          exact round_unlocked hin hfree hop haccess

end Session

end DeviceAuth
