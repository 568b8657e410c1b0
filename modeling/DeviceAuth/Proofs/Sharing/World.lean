import DeviceAuth.Proofs.Sharing.Turn

namespace DeviceAuth.World

open Activation Session

inductive Action where
  | share (name source : String)
  | create (name : String) (config : Config) (setup : Setup)
  | resume (name : String) (config : Config) (setup : Setup) (handle : Option String)
  | perform (name : String) (op : Session.Operation)
  | close (name : String)
  | fail (reads writes : Bool)

def enrol (w : World) (name store : String) (lock : Option LockHandle) :
    Except Failure Session → World
  | .ok s => w.attach name store lock s
  | .error _ => w

def setFaults (w : World) (store : String) (reads writes : Bool) : World :=
  { w with site := w.site.setStore store ((w.site.store store).setFaults reads writes) }

def act (p : Place) (w : World) : Action → World
  | .share name source => (w.shareLock name source).getD w
  | .create name config setup => w.enrol name p.store none (Session.new setup config)
  | .resume name config setup handle =>
      w.enrol name p.store (handle.bind w.handles.get?) (w.openSession config setup p.store)
  | .perform name op => ((w.perform name op).map Prod.snd).getD w
  | .close name => w.close name
  | .fail reads writes => w.setFaults p.store reads writes

def Alone (w : World) (name : String) : Prop :=
  ∀ n, n ≠ name → w.members.get? n = none

def Spare (w : World) (name : String) (h : LockHandle) : Prop :=
  ∀ n m, n ≠ name → w.members.get? n = some m → ∃ k, m.lock = some k ∧ k ≠ h

theorem spare_of_entries {w : World} {name : String} {h : LockHandle}
    (he : ∀ e ∈ w.members.entries, e.1 ≠ name → e.2.lock.any (· != h) = true) :
    w.Spare name h := by
  intro n m hn hm
  obtain ⟨before, after, hentries, -⟩ := List.lookup_eq_some_iff.mp hm
  have hmem : (n, m) ∈ w.members.entries := by
    rw [hentries]
    exact List.mem_append_right _ List.mem_cons_self
  obtain ⟨k, hk, hne⟩ := Option.any_eq_true _ _ |>.mp (he _ hmem hn)
  exact ⟨k, hk, by simpa using hne⟩

-- What is done at a place: all sessions use its name, a session is alone or it has a handle of its
-- own that was made before it, and no session takes over a status that is given to it.
inductive Permits (p : Place) (w : World) : Action → Prop
  | share (name source : String) : Permits p w (.share name source)
  | create {name config setup} :
      setup.storageName config = p.name → w.Alone name → Permits p w (.create name config setup)
  | alone {name config setup} :
      setup.storageName config = p.name → w.Alone name → Permits p w (.resume name config setup none)
  | shared {name config setup handle h} :
      setup.storageName config = p.name → w.handles.get? handle = some h → w.Spare name h →
      Permits p w (.resume name config setup (some handle))
  | perform {name op} : (∀ blob, op ≠ .deserialize blob) → Permits p w (.perform name op)
  | close (name : String) : Permits p w (.close name)
  | fail (reads writes : Bool) : Permits p w (.fail reads writes)

def Writes (w : World) (name : String) (op : Session.Operation) : Prop :=
  ∃ m, w.members.get? name = some m ∧ (m.session.run m.host op w.site).modified = true

theorem writes_iff {w : World} {name : String} {op : Session.Operation} : w.Writes name op ↔
    (w.members.get? name).any (fun m => (m.session.run m.host op w.site).modified) = true := by
  rw [Option.any_eq_true]
  rfl

instance (w : World) (name : String) (op : Session.Operation) : Decidable (w.Writes name op) :=
  decidable_of_iff _ writes_iff.symm

def start (p : Place) (s : Store) (handle : String) : World :=
  newLock { site := { stores := Registry.empty.set p.store s } } handle

inductive Reachable (p : Place) : World → Prop
  | start (s : Store) (handle : String) : Reachable p (start p s handle)
  | act {w a} : Reachable p w → Permits p w a → Reachable p (w.act p a)

structure Coherent (p : Place) (read : Prop) (w : World) : Prop where
  size : w.site.locks.length = 1
  free : (w.site.lock 0).holder = none
  bounded : ∀ k, (w.site.lock 0).lastSeen k ≤ (w.site.lock 0).generation
  handles : ∀ n h, w.handles.get? n = some h →
    h.lock = 0 ∧ h.handle < (w.site.lock 0).seen.length
  members : ∀ n m, w.members.get? n = some m → InTouch p read w.site m
  apart : ∀ n m n' m', n ≠ n' → w.members.get? n = some m → w.members.get? n' = some m' →
    ∃ h h', m.lock = some h ∧ m'.lock = some h' ∧ h ≠ h'

section Steps

variable {p : Place} {read : Prop} {w : World}

theorem coherent_start (p : Place) (s : Store) (handle : String) :
    Coherent p read (start p s handle) := by
  refine ⟨rfl, rfl, ?_, ?_, ?_, ?_⟩
  · intro k
    cases k with
    | zero => exact Nat.le_refl 0
    | succ k => exact Nat.le_refl 0
  · intro n h hn
    change (Registry.set _ _ _).get? n = some h at hn
    rw [Registry.get?_set] at hn
    split at hn
    · cases hn
      exact ⟨rfl, Nat.zero_lt_one⟩
    · cases hn
  · intro n m hn
    cases hn
  · intro n m n' m' _ hn _
    cases hn

theorem coherent_fail (h : Coherent p read w) (reads writes : Bool) :
    Coherent p read (w.setFaults p.store reads writes) := by
  refine ⟨h.size, h.free, h.bounded, h.handles, ?_, h.apart⟩
  intro n m hn
  refine (h.members n m hn).of_same (Nat.le_refl _) fun hc => ⟨?_, hc⟩
  exact Place.blob_setStore p w.site _

theorem coherent_close (h : Coherent p read w) (name : String) :
    Coherent p read (w.close name) := by
  have hold {n m} (hn : (w.close name).members.get? n = some m) : w.members.get? n = some m := by
    change (w.members.erase name).get? n = some m at hn
    rw [Registry.get?_erase] at hn
    split at hn
    · cases hn
    · exact hn
  refine ⟨h.size, h.free, h.bounded, h.handles, ?_, ?_⟩
  · intro n m hn
    exact h.members n m (hold hn)
  · intro n m n' m' hne hn hn'
    exact h.apart n m n' m' hne (hold hn) (hold hn')

theorem shareLock_cases (h : Coherent p read w) (name source : String) :
    (w.shareLock name source).getD w = w ∨
    (w.shareLock name source).getD w = { w with
      site := w.site.setLock 0 (w.site.lock 0).share.1
      handles := w.handles.set name ⟨0, (w.site.lock 0).seen.length⟩ } := by
  cases hs : w.handles.get? source with
  | none =>
      left
      rw [shareLock, hs]
      rfl
  | some k =>
      right
      obtain ⟨n, j⟩ := k
      obtain ⟨hzero, -⟩ := h.handles source _ hs
      dsimp only at hzero
      subst hzero
      rw [shareLock, hs]
      rfl

theorem lock_share (h : Coherent p read w) :
    (w.site.setLock 0 (w.site.lock 0).share.1).lock 0 = (w.site.lock 0).share.1 := by
  refine Site.lock_setLock ?_ _
  rw [h.size]
  exact Nat.zero_lt_one

theorem current_of_share (h : Coherent p read w) {name : String} {m : Member} {k : LockHandle}
    {s : Session} (hm : w.members.get? name = some m) (hk : m.lock = some k)
    (hc : (w.site.setLock 0 (w.site.lock 0).share.1).Current k s) : w.site.Current k s := by
  obtain ⟨hzero, hlen⟩ := (h.members name m hm).handle k hk
  obtain ⟨hlast, hstale⟩ := hc
  rw [hzero, lock_share h, Lock.lastSeen_share_lt hlen] at hlast
  rw [Site.Current, hzero]
  exact ⟨hlast, hstale⟩

theorem coherent_share (h : Coherent p read w) (name source : String) :
    Coherent p read ((w.shareLock name source).getD w) := by
  rcases shareLock_cases h name source with hw | hw
  · rw [hw]
    exact h
  · have hgrown : (w.site.lock 0).seen.length < (w.site.lock 0).share.1.seen.length := by
      rw [Lock.length_share]
      exact Nat.lt_succ_self _
    rw [hw]
    refine ⟨(Site.length_setLock _ _ _).trans h.size, ?_, ?_, ?_, ?_, h.apart⟩
    · dsimp only
      rw [lock_share h]
      exact h.free
    · intro k
      dsimp only
      rw [lock_share h]
      exact Lock.lastSeen_share_le h.bounded k
    · intro n k hn
      dsimp only at hn ⊢
      rw [lock_share h]
      rw [Registry.get?_set] at hn
      split at hn
      · cases hn
        exact ⟨rfl, hgrown⟩
      · obtain ⟨hzero, hlen⟩ := h.handles n k hn
        exact ⟨hzero, Nat.lt_trans hlen hgrown⟩
    · intro n m hn
      refine (h.members n m hn).of_same ?_ fun hc => ⟨rfl, fun k hk => ?_⟩
      · dsimp only
        rw [lock_share h]
        exact Nat.le_of_lt hgrown
      · exact current_of_share h hn hk (hc k hk)

theorem get?_attach {name store n : String} {m : Member} {lock : Option LockHandle} {s : Session}
    (hn : (w.attach name store lock s).members.get? n = some m) :
    (n = name ∧ m = ⟨s, store, lock⟩) ∨ (n ≠ name ∧ w.members.get? n = some m) := by
  rw [attach, Registry.get?_set] at hn
  split at hn
  next he => exact .inl ⟨he, (Option.some.inj hn).symm⟩
  next he => exact .inr ⟨he, hn⟩

theorem coherent_enrol (h : Coherent p read w) {name : String} {lock : Option LockHandle}
    {made : Except Failure Session}
    (hmade : ∀ s, made = .ok s → InTouch p read w.site ⟨s, p.store, lock⟩)
    (hapart : ∀ n m, n ≠ name → w.members.get? n = some m →
      ∃ k k', m.lock = some k ∧ lock = some k' ∧ k ≠ k') :
    Coherent p read (w.enrol name p.store lock made) := by
  cases made with
  | error why => exact h
  | ok s =>
      refine ⟨h.size, h.free, h.bounded, h.handles, ?_, ?_⟩
      · intro n m hn
        rcases get?_attach hn with ⟨-, rfl⟩ | ⟨-, hold⟩
        · exact hmade s rfl
        · exact h.members n m hold
      · intro n m n' m' hne hn hn'
        rcases get?_attach hn with ⟨rfl, rfl⟩ | ⟨-, hold⟩ <;>
          rcases get?_attach hn' with ⟨rfl, rfl⟩ | ⟨hother, hold'⟩
        · exact absurd rfl hne
        · obtain ⟨k, k', hk, hk', hkk⟩ := hapart n' m' hother hold'
          exact ⟨k', k, hk', hk, hkk.symm⟩
        · exact hapart n m hne hold
        · exact h.apart n m n' m' hne hold hold'

theorem storageName_new {setup : Setup} {config : Config} {s : Session}
    (h : Session.new setup config = .ok s) :
    s.storageName = setup.storageName config ∧ s.phase = .empty ∧ s.stale = false := by
  obtain ⟨masterKey, -, hs⟩ := bind_eq_ok.mp h
  cases hs
  exact ⟨rfl, rfl, rfl⟩

theorem resume_eq_ok {setup : Setup} {config : Config} {stored : Except StoreFault (Option Bytes)}
    {s : Session} (h : Session.resume setup config stored = .ok s) :
    s.storageName = setup.storageName config ∧ s.stale = false ∧
    ∃ blob status, stored = .ok blob ∧ StoredStatus.ofBlob blob = .ok status ∧
      s.phase = .ofStored status := by
  obtain ⟨made, hmade, h⟩ := bind_eq_ok.mp h
  obtain ⟨hname, hphase, hstale⟩ := storageName_new hmade
  obtain ⟨blob, hblob, h⟩ := bind_eq_ok.mp h
  have hstored := mapError_eq_ok.mp hblob
  cases blob with
  | none =>
      cases h
      exact ⟨hname, hstale, none, .empty, hstored, rfl, hphase⟩
  | some b =>
      obtain ⟨status, hstatus, hs⟩ := bind_eq_ok.mp h
      cases hs
      exact ⟨hname, hstale, some b, status, hstored, hstatus, rfl⟩

theorem inTouch_resumed {setup : Setup} {config : Config} {lock : Option LockHandle} {s : Session}
    (hname : setup.storageName config = p.name)
    (hlock : ∀ k, lock = some k → k.lock = 0 ∧ k.handle < (w.site.lock 0).seen.length)
    (h : w.openSession config setup p.store = .ok s) :
    InTouch p read w.site ⟨s, p.store, lock⟩ := by
  obtain ⟨hs, -, blob, status, hstored, hstatus, hphase⟩ := resume_eq_ok h
  refine ⟨rfl, hs.trans hname, ?_, hlock, ?_⟩
  · exact sound_of_ofStored (StoredStatus.storable_of_ofBlob hstatus) hphase
  · intro _ _
    have hblob : p.blob w.site = blob := by
      rw [hname] at hstored
      unfold Store.load at hstored
      split at hstored
      · cases hstored
      · exact Except.ok.inj hstored
    rw [Place.status, hblob, hphase, Session.Phase.stored_ofStored]
    exact hstatus

theorem act_perform {name : String} {op : Session.Operation} {m : Member}
    (hm : w.members.get? name = some m) :
    w.act p (.perform name op) =
      { w with site := (m.session.run m.host op w.site).state }.attach name m.store m.lock
        (m.session.run m.host op w.site).session := by
  rw [act, perform, hm]
  rfl

theorem act_perform_none {name : String} {op : Session.Operation}
    (hm : w.members.get? name = none) : w.act p (.perform name op) = w := by
  rw [act, perform, hm]
  rfl

theorem Coherent.round (h : Coherent p read w) {name : String} {op : Session.Operation} {m : Member}
    (hm : w.members.get? name = some m) (hop : ∀ blob, op ≠ .deserialize blob) :
    Round p read m op w.site (m.session.run m.host op w.site) :=
  round_run (h.members name m hm) h.size h.free hop

theorem Coherent.zero (h : Coherent p read w) {name : String} {m : Member} {k : LockHandle}
    (hm : w.members.get? name = some m) (hk : m.lock = some k) : k.lock = 0 :=
  ((h.members name m hm).handle k hk).1

theorem Coherent.lock_free (h : Coherent p read w) {name : String} {m : Member} {k : LockHandle}
    (hm : w.members.get? name = some m) (hk : m.lock = some k) :
    (w.site.lock k.lock).holder = none := by
  rw [h.zero hm hk]
  exact h.free

theorem Coherent.handle_ne (h : Coherent p read w) {name other : String} {m m' : Member}
    {k k' : LockHandle} (hm : w.members.get? name = some m) (hm' : w.members.get? other = some m')
    (hne : name ≠ other) (hk : m.lock = some k) (hk' : m'.lock = some k') :
    k.handle ≠ k'.handle := by
  obtain ⟨j, j', hj, hj', hjj⟩ := h.apart name m other m' hne hm hm'
  have hzero := h.zero hm hk
  have hzero' := h.zero hm' hk'
  rw [hk] at hj
  rw [hk'] at hj'
  cases hj
  cases hj'
  intro he
  cases k
  cases k'
  simp_all

theorem current_of_perform (h : Coherent p read w) {name other : String} {m m' : Member}
    {op : Session.Operation} {k : LockHandle} {s : Session} (hm : w.members.get? name = some m)
    (hm' : w.members.get? other = some m') (hne : name ≠ other)
    (hop : ∀ blob, op ≠ .deserialize blob) (hk : m'.lock = some k)
    (hc : (m.session.run m.host op w.site).state.Current k s) :
    (m.session.run m.host op w.site).modified = false ∧ w.site.Current k s := by
  obtain ⟨j, j', hj, hj', -⟩ := h.apart name m other m' hne hm hm'
  have hhandle := h.handle_ne hm hm' hne hj hk
  obtain ⟨hlast, hstale⟩ := hc
  rw [h.zero hm' hk] at hlast
  obtain ⟨hmod, hbefore⟩ :=
    (h.round hm hop).turn.others j hj k.handle hhandle.symm h.bounded hlast
  refine ⟨hmod, ?_⟩
  rw [Site.Current, h.zero hm' hk]
  exact ⟨hbefore, hstale⟩

theorem coherent_perform (h : Coherent p read w) {name : String} {op : Session.Operation}
    (hop : ∀ blob, op ≠ .deserialize blob) : Coherent p read (w.act p (.perform name op)) := by
  cases hm : w.members.get? name with
  | none =>
      rw [act_perform_none hm]
      exact h
  | some m =>
      rw [act_perform hm]
      have hround := h.round hm hop
      have hturn := hround.turn
      refine ⟨hturn.size.trans h.size, hturn.free, hturn.bounded h.bounded, ?_, ?_, ?_⟩
      · intro n k hn
        obtain ⟨hzero, hlen⟩ := h.handles n k hn
        exact ⟨hzero, hturn.seen ▸ hlen⟩
      · intro n m' hn
        rcases get?_attach hn with ⟨-, rfl⟩ | ⟨hne, hold⟩
        · exact hround.inTouch
        · obtain ⟨-, k, -, hk, -⟩ := h.apart name m n m' hne.symm hm hold
          refine (h.members n m' hold).of_same (Nat.le_of_eq hturn.seen.symm) fun hc => ?_
          obtain ⟨hmod, -⟩ := current_of_perform h hm hold hne.symm hop hk (hc k hk)
          refine ⟨hturn.kept hmod, fun j hj => ?_⟩
          exact (current_of_perform h hm hold hne.symm hop hj (hc j hj)).2
      · intro n m₁ n' m₂ hne hn hn'
        rcases get?_attach hn with ⟨rfl, rfl⟩ | ⟨-, hold⟩ <;>
          rcases get?_attach hn' with ⟨rfl, rfl⟩ | ⟨-, hold'⟩
        · exact absurd rfl hne
        · exact h.apart n m n' m₂ hne hm hold'
        · exact h.apart n m₁ n' m hne hold hm
        · exact h.apart n m₁ n' m₂ hne hold hold'

-- A session that is made without reading may stand for less than what is stored.
def Action.reads : Action → Prop
  | .create .. => False
  | _ => True

theorem coherent_act {a : Action} (h : Coherent p read w) (hp : Permits p w a)
    (hread : read → a.reads) : Coherent p read (w.act p a) := by
  cases hp with
  | share name source => exact coherent_share h name source
  | @create name config setup hname halone =>
      refine coherent_enrol h (fun s hs => ?_) fun n m hne hn => ?_
      · obtain ⟨hs, hphase, -⟩ := storageName_new hs
        refine ⟨rfl, hs.trans hname, sound_of_idle (.inl hphase), ?_, ?_⟩
        · intro k hk
          cases hk
        · intro _ hstored
          rcases hstored rfl with hr | hr
          · exact absurd (hread hr) id
          · dsimp only at hr
            rw [hphase] at hr
            exact absurd rfl hr
      · rw [halone n hne] at hn
        cases hn
  | @alone name config setup hname halone =>
      refine coherent_enrol h (fun s hs => ?_) fun n m hne hn => ?_
      · exact inTouch_resumed hname (fun k hk => by cases hk) hs
      · rw [halone n hne] at hn
        cases hn
  | @shared name config setup handle k hname hk hspare =>
      have hlock : (some handle).bind w.handles.get? = some k := hk
      rw [act, hlock]
      refine coherent_enrol h (fun s hs => ?_) fun n m hne hn => ?_
      · refine inTouch_resumed hname (fun j hj => ?_) hs
        cases hj
        exact h.handles handle k hk
      · obtain ⟨j, hj, hjk⟩ := hspare n m hne hn
        exact ⟨j, k, hj, rfl, hjk⟩
  | perform hop => exact coherent_perform h hop
  | close name => exact coherent_close h name
  | fail reads writes => exact coherent_fail h reads writes

theorem coherent_of_reachable (h : Reachable p w) : Coherent p False w := by
  induction h with
  | start s handle => exact coherent_start p s handle
  | act _ hp ih => exact coherent_act ih hp False.elim

end Steps

end DeviceAuth.World
