import DeviceAuth.Lock

namespace DeviceAuth

namespace Lock

theorem lastSeen_observe_self {l : Lock} {h : Nat} (hh : h < l.seen.length) :
    (l.observe h).lastSeen h = l.generation := by
  simp [observe, lastSeen, List.getD_eq_getElem?_getD, hh]

theorem lastSeen_observe_ne {l : Lock} {h k : Nat} (hk : k ≠ h) :
    (l.observe h).lastSeen k = l.lastSeen k := by
  simp [observe, lastSeen, List.getD_eq_getElem?_getD, List.getElem?_set_ne hk.symm]

theorem length_share (l : Lock) : l.share.1.seen.length = l.seen.length + 1 := by
  simp [share]

theorem lastSeen_share_lt {l : Lock} {k : Nat} (hk : k < l.seen.length) :
    l.share.1.lastSeen k = l.lastSeen k := by
  simp [share, lastSeen, List.getD_eq_getElem?_getD, List.getElem?_append_left hk]

theorem lastSeen_share_le {l : Lock} (h : ∀ k, l.lastSeen k ≤ l.generation) (k : Nat) :
    l.share.1.lastSeen k ≤ l.generation := by
  rcases Nat.lt_trichotomy k l.seen.length with hk | hk | hk
  · rw [lastSeen_share_lt hk]
    exact h k
  · subst hk
    simp [share, lastSeen, List.getD_eq_getElem?_getD]
  · have hout : (l.seen ++ [l.generation]).length ≤ k := by
      rw [List.length_append, List.length_singleton]
      omega
    rw [share, lastSeen, List.getD_eq_getElem?_getD, List.getElem?_eq_none hout]
    exact Nat.zero_le _

def taken (l : Lock) (h : Nat) : Lock :=
  { l.observe h with holder := some h }

theorem acquire?_free {l : Lock} (hfree : l.holder = none) (h : Nat) :
    l.acquire? h = some (l.lastSeen h != l.generation, l.taken h) := by
  have hf : l.isFree = true := by rw [isFree, hfree]; rfl
  rw [acquire?, if_pos hf]
  rfl

structure Passed (l : Lock) (h : Nat) (modified : Bool) (l' : Lock) : Prop where
  free : l'.holder = none
  size : l'.seen.length = l.seen.length
  generation : l'.generation = if modified then l.generation + 1 else l.generation
  own : l'.lastSeen h = l'.generation
  others : ∀ k, k ≠ h → l'.lastSeen k = l.lastSeen k

theorem passed_release {l : Lock} {h : Nat} (hh : h < l.seen.length) (modified : Bool) :
    Passed l h modified ((l.taken h).release h modified) := by
  have hlen : h < (l.observe h).seen.length := by simpa [observe] using hh
  refine ⟨rfl, by simp [release, taken, observe], rfl, ?_, ?_⟩
  · have hown := lastSeen_observe_self (l := { l.taken h with
      generation := if modified then l.generation + 1 else l.generation }) (h := h) hlen
    exact hown
  · intro k hk
    have hfirst := lastSeen_observe_ne (l := l) hk
    have hsecond := lastSeen_observe_ne (l := { l.taken h with
      generation := if modified then l.generation + 1 else l.generation }) hk
    exact hsecond.trans hfirst

inductive Event where
  | share (handle : Nat)
  | acquire (handle : Nat) (changed : Bool)
  | release (handle : Nat) (modified : Bool)
  deriving DecidableEq

namespace Event

def handle : Event → Nat
  | share h => h
  | acquire h _ => h
  | release h _ => h

def modifies : Event → Bool
  | release _ modified => modified
  | _ => false

end Event

-- Lists of events have the latest first.

def since (h : Nat) (es : List Event) : List Event :=
  es.takeWhile (·.handle != h)

def Holds (es : List Event) (h : Nat) : Prop :=
  ∃ changed, es.find? (·.handle == h) = some (.acquire h changed)

-- Another handle has given the lock back with a change since `h` was made, took the lock or gave it
-- back.
def Missed (es : List Event) (h : Nat) : Prop :=
  ∃ k, k ≠ h ∧ .release k true ∈ since h es

-- The calls on one lock and its handles, in any order in which a handle gives back only what it
-- holds. An `acquire` that waits is no event until it returns.
inductive History : List Event → Lock → Prop
  | new : History [] {}
  | share {es l} : History es l → History (.share l.share.2 :: es) l.share.1
  | acquire {es l l' h changed} : History es l → h < l.seen.length →
      l.acquire? h = some (changed, l') → History (.acquire h changed :: es) l'
  | release {es l h} (modified : Bool) : History es l → Holds es h →
      History (.release h modified :: es) (l.release h modified)

-- The lock after `es`. What a handle has not seen are the changes since its last event.
structure Recorded (es : List Event) (l : Lock) : Prop where
  known : ∀ e ∈ es, e.handle < l.seen.length
  holder : ∀ h, l.holder = some h ↔ Holds es h
  generation : l.generation = es.countP Event.modifies
  unseen : ∀ h < l.seen.length,
    l.lastSeen h + (since h es).countP Event.modifies = l.generation

section Histories

variable {l l' : Lock} {es : List Event} {e : Event} {h k : Nat} {changed modified : Bool}

theorem since_cons : since h (e :: es) = if e.handle = h then [] else e :: since h es := by
  by_cases he : e.handle = h <;> simp [since, he]

theorem holds_cons :
    Holds (e :: es) h ↔ if e.handle = h then ∃ changed, e = .acquire h changed else Holds es h := by
  by_cases he : e.handle = h <;> simp [Holds, he]

theorem missed_iff : Missed es h ↔ 0 < (since h es).countP Event.modifies := by
  rw [List.countP_pos_iff]
  constructor
  · rintro ⟨k, -, hk⟩
    exact ⟨_, hk, rfl⟩
  · rintro ⟨e, he, hmodifies⟩
    have hother : (e.handle != h) = true := List.all_eq_true.mp (List.all_takeWhile ..) e he
    cases e with
    | share | acquire => cases hmodifies
    | release k modified =>
        obtain rfl : modified = true := hmodifies
        exact ⟨k, by simpa [Event.handle] using hother, he⟩

theorem Recorded.lt_of_holds (hr : Recorded es l) (hh : Holds es h) : h < l.seen.length := by
  obtain ⟨changed, hfind⟩ := hh
  exact hr.known _ (List.mem_of_find?_eq_some hfind)

theorem Recorded.eq_of_holds (hr : Recorded es l) (hh : Holds es h) (hk : Holds es k) : h = k :=
  Option.some.inj (((hr.holder h).mpr hh).symm.trans ((hr.holder k).mpr hk))

theorem recorded_new : Recorded [] {} where
  known := by simp
  holder := by simp [Holds]
  generation := rfl
  unseen h hh := by
    obtain rfl : h = 0 := by simpa using hh
    rfl

theorem Recorded.share (hr : Recorded es l) : Recorded (.share l.share.2 :: es) l.share.1 := by
  have hlength := l.length_share
  have hnew : l.share.2 = l.seen.length := rfl
  refine ⟨?_, fun h => ?_, ?_, fun h hh => ?_⟩
  · rw [hlength]
    exact List.forall_mem_cons.mpr
      ⟨Nat.lt_succ_self _, fun e he => Nat.lt_succ_of_lt (hr.known e he)⟩
  · rw [holds_cons, Event.handle, hnew]
    split
    next heq =>
      -- Nothing is held under a number that has not been given out.
      have hfree : ¬Holds es h := fun hh => Nat.lt_irrefl _ (heq ▸ hr.lt_of_holds hh)
      simpa [Lock.share, ← hr.holder h] using hfree
    next => exact hr.holder h
  · rw [List.countP_cons_of_neg (by simp [Event.modifies])]
    exact hr.generation
  · rw [since_cons, Event.handle, hnew]
    split
    next heq =>
      subst heq
      simp [Lock.share, lastSeen, List.getD_eq_getElem?_getD]
    next hne =>
      have hold : h < l.seen.length := by omega
      rw [List.countP_cons_of_neg (by simp [Event.modifies]), lastSeen_share_lt hold]
      exact hr.unseen h hold

theorem acquire?_eq_some :
    l.acquire? h = some (changed, l') ↔
      l.holder = none ∧ changed = (l.lastSeen h != l.generation) ∧ l' = l.taken h := by
  cases hholder : l.holder with
  | none =>
      rw [acquire?_free hholder]
      simp [eq_comm]
  | some k => simp [acquire?, isFree, hholder]

theorem Recorded.acquire (hr : Recorded es l) (hh : h < l.seen.length) (hfree : l.holder = none) :
    Recorded (.acquire h changed :: es) (l.taken h) := by
  have hlength : (l.taken h).seen.length = l.seen.length := by simp [taken, observe]
  refine ⟨?_, fun k => ?_, ?_, fun k hk => ?_⟩
  · rw [hlength]
    exact List.forall_mem_cons.mpr ⟨hh, hr.known⟩
  · rw [holds_cons, Event.handle]
    split
    next heq => simp [taken, heq]
    next hne =>
      rw [← hr.holder k, hfree]
      simp [taken, hne]
  · rw [List.countP_cons_of_neg (by simp [Event.modifies])]
    exact hr.generation
  · rw [since_cons, Event.handle]
    split
    next heq => exact heq ▸ lastSeen_observe_self hh
    next hne =>
      have hkept : (l.taken h).lastSeen k = l.lastSeen k := lastSeen_observe_ne (Ne.symm hne)
      rw [List.countP_cons_of_neg (by simp [Event.modifies]), hkept]
      exact hr.unseen k (hlength ▸ hk)

theorem Recorded.release (hr : Recorded es l) (hh : Holds es h) :
    Recorded (.release h modified :: es) (l.release h modified) := by
  have hlength : (l.release h modified).seen.length = l.seen.length := by
    simp [Lock.release, observe]
  have hgeneration : (l.release h modified).generation = l.generation + modified.toNat := by
    cases modified <;> rfl
  have hcount (es : List Event) : (Event.release h modified :: es).countP Event.modifies =
      es.countP Event.modifies + modified.toNat := by
    cases modified <;> simp [List.countP_cons, Event.modifies]
  have hlt := hr.lt_of_holds hh
  refine ⟨?_, fun k => ?_, ?_, fun k hk => ?_⟩
  · rw [hlength]
    exact List.forall_mem_cons.mpr ⟨hlt, hr.known⟩
  · rw [holds_cons, Event.handle]
    split
    next => simp [Lock.release]
    next hne =>
      have hother : ¬Holds es k := fun hk => hne (hr.eq_of_holds hh hk)
      simpa [Lock.release] using hother
  · rw [hcount, hgeneration, hr.generation]
  · rw [since_cons, Event.handle]
    split
    next heq => exact heq ▸ lastSeen_observe_self hlt
    next hne =>
      have hkept : (l.release h modified).lastSeen k = l.lastSeen k :=
        lastSeen_observe_ne (Ne.symm hne)
      rw [hcount, hgeneration, hkept, ← hr.unseen k (hlength ▸ hk), Nat.add_assoc]

theorem recorded_of_history (hist : History es l) : Recorded es l := by
  induction hist with
  | new => exact recorded_new
  | share _ ih => exact ih.share
  | acquire _ hh ha ih =>
      obtain ⟨hfree, -, rfl⟩ := acquire?_eq_some.mp ha
      exact ih.acquire hh hfree
  | release _ _ hheld ih => exact ih.release hheld

theorem Recorded.missed_iff (hr : Recorded es l) (hh : h < l.seen.length) :
    (l.lastSeen h != l.generation) = true ↔ Missed es h := by
  have hunseen := hr.unseen h hh
  rw [bne_iff_ne, Lock.missed_iff]
  omega

theorem Recorded.acquirable_iff (hr : Recorded es l) :
    (∃ answer, l.acquire? h = some answer) ↔ ∀ k, ¬Holds es k := by
  constructor
  · rintro ⟨⟨changed, l'⟩, ha⟩ k hk
    obtain ⟨hfree, -⟩ := acquire?_eq_some.mp ha
    rw [(hr.holder k).mpr hk] at hfree
    cases hfree
  · intro hnone
    have hfree : l.holder = none :=
      Option.eq_none_iff_forall_ne_some.mpr fun k hk => hnone k ((hr.holder k).mp hk)
    exact ⟨_, acquire?_free hfree h⟩

theorem History.before {later : List Event} (hist : History (later ++ es) l) :
    ∃ m, History es m := by
  induction later generalizing l with
  | nil => exact ⟨l, hist⟩
  | cons e later ih =>
      cases hist with
      | share hist | acquire hist | release _ hist => exact ih hist

end Histories

theorem changes_never_missed {es : List Event} {l : Lock} (hist : History es l) :
    (∀ later h changed earlier, es = later ++ .acquire h changed :: earlier →
      (changed = true ↔ Missed earlier h)) ∧
    (∀ later earlier, es = later ++ earlier →
      ∀ h k, Holds earlier h → Holds earlier k → h = k) ∧
    (∀ h, (∃ answer, l.acquire? h = some answer) ↔ ∀ k, ¬Holds es k) ∧
    l.generation = es.countP Event.modifies ∧ ∀ h < l.seen.length, l.lastSeen h ≤ l.generation := by
  have hr := recorded_of_history hist
  refine ⟨?_, ?_, fun _ => hr.acquirable_iff, hr.generation, fun h hh => ?_⟩
  · rintro later h changed earlier rfl
    obtain ⟨m, hbefore⟩ := hist.before
    cases hbefore with
    | acquire hbefore hh ha =>
        obtain ⟨-, rfl, -⟩ := acquire?_eq_some.mp ha
        exact (recorded_of_history hbefore).missed_iff hh
  · rintro later earlier rfl h k hh hk
    obtain ⟨m, hbefore⟩ := hist.before
    exact (recorded_of_history hbefore).eq_of_holds hh hk
  · have hunseen := hr.unseen h hh
    omega

theorem second_told_third_not : ∃ l,
    History [.acquire 2 false, .release 1 false, .acquire 1 true, .share 2, .release 0 true,
      .acquire 0 false, .share 1] l ∧
    Missed [.share 2, .release 0 true, .acquire 0 false, .share 1] 1 ∧
    ¬Missed [.release 1 false, .acquire 1 true, .share 2, .release 0 true, .acquire 0 false,
      .share 1] 2 := by
  have hchanged := (History.new.share.acquire (h := 0) (by decide) rfl).release (h := 0) true
    ⟨false, rfl⟩
  have hread := (hchanged.share.acquire (h := 1) (by decide) rfl).release (h := 1) false
    ⟨true, rfl⟩
  have hist := hread.acquire (h := 2) (by decide) rfl
  have htold := (changes_never_missed hist).1
  refine ⟨_, hist, (htold [_, _] 1 true _ rfl).mp rfl, fun hmissed => ?_⟩
  cases (htold [] 2 false _ rfl).mpr hmissed

end Lock

end DeviceAuth
