import DeviceAuth.Proofs.Session.Refusal

namespace DeviceAuth.Session

open Activation

inductive Call where
  | acquire (changed : Bool)
  | release (modified : Bool)
  | load (name : String) (stored : Except StoreFault (Option Bytes))
  | save (name : String) (data : Bytes) (answer : Except StoreFault Unit)
  | remove (name : String) (answer : Except StoreFault Unit)

namespace Call

def ofStore : Call → Bool
  | .acquire _ | .release _ => false
  | _ => true

def wrote : Call → Bool
  | .save _ _ answer | .remove _ answer => answer.isOk
  | _ => false

end Call

variable {σ α : Type}

namespace StoreActions

def recorded (store : StoreActions σ) : StoreActions (σ × List Call) where
  load name w :=
    let (stored, v) := store.load name w.1
    (stored, v, w.2 ++ [.load name stored])
  save name data w :=
    let (answer, v) := store.save name data w.1
    (answer, v, w.2 ++ [.save name data answer])
  remove name w :=
    let (answer, v) := store.remove name w.1
    (answer, v, w.2 ++ [.remove name answer])

end StoreActions

def LockActions.recorded (lock : LockActions σ) : LockActions (σ × List Call) where
  acquire w :=
    let (changed, v) := lock.acquire w.1
    (changed, v, w.2 ++ [.acquire changed])
  release modified w := (lock.release modified w.1, w.2 ++ [.release modified])

-- The same host, which also notes every call.
def Host.recorded (host : Host σ) : Host (σ × List Call) where
  store := host.store.recorded
  lock := host.lock.map LockActions.recorded

def calls (host : Host σ) (op : Operation) (s : Session) (w : σ) : List Call :=
  (s.run host.recorded op (w, [])).state.2

def Outcome.recorded (o : Outcome σ α) (log : List Call) : Outcome (σ × List Call) α :=
  ⟨o.answer, o.session, o.modified, o.state, log⟩

def Change.call (name : String) (answer : Except StoreFault Unit) : Change → Call
  | .save status => .save name status.encode answer
  | .remove => .remove name answer

def Plan.calls (store : StoreActions σ) (name : String) (w : σ) : Plan α → List Call
  | .write _ change _ _ => [change.call name (change.apply store name w).1]
  | _ => []

def entering (store : StoreActions σ) (lock : LockActions σ) (s : Session) (w : σ) : List Call :=
  if (lock.acquire w).1 || s.stale then
    [.load s.storageName (store.load s.storageName (lock.acquire w).2).1]
  else []

def exclusiveCalls (store : StoreActions σ) (lock : LockActions σ) (plan : Session → Plan α)
    (s : Session) (w : σ) : List Call :=
  let o := s.enter store lock w
  s.entering store lock w ++
    match o.answer with
    | .error _ => []
    | .ok _ => (plan o.session).calls store s.storageName o.state

def overwritingCalls (store : StoreActions σ) (lock : LockActions σ) (plan : Session → Plan α)
    (s : Session) (w : σ) : List Call :=
  (plan { s with stale := s.stale || (lock.acquire w).1 }).calls store s.storageName
    (lock.acquire w).2

def guardedCalls (store : StoreActions σ) (lock : LockActions σ) (op : Operation) (s : Session)
    (w : σ) : List Call :=
  match op.access with
  | .exclusive => s.exclusiveCalls store lock op.plan w
  | .overwriting => s.overwritingCalls store lock op.plan w
  | .unlocked => []

def bracketed (changed : Bool) (inner : List Call) : List Call :=
  .acquire changed :: inner ++ [.release (inner.any Call.wrote)]

section Recording

variable {store : StoreActions σ} {lock : LockActions σ} {host : Host σ} {name : String} {w : σ}
  {log : List Call}

theorem Change.apply_recorded (change : Change) :
    change.apply store.recorded name (w, log) =
      ((change.apply store name w).1, (change.apply store name w).2,
        log ++ [change.call name (change.apply store name w).1]) := by
  cases change <;> rfl

theorem perform_recorded (plan : Plan α) :
    plan.perform store.recorded name (w, log) =
      (plan.perform store name w).recorded (log ++ plan.calls store name w) := by
  cases plan with
  | refuse s why => simp only [Plan.perform, Plan.calls, List.append_nil, Outcome.recorded]
  | keep s a => simp only [Plan.perform, Plan.calls, List.append_nil, Outcome.recorded]
  | write before change after a =>
      simp only [Plan.perform, Plan.calls, Change.apply_recorded]
      generalize change.apply store name w = made
      obtain ⟨answer, w'⟩ := made
      cases answer <;> rfl

theorem modified_perform (plan : Plan α) :
    (plan.perform store name w).modified = (plan.calls store name w).any Call.wrote := by
  cases plan with
  | refuse s why => rfl
  | keep s a => rfl
  | write before change after a =>
      simp only [Plan.perform, Plan.calls, List.any_cons, List.any_nil, Bool.or_false]
      generalize change.apply store name w = made
      obtain ⟨answer, w'⟩ := made
      cases answer <;> cases change <;> rfl

theorem ofStore_of_mem_calls {plan : Plan α} {c : Call} (h : c ∈ plan.calls store name w) :
    c.ofStore = true := by
  cases plan with
  | refuse s why => cases h
  | keep s a => cases h
  | write before change after a =>
      obtain rfl := List.mem_singleton.mp h
      cases change <;> rfl

theorem reload_recorded (s : Session) :
    s.reload store.recorded (w, log) =
      (s.reload store w).recorded
        (log ++ [.load s.storageName (store.load s.storageName w).1]) := by
  have hname : storageName { s with vaultToken := none, stale := true } = s.storageName := rfl
  simp only [reload, StoreActions.recorded, hname]
  split <;> rfl

theorem enter_recorded (s : Session) :
    s.enter store.recorded lock.recorded (w, log) =
      (s.enter store lock w).recorded
        (log ++ (.acquire (lock.acquire w).1 :: s.entering store lock w)) := by
  have hacquire : lock.recorded.acquire (w, log) =
      ((lock.acquire w).1, (lock.acquire w).2, log ++ [.acquire (lock.acquire w).1]) := rfl
  unfold enter entering
  rw [hacquire]
  dsimp only
  split
  next => rw [reload_recorded, List.append_assoc, List.singleton_append]
  next => rfl

section Lock

variable {plan : Session → Plan α}

theorem lock_recorded (hlock : host.lock = some lock) :
    host.recorded.lock = some lock.recorded := by
  rw [Host.recorded, hlock]
  rfl

theorem lock_recorded_none (hlock : host.lock = none) : host.recorded.lock = none := by
  rw [Host.recorded, hlock]
  rfl

theorem exclusive_recorded (hlock : host.lock = some lock) (s : Session) :
    exclusive host.recorded plan s (w, log) = (exclusive host plan s w).recorded
      (log ++ bracketed (lock.acquire w).1 (s.exclusiveCalls host.store lock plan w)) := by
  have hstore : host.recorded.store = host.store.recorded := rfl
  have hentering : (s.entering host.store lock w).any Call.wrote = false := by
    unfold entering
    split <;> rfl
  unfold exclusive exclusiveCalls bracketed
  rw [lock_recorded hlock, hlock, hstore]
  dsimp only
  rw [enter_recorded]
  generalize s.enter host.store lock w = o
  obtain ⟨answer, t, modified, w'⟩ := o
  cases answer with
  | error why => simp [Outcome.recorded, Outcome.released, LockActions.recorded, hentering]
  | ok _ =>
      simp only [Outcome.recorded, perform_recorded, List.any_append, hentering, Bool.false_or,
        ← modified_perform, Outcome.released, LockActions.recorded, List.append_assoc,
        List.cons_append]

theorem overwriting_recorded (hlock : host.lock = some lock) (s : Session) :
    overwriting host.recorded plan s (w, log) = (overwriting host plan s w).recorded
      (log ++ bracketed (lock.acquire w).1 (s.overwritingCalls host.store lock plan w)) := by
  have hstore : host.recorded.store = host.store.recorded := rfl
  have hname : storageName { s with stale := s.stale || (lock.acquire w).1 } = s.storageName := rfl
  unfold overwriting overwritingCalls bracketed
  rw [lock_recorded hlock, hlock, hstore]
  simp only [perform_recorded, Outcome.recorded, ← modified_perform, Outcome.released,
    LockActions.recorded, List.append_assoc, List.cons_append, List.nil_append, hname]

end Lock

section Run

variable {op : Operation} {s : Session} {why : Failure}

theorem run_refused (hrefusal : op.refusal? = some why) (s : Session) (w : σ) :
    s.run host op w = ⟨.error why, s, false, w⟩ := by
  simp only [run, hrefusal]

theorem run_recorded_refused (hrefusal : op.refusal? = some why) :
    s.run host.recorded op (w, []) = (s.run host op w).recorded [] := by
  rw [run_refused hrefusal, run_refused hrefusal]
  rfl

theorem run_recorded_lockless (hlock : host.lock = none) (hrefusal : op.refusal? = none) :
    s.run host.recorded op (w, []) =
      (s.run host op w).recorded ((op.plan s).calls host.store s.storageName w) := by
  rw [run_lockless hlock hrefusal, run_lockless (lock_recorded_none hlock) hrefusal]
  exact perform_recorded _

theorem calls_of_unlocked (haccess : op.access = .unlocked) :
    (op.plan s).calls store name w = [] := by
  have heffect := plan_effect s op
  generalize op.plan s = plan at heffect ⊢
  cases heffect <;> first | rfl | cases haccess

theorem run_recorded_locked (hlock : host.lock = some lock) (hrefusal : op.refusal? = none) :
    s.run host.recorded op (w, []) = (s.run host op w).recorded
      (if op.access = .unlocked then []
        else bracketed (lock.acquire w).1 (s.guardedCalls host.store lock op w)) := by
  simp only [run, hrefusal, guardedCalls]
  cases haccess : op.access with
  | exclusive => exact exclusive_recorded hlock s
  | overwriting => exact overwriting_recorded hlock s
  | unlocked =>
      refine (perform_recorded (op.plan s)).trans ?_
      rw [calls_of_unlocked haccess]
      rfl

theorem run_recorded (host : Host σ) (op : Operation) (s : Session) (w : σ) :
    s.run host.recorded op (w, []) = (s.run host op w).recorded (s.calls host op w) := by
  suffices h : ∃ log, s.run host.recorded op (w, []) = (s.run host op w).recorded log by
    obtain ⟨log, hlog⟩ := h
    rw [calls, hlog]
    rfl
  cases hrefusal : op.refusal? with
  | some why => exact ⟨_, run_recorded_refused hrefusal⟩
  | none =>
      cases hlock : host.lock with
      | none => exact ⟨_, run_recorded_lockless hlock hrefusal⟩
      | some lock => exact ⟨_, run_recorded_locked hlock hrefusal⟩

theorem calls_refused (hrefusal : op.refusal? = some why) : s.calls host op w = [] := by
  rw [calls, run_recorded_refused hrefusal]
  rfl

theorem calls_lockless (hlock : host.lock = none) (hrefusal : op.refusal? = none) :
    s.calls host op w = (op.plan s).calls host.store s.storageName w := by
  rw [calls, run_recorded_lockless hlock hrefusal]
  rfl

theorem run_lockless_cases (hlock : host.lock = none) (op : Operation) (s : Session) (w : σ) :
    (∃ why, s.run host op w = ⟨.error why, s, false, w⟩ ∧ s.calls host op w = []) ∨
      (s.run host op w = (op.plan s).perform host.store s.storageName w ∧
        s.calls host op w = (op.plan s).calls host.store s.storageName w) := by
  cases hrefusal : op.refusal? with
  | some why => exact .inl ⟨why, run_refused hrefusal s w, calls_refused hrefusal⟩
  | none => exact .inr ⟨run_lockless hlock hrefusal s w, calls_lockless hlock hrefusal⟩

theorem calls_locked (hlock : host.lock = some lock) (hrefusal : op.refusal? = none) :
    s.calls host op w = if op.access = .unlocked then []
      else bracketed (lock.acquire w).1 (s.guardedCalls host.store lock op w) := by
  rw [calls, run_recorded_locked hlock hrefusal]
  rfl

end Run

end Recording

end DeviceAuth.Session
