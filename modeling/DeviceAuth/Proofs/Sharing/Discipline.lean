import DeviceAuth.Proofs.Session.Calls
import DeviceAuth.Proofs.Sharing.VaultToken

namespace DeviceAuth.Session

open Activation

variable {σ : Type} {host : Host σ} {lock : LockActions σ} {store : StoreActions σ} {name : String}
  {s : Session} {op : Operation} {w : σ} {missed : Bool}

-- Whether a change has been missed, after one more call. Taking the lock may tell of one; reading a
-- status, or removing what is stored, makes up for it.
def Call.behind (missed : Bool) : Call → Bool
  | .acquire changed => missed || changed
  | .load _ stored => !(Phase.load stored).isOk
  | .remove _ answer => missed && !answer.isOk
  | _ => missed

def Step.calls (host : Host σ) (e : Step σ) : List Call :=
  e.before.calls host e.op e.state

def Behind (host : Host σ) (past : List (Step σ)) : Bool :=
  (past.flatMap (Step.calls host)).foldl Call.behind false

theorem behind_calls_false (plan : Plan Answer) :
    (plan.calls store name w).foldl Call.behind false = false := by
  cases plan with
  | refuse after why => rfl
  | keep after a => rfl
  | write before change after a => cases change <;> rfl

theorem stale_perform (op : Operation) (s : Session) :
    ((op.plan s).perform store name w).session.stale = s.stale := by
  have heffect := plan_effect s op
  generalize op.plan s = plan at heffect ⊢
  cases heffect <;>
    first
      | rfl
      | exact Plan.session_of_write (P := fun t => t.stale = s.stale) rfl rfl

theorem reload_of_error {why : Failure}
    (h : Phase.load (store.load s.storageName w).1 = .error why) :
    s.reload store w = ⟨.error why, { s with vaultToken := none, stale := true }, false,
      (store.load s.storageName w).2⟩ := by
  have hname : storageName { s with vaultToken := none, stale := true } = s.storageName := rfl
  simp only [reload, hname, h]

theorem reload_of_ok {phase : Phase} (h : Phase.load (store.load s.storageName w).1 = .ok phase) :
    s.reload store w = ⟨.ok (), { s with vaultToken := none, phase, stale := false }, false,
      (store.load s.storageName w).2⟩ := by
  have hname : storageName { s with vaultToken := none, stale := true } = s.storageName := rfl
  simp only [reload, hname, h]

-- The status is read first. Where that fails, its failure is the answer and nothing else is done;
-- otherwise the operation is carried out by the session that has taken over what was read.
inductive CatchesUp (host : Host σ) (op : Operation) (s : Session) (v : σ) (o : Outcome σ Answer) :
    List Call → Prop
  | unread {why : Failure} :
      Phase.load (host.store.load s.storageName v).1 = .error why → o.answer = .error why →
      o.session = { s with vaultToken := none, stale := true } →
      CatchesUp host op s v o [.load s.storageName (host.store.load s.storageName v).1]
  | current {phase : Phase} {t : Session} {p : Outcome σ Answer} :
      Phase.load (host.store.load s.storageName v).1 = .ok phase →
      t = { s with vaultToken := none, phase, stale := false } →
      p = (op.plan t).perform host.store s.storageName (host.store.load s.storageName v).2 →
      o.answer = p.answer → o.session = p.session →
      CatchesUp host op s v o (.load s.storageName (host.store.load s.storageName v).1 ::
        (op.plan t).calls host.store s.storageName (host.store.load s.storageName v).2)

theorem catchesUp_exclusive (op : Operation) (hlock : host.lock = some lock)
    (hbehind : ((lock.acquire w).1 || s.stale) = true) :
    CatchesUp host op s (lock.acquire w).2 (exclusive host op.plan s w)
      (s.exclusiveCalls host.store lock op.plan w) := by
  have henter : s.enter host.store lock w = s.reload host.store (lock.acquire w).2 := by
    unfold enter
    dsimp only
    exact if_pos hbehind
  have hentering : s.entering host.store lock w =
      [.load s.storageName (host.store.load s.storageName (lock.acquire w).2).1] := if_pos hbehind
  unfold exclusive exclusiveCalls
  rw [hlock]
  dsimp only
  rw [henter, hentering]
  cases hload : Phase.load (host.store.load s.storageName (lock.acquire w).2).1 with
  | error why =>
      rw [reload_of_error hload]
      exact .unread hload rfl rfl
  | ok phase =>
      rw [reload_of_ok hload]
      exact .current hload rfl rfl rfl rfl

theorem exclusive_current (op : Operation) (hlock : host.lock = some lock)
    (hcurrent : ((lock.acquire w).1 || s.stale) = false) :
    (exclusive host op.plan s w).session =
        ((op.plan s).perform host.store s.storageName (lock.acquire w).2).session ∧
      s.exclusiveCalls host.store lock op.plan w =
        (op.plan s).calls host.store s.storageName (lock.acquire w).2 := by
  have henter : s.enter host.store lock w = ⟨.ok (), s, false, (lock.acquire w).2⟩ := by
    simp only [enter, hcurrent]
    rfl
  have hentering : s.entering host.store lock w = [] := if_neg (Bool.eq_false_iff.mp hcurrent)
  unfold exclusive exclusiveCalls
  rw [hlock]
  dsimp only
  rw [henter, hentering]
  exact ⟨rfl, rfl⟩

theorem foldl_bracketed {changed : Bool} {inner : List Call} :
    (bracketed changed inner).foldl Call.behind missed =
      inner.foldl Call.behind (missed || changed) := by
  simp only [bracketed, List.cons_append, List.foldl_cons, List.foldl_append, List.foldl_nil,
    Call.behind]

theorem stale_exclusive (hlock : host.lock = some lock) :
    (exclusive host op.plan s w).session.stale =
      (s.exclusiveCalls host.store lock op.plan w).foldl Call.behind
        (s.stale || (lock.acquire w).1) := by
  cases hbehind : (lock.acquire w).1 || s.stale with
  | true =>
      have hcatches := catchesUp_exclusive op hlock hbehind
      generalize s.exclusiveCalls host.store lock op.plan w = inner at hcatches ⊢
      cases hcatches with
      | unread hload _ hsession =>
          rw [hsession, List.foldl_cons, Call.behind, hload]
          rfl
      | current hload ht hp _ hsession =>
          rw [hsession, hp, stale_perform, ht, List.foldl_cons, Call.behind, hload]
          exact (behind_calls_false _).symm
  | false =>
      obtain ⟨hsession, hcalls⟩ := exclusive_current op hlock hbehind
      rw [hsession, hcalls, stale_perform, Bool.or_comm, hbehind, behind_calls_false]
      exact (Bool.or_eq_false_iff.mp hbehind).2

theorem stale_reset (hlock : host.lock = some lock) :
    (overwriting host (Operation.plan .reset) s w).session.stale =
      (s.overwritingCalls host.store lock (Operation.plan .reset) w).foldl Call.behind
        (s.stale || (lock.acquire w).1) := by
  have hname : storageName { s with stale := s.stale || (lock.acquire w).1 } = s.storageName := rfl
  unfold overwriting overwritingCalls
  rw [hlock]
  dsimp only [Operation.plan, Plan.map, reset, Plan.calls, Plan.perform, Change.call, Change.apply,
    List.foldl_cons, List.foldl_nil, Call.behind]
  rw [hname]
  generalize host.store.remove s.storageName (lock.acquire w).2 = made
  obtain ⟨answer, w'⟩ := made
  cases answer <;> rfl

theorem stale_run (hlock : host.lock = some lock) (s : Session) (op : Operation) (w : σ) :
    (s.run host op w).session.stale = (s.calls host op w).foldl Call.behind s.stale := by
  cases hrefusal : op.refusal? with
  | some why =>
      rw [calls_refused hrefusal, run_refused hrefusal]
      rfl
  | none =>
      rw [calls_locked hlock hrefusal]
      simp only [run, hrefusal, guardedCalls]
      cases haccess : op.access with
      | exclusive =>
          rw [if_neg (by simp), foldl_bracketed]
          exact stale_exclusive hlock
      | overwriting =>
          obtain rfl := eq_reset_of_overwriting haccess
          rw [if_neg (by simp), foldl_bracketed]
          exact stale_reset hlock
      | unlocked => exact stale_perform op s

theorem stale_eq_behind (hlock : host.lock = some lock) {past : List (Step σ)}
    (h : History host past s) : s.stale = Behind host past := by
  induction h with
  | created hmade => exact (World.storageName_new hmade).2.2
  | resumed hmade => exact (World.resume_eq_ok hmade).2.1
  | @step past s op w _ ih =>
      rw [stale_run hlock, ih, Behind, Behind, List.flatMap_append, List.foldl_append]
      simp [Step.calls]

theorem run_deserialize {data : Bytes} {status : StoredStatus}
    (h : StoredStatus.decode data = .ok status) (host : Host σ) (s : Session) (w : σ) :
    s.run host (.deserialize data) w =
      ⟨.ok .done, { s with vaultToken := none, phase := .ofStored status }, false, w⟩ := by
  have hplan : Operation.plan (.deserialize data) s =
      .keep { s with vaultToken := none, phase := .ofStored status } .done := by
    rw [Operation.plan, deserialize, h]
    rfl
  simp only [run, Operation.refusal?, Operation.access, hplan]
  rfl

theorem ofStore_guardedCalls : ∀ c ∈ s.guardedCalls host.store lock op w, c.ofStore = true := by
  intro c hc
  unfold guardedCalls at hc
  split at hc
  next =>
    unfold exclusiveCalls at hc
    rcases List.mem_append.mp hc with hc | hc
    · unfold entering at hc
      split at hc
      · obtain rfl := List.mem_singleton.mp hc
        rfl
      · cases hc
    · split at hc
      · cases hc
      · exact ofStore_of_mem_calls hc
  next => exact ofStore_of_mem_calls hc
  next => cases hc

theorem lock_discipline {past : List (Step σ)} (hlock : host.lock = some lock)
    (h : History host past s) (op : Operation) (w : σ) :
    s.run host.recorded op (w, []) = (s.run host op w).recorded (s.calls host op w) ∧
    (s.calls host op w = [] ∧ (op.refusal? ≠ none ∨ op.access = .unlocked) ∨
      ∃ changed inner modified,
        s.calls host op w = .acquire changed :: inner ++ [.release modified] ∧
        changed = (lock.acquire w).1 ∧ (∀ c ∈ inner, c.ofStore = true) ∧
        (modified = true ↔ ∃ c ∈ inner, c.wrote = true) ∧
        (changed = true ∨ Behind host past = true → op ≠ .reset →
          CatchesUp host op s (lock.acquire w).2 (s.run host op w) inner)) := by
  refine ⟨run_recorded host op s w, ?_⟩
  cases hrefusal : op.refusal? with
  | some why => exact .inl ⟨calls_refused hrefusal, .inl (by simp)⟩
  | none =>
      rw [calls_locked hlock hrefusal]
      by_cases haccess : op.access = .unlocked
      · exact .inl ⟨if_pos haccess, .inr haccess⟩
      · rw [if_neg haccess]
        refine .inr ⟨_, _, _, rfl, rfl, ofStore_guardedCalls, List.any_eq_true, ?_⟩
        intro hmissed hreset
        have hexclusive : op.access = .exclusive := by
          cases hkind : op.access with
          | exclusive => rfl
          | overwriting => exact absurd (eq_reset_of_overwriting hkind) hreset
          | unlocked => exact absurd hkind haccess
        have hbehind : ((lock.acquire w).1 || s.stale) = true := by
          rw [stale_eq_behind hlock h]
          exact Bool.or_eq_true_iff.mpr hmissed
        simp only [run, hrefusal, hexclusive, guardedCalls]
        exact catchesUp_exclusive op hlock hbehind

section Example

def outdatedHost : Host Unit where
  store := ⟨fun _ w => (.error .read, w), fun _ _ w => (.ok (), w), fun _ w => (.ok (), w)⟩
  lock := some ⟨fun w => (true, w), fun _ w => w⟩

theorem lock_outdatedHost : outdatedHost.lock = some ⟨fun w => (true, w), fun _ w => w⟩ :=
  rfl

theorem confirmation_unread :
    sampleSession.calls outdatedHost .confirm () =
        [.acquire true, .load sampleSession.storageName (.error .read), .release false] ∧
      (sampleSession.run outdatedHost .confirm ()).answer = .error (.store .read) := by
  obtain ⟨-, hidle | ⟨changed, inner, modified, hcalls, hchanged, -, hmodified, hcatches⟩⟩ :=
    lock_discipline lock_outdatedHost (.created new_sampleSetup) .confirm ()
  · rcases hidle.2 with hkept | hkept
    · exact absurd rfl hkept
    · cases hkept
  · have hup := hcatches (.inl hchanged) (by simp)
    cases hup with
    | unread hload hanswer _ =>
        have hunmodified : modified = false := by
          refine Bool.eq_false_iff.mpr fun hm => ?_
          obtain ⟨c, hc, hwrote⟩ := hmodified.mp hm
          obtain rfl := List.mem_singleton.mp hc
          cases hwrote
        rw [hcalls, hchanged, hunmodified]
        cases hload
        exact ⟨rfl, hanswer⟩
    | current hload _ _ _ _ => cases hload

theorem status_taken_while_behind : ∃ (past : List (Step Unit)) (s : Session) (blob : Bytes),
    History outdatedHost past s ∧ Behind outdatedHost past = true ∧
      (s.run outdatedHost (.deserialize blob) ()).answer = .ok .done ∧
      (s.run outdatedHost (.deserialize blob) ()).session.status ≠ s.status ∧
      s.calls outdatedHost (.deserialize blob) () = [] := by
  have hmade : History outdatedHost [] sampleSession := .created new_sampleSetup
  have hpast := hmade.step .confirm ()
  have hrun := run_deserialize (StoredStatus.decode_encode StoredStatus.storable_removed)
    outdatedHost (sampleSession.run outdatedHost .confirm ()).session ()
  refine ⟨_, _, StoredStatus.removed.encode, hpast, ?_, ?_, ?_, ?_⟩
  · rw [← stale_eq_behind lock_outdatedHost hpast]
    rfl
  · rw [hrun]
  · rw [hrun]
    decide
  · exact calls_locked lock_outdatedHost rfl

end Example

end DeviceAuth.Session
