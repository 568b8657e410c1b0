import DeviceAuth.Session.Operation

namespace DeviceAuth.Session

open Activation

structure StoreActions (σ : Type) where
  load : String → σ → Except StoreFault (Option Bytes) × σ
  save : String → Bytes → σ → Except StoreFault Unit × σ
  remove : String → σ → Except StoreFault Unit × σ

-- `acquire` tells whether another session has changed the status.
structure LockActions (σ : Type) where
  acquire : σ → Bool × σ
  release : Bool → σ → σ

structure Host (σ : Type) where
  store : StoreActions σ
  lock : Option (LockActions σ)

structure Outcome (σ α : Type) where
  answer : Except Failure α
  session : Session
  modified : Bool
  state : σ

variable {σ α : Type}

def Change.apply (store : StoreActions σ) (name : String) : Change → σ → Except StoreFault Unit × σ
  | .save status, w => store.save name status.encode w
  | .remove, w => store.remove name w

def Plan.perform (store : StoreActions σ) (name : String) (w : σ) : Plan α → Outcome σ α
  | .refuse s why => ⟨.error why, s, false, w⟩
  | .keep s a => ⟨.ok a, s, false, w⟩
  | .write before change after a =>
      match change.apply store name w with
      | (.ok _, w) => ⟨.ok a, after, true, w⟩
      | (.error why, w) => ⟨.error (.store why), before, false, w⟩

def Phase.load : Except StoreFault (Option Bytes) → Except Failure Phase
  | .error why => .error (.store why)
  | .ok none => .ok .empty
  | .ok (some blob) => (StoredStatus.decode blob).map .ofStored

-- Reads the status again. The token is given up first, and the session stays stale until it has
-- read a status.
def reload (store : StoreActions σ) (s : Session) (w : σ) : Outcome σ Unit :=
  let s := { s with vaultToken := none, stale := true }
  let (stored, w) := store.load s.storageName w
  match Phase.load stored with
  | .error why => ⟨.error why, s, false, w⟩
  | .ok phase => ⟨.ok (), { s with phase, stale := false }, false, w⟩

def Outcome.released (lock : LockActions σ) (o : Outcome σ α) : Outcome σ α :=
  { o with state := lock.release o.modified o.state }

def enter (store : StoreActions σ) (lock : LockActions σ) (s : Session) (w : σ) : Outcome σ Unit :=
  let (changed, w) := lock.acquire w
  if changed || s.stale then s.reload store w else ⟨.ok (), s, false, w⟩

def exclusive (host : Host σ) (plan : Session → Plan α) (s : Session) (w : σ) : Outcome σ α :=
  match host.lock with
  | none => (plan s).perform host.store s.storageName w
  | some lock =>
      let o := s.enter host.store lock w
      match o.answer with
      | .error why => Outcome.released lock ⟨.error why, o.session, false, o.state⟩
      | .ok _ => ((plan o.session).perform host.store s.storageName o.state).released lock

-- Under the lock, without reading: the operation replaces the whole status, so a corrupted one does
-- not stop it.
def overwriting (host : Host σ) (plan : Session → Plan α) (s : Session) (w : σ) : Outcome σ α :=
  match host.lock with
  | none => (plan s).perform host.store s.storageName w
  | some lock =>
      let (changed, w) := lock.acquire w
      let s := { s with stale := s.stale || changed }
      let o := (plan s).perform host.store s.storageName w
      let o := { o with session := { o.session with stale := o.session.stale && !o.answer.isOk } }
      o.released lock

def run (host : Host σ) (op : Operation) (s : Session) (w : σ) : Outcome σ Answer :=
  match op.refusal? with
  | some why => ⟨.error why, s, false, w⟩
  | none =>
      match op.access with
      | .exclusive => exclusive host op.plan s w
      | .overwriting => overwriting host op.plan s w
      | .unlocked => (op.plan s).perform host.store s.storageName w

end DeviceAuth.Session
