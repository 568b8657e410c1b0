import DeviceAuth.Session.Basic

namespace DeviceAuth.Session

inductive Change where
  | save (status : Activation.StoredStatus)
  | remove
  deriving DecidableEq

inductive Plan (α : Type) where
  | refuse (after : Session) (why : Failure)
  | keep (after : Session) (answer : α)
  | write (ifRefused : Session) (change : Change) (after : Session) (answer : α)

namespace Plan

variable {α β : Type}

def map (f : α → β) : Plan α → Plan β
  | .refuse s why => .refuse s why
  | .keep s a => .keep s (f a)
  | .write before change after a => .write before change after (f a)

def orRefuse (s : Session) : Except Failure (Plan α) → Plan α
  | .ok plan => plan
  | .error why => .refuse s why

end Plan

variable {α : Type}

def commit (s : Session) (r : Activation.Record) (answer : α) : Plan α :=
  .write s (.save (.activated r)) { s with phase := .active r } answer

end DeviceAuth.Session
