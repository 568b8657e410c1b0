namespace DeviceAuth

structure Lock where
  holder : Option Nat := none
  -- Goes up by one with each change, so that 64 bits hold it for fewer than `2 ^ 64` changes.
  generation : Nat := 0
  seen : List Nat := [0]
  deriving DecidableEq, Repr

namespace Lock

def lastSeen (l : Lock) (handle : Nat) : Nat :=
  l.seen.getD handle 0

def isFree (l : Lock) : Bool :=
  l.holder.isNone

def share (l : Lock) : Lock × Nat :=
  ({ l with seen := l.seen ++ [l.generation] }, l.seen.length)

def observe (l : Lock) (handle : Nat) : Lock :=
  { l with seen := l.seen.set handle l.generation }

def acquire? (l : Lock) (handle : Nat) : Option (Bool × Lock) :=
  if l.isFree then
    some (l.lastSeen handle != l.generation, { l.observe handle with holder := some handle })
  else none

def release (l : Lock) (handle : Nat) (modified : Bool) : Lock :=
  let l := { l with generation := if modified then l.generation + 1 else l.generation }
  { l.observe handle with holder := none }

end Lock

end DeviceAuth
