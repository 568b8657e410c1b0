namespace DeviceAuth

structure Config where
  lookahead : UInt32 := 20
  namespaceText : String := "powerauth.status"
  payloadLimit : UInt64 := 4194304
  deriving DecidableEq

namespace Config

def number? (bound : Nat) (s : String) : Option Nat :=
  let digits :=
    match s.toList with
    | '+' :: rest => rest
    | cs => cs
  if digits.isEmpty || !digits.all (fun c => '0' ≤ c && c ≤ '9') then none
  else
    let n := digits.foldl (fun n c => 10 * n + (c.toNat - 48)) 0
    if n < bound then some n else none

def lookaheadVariable : String := "POWERAUTH_COUNTER_LOOKAHEAD"

def namespaceVariable : String := "POWERAUTH_STORAGE_PREFIX"

def payloadVariable : String := "POWERAUTH_MAX_ECIES_PAYLOAD"

def ofEnvironment (setting? : String → Option String) : Config where
  lookahead :=
    match (setting? lookaheadVariable).bind (number? UInt32.size) with
    | some n => UInt32.ofNat n
    | none => 20
  namespaceText :=
    match setting? namespaceVariable with
    | some s => if s.isEmpty then "powerauth.status" else s
    | none => "powerauth.status"
  payloadLimit :=
    match (setting? payloadVariable).bind (number? UInt64.size) with
    | some n => UInt64.ofNat n
    | none => 4194304

inductive InstallFault where
  | alreadyInstalled
  deriving DecidableEq, Repr

def InstallFault.message : InstallFault → String
  | .alreadyInstalled => "Config already initialized"

abbrev Slot := Option Config

def Slot.install (slot : Slot) (c : Config) : Except InstallFault Slot :=
  match slot with
  | some _ => .error .alreadyInstalled
  | none => .ok (some c)

def Slot.isInstalled (slot : Slot) : Bool :=
  slot.isSome

end Config

end DeviceAuth
