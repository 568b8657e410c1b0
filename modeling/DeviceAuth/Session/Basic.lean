import DeviceAuth.Activation.StoredStatus
import DeviceAuth.Envelope
import DeviceAuth.Setup

namespace DeviceAuth

namespace Session

structure Pending where
  privateKey : P256.PrivateKey
  encryptor : Envelope.Encryptor
  deriving DecidableEq

inductive Phase where
  | empty
  | started (pending : Pending)
  | pendingCommit (record : Activation.Record)
  | active (record : Activation.Record)
  | removed
  deriving DecidableEq

def Phase.ofStored : Activation.StoredStatus → Phase
  | .empty => .empty
  | .activated r => .active r
  | .removed => .removed

def Phase.stored : Phase → Activation.StoredStatus
  | .active r => .activated r
  | .removed => .removed
  | _ => .empty

structure VaultProof where
  token : Fixed 16
  deriving DecidableEq

end Session

structure Session where
  setup : Setup
  config : Config
  masterKey : P256.PublicKey
  externalKey : Option Key
  phase : Session.Phase
  vaultToken : Option (Fixed 16)
  -- The status could not be read again after another session changed it.
  stale : Bool
  deriving DecidableEq

namespace Session

open Activation

def new (setup : Setup) (config : Config) : Except Failure Session := do
  let masterKey ← setup.check
  return {
    setup, config, masterKey
    externalKey := setup.externalKey
    phase := .empty
    vaultToken := none
    stale := false }

def resume (setup : Setup) (config : Config) (stored : Except StoreFault (Option Bytes)) :
    Except Failure Session := do
  let s ← new setup config
  match ← stored.mapError .store with
  | none => return s
  | some blob => return { s with phase := .ofStored (← StoredStatus.decode blob) }

def storageName (s : Session) : String :=
  s.setup.storageName s.config

def payloadLimit (s : Session) : Nat :=
  s.config.payloadLimit.toNat

def status (s : Session) : Status :=
  match s.phase with
  | .empty | .started _ => .noActivation
  | .pendingCommit _ => .pendingCommit
  | .active r => r.health.status
  | .removed => .removed

def hasValidActivation (s : Session) : Bool :=
  s.status == .valid

def hasPendingActivation (s : Session) : Bool :=
  match s.phase with
  | .started _ => true
  | _ => false

def record? (s : Session) : Option Record :=
  match s.phase with
  | .pendingCommit r | .active r => some r
  | _ => none

def activationId? (s : Session) : Option String :=
  s.record?.map Record.id

def version? (s : Session) : Option Version :=
  s.record?.map Record.version

def counter? (s : Session) : Option Counter :=
  s.record?.map Record.counter

def pendingUpgrade? (s : Session) : Option Version :=
  s.record?.bind Record.pendingUpgrade

def hasExternalKey (s : Session) : Bool :=
  (s.record?.map Record.external).getD false

def committed (s : Session) : Except Failure Record :=
  match s.phase with
  | .active r => .ok r
  | _ => .error (.state .notCommitted)

def hasBiometry (s : Session) : Bool :=
  match s.committed with
  | .ok r => r.keys.biometry.isSome
  | .error _ => false

def hasRecovery (s : Session) : Bool :=
  match s.committed with
  | .ok r => r.sealedRecovery.isSome
  | .error _ => false

def valid (s : Session) : Except Failure Record :=
  match s.phase with
  | .active r => if r.health = .valid then .ok r else .error (.state (.notValid s.status))
  | _ => .error (.state (.notValid s.status))

def externalKeyFor (s : Session) (r : Record) : Except Failure (Option Key) :=
  if r.external then
    match s.externalKey with
    | some k => .ok (some k)
    | none => .error (.state .externalKeyUnset)
  else .ok none

def fingerprint (s : Session) : Except Failure String :=
  match s.record? with
  | some r => .ok r.fingerprint
  | none => .error (.state .noActivation)

def serialize (s : Session) : Bytes :=
  s.phase.stored.encode

end Session

end DeviceAuth
