import DeviceAuth.Bytes
import DeviceAuth.Failure
import DeviceAuth.Version

namespace DeviceAuth

namespace ServerStatus

inductive State where
  | created
  | pendingCommit
  | active
  | blocked
  | removed
  deriving DecidableEq, Repr

def State.name : State → String
  | .created => "Created"
  | .pendingCommit => "PendingCommit"
  | .active => "Active"
  | .blocked => "Blocked"
  | .removed => "Removed"

def State.all : List State :=
  [.created, .pendingCommit, .active, .blocked, .removed]

def State.number : State → UInt8
  | .created => 1
  | .pendingCommit => 2
  | .active => 3
  | .blocked => 4
  | .removed => 5

def State.ofNumber? (n : UInt8) : Option State :=
  State.all.find? fun s => s.number == n

end ServerStatus

structure ServerStatus where
  state : ServerStatus.State
  currentVersion : Version
  upgradeVersion : Option Version
  counterByte : UInt8
  failCount : UInt8
  maxFailCount : UInt8
  lookahead : UInt8
  chainDigest : Fixed 16
  deriving DecidableEq

namespace ServerStatus

def magic : Bytes :=
  [0xde, 0xc0, 0xde]

def formatByte : UInt8 := 0xd1

def reserved : Bytes :=
  List.replicate 5 0

def isFormatByte (b : UInt8) : Bool :=
  0xd1 ≤ b && b ≤ 0xdf

def encode (s : ServerStatus) : Bytes :=
  magic ++ [formatByte, s.state.number, s.currentVersion.number,
    (s.upgradeVersion.map Version.number).getD 0] ++ reserved ++
    [s.counterByte, s.failCount, s.maxFailCount, s.lookahead] ++ s.chainDigest.bytes

def version (b : UInt8) : Except FormatFault Version :=
  match Version.ofNumber? b with
  | some v => .ok v
  | none => .error (.protocolVersion b)

def upgrade (b : UInt8) : Except FormatFault (Option Version) :=
  if b = 0 then .ok none else (version b).map some

def decode : Bytes → Except FormatFault ServerStatus
  | m0 :: m1 :: m2 :: format :: state :: current :: next :: _ :: _ :: _ :: _ :: _ :: counterByte ::
      failCount :: maxFailCount :: lookahead :: digest =>
    match Fixed.ofBytes? 16 digest with
    | none => .error .statusBlob
    | some chainDigest =>
        if [m0, m1, m2] = magic ∧ isFormatByte format then
          match State.ofNumber? state with
          | none => .error (.activationState state)
          | some state => do
              let currentVersion ← version current
              let upgradeVersion ← upgrade next
              return {
                state, currentVersion, upgradeVersion, counterByte, failCount, maxFailCount,
                lookahead, chainDigest }
        else .error .statusBlob
  | _ => .error .statusBlob

def remainingAttempts (s : ServerStatus) : UInt8 :=
  if s.failCount ≤ s.maxFailCount then s.maxFailCount - s.failCount else 0

def upgradeAvailable (s : ServerStatus) : Bool :=
  match s.upgradeVersion with
  | some v => v.newer s.currentVersion
  | none => false

end ServerStatus

end DeviceAuth
