namespace DeviceAuth.Activation

inductive Status where
  | noActivation
  | pendingCommit
  | valid
  | blocked
  | removed
  | deadlock
  deriving DecidableEq, Repr

def Status.name : Status → String
  | .noActivation => "NoActivation"
  | .pendingCommit => "PendingCommit"
  | .valid => "Valid"
  | .blocked => "Blocked"
  | .removed => "Removed"
  | .deadlock => "Deadlock"

end DeviceAuth.Activation
