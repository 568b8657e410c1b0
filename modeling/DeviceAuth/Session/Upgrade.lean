import DeviceAuth.Session.Plan

namespace DeviceAuth.Session

def upgradeStart (s : Session) : Plan Unit :=
  .orRefuse s do
    let r ← s.valid
    if r.pendingUpgrade.isSome then throw (.state .upgradePending)
    if r.version ≠ .v2 then throw (.state .upgradeNotNeeded)
    return s.commit { r with pendingUpgrade := some .v3 } ()

def upgradeApply (seed : Bytes) (s : Session) : Plan Unit :=
  .orRefuse s do
    let r ← s.valid
    if r.pendingUpgrade ≠ some .v3 then throw (.state .upgradeNotPending)
    if r.version ≠ .v2 then throw (.state .upgradeApplied)
    match Fixed.ofBytes? 32 seed with
    | none => throw (.input .counterSeed)
    | some seed => return s.commit { r with counter := .ofSeed seed } ()

def upgradeFinish (s : Session) : Plan Unit :=
  .orRefuse s do
    let r ← s.valid
    if r.pendingUpgrade.isNone then throw (.state .upgradeNotPending)
    if r.version ≠ .v3 then throw (.state .upgradeNotApplied)
    return s.commit { r with pendingUpgrade := none } ()

end DeviceAuth.Session
