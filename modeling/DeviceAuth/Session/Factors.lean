import DeviceAuth.Session.Plan

namespace DeviceAuth.Session

open Activation

def changePassword (old new : Password) (salt : Fixed 16) (s : Session) : Plan Unit :=
  .orRefuse s do
    let r ← s.committed
    let external ← s.externalKeyFor r
    let keys ← r.keys.changePassword old new external salt
    return s.commit { r with keys } ()

def removeBiometry (s : Session) : Plan Unit :=
  .orRefuse s do
    let r ← s.committed
    if r.keys.biometry.isNone then return .keep s ()
    return s.commit { r with keys := { r.keys with biometry := none } } ()

def setExternal (key : Key) (s : Session) : Plan Unit :=
  match s.externalKey, s.record? with
  | some current, _ =>
      if current = key then .keep s () else .refuse s (.state .externalKeyConflict)
  | none, some r =>
      if r.external then .keep { s with externalKey := some key } ()
      else .refuse s (.state .externalKeyUnused)
  | none, none => .keep { s with externalKey := some key } ()

def addExternal (key : Key) (s : Session) : Plan Unit :=
  .orRefuse s do
    let r ← s.committed
    if r.external then throw (.state .externalKeyUsed)
    let (layered, keys) := r.keys.addExternal key
    layered
    let r := { r with keys, external := true }
    return .write s (.save (.activated r)) { s with phase := .active r, externalKey := some key } ()

def removeExternal (s : Session) : Plan Unit :=
  .orRefuse s do
    let r ← s.committed
    if !r.external then throw (.state .externalKeyUnused)
    match s.externalKey with
    | none => throw (.state .externalKeyUnset)
    | some key =>
        let (layered, keys) := r.keys.removeExternal key
        layered
        let r := { r with keys, external := false }
        return .write s (.save (.activated r)) { s with phase := .active r, externalKey := none } ()

end DeviceAuth.Session
