import DeviceAuth.Lock
import DeviceAuth.Session.Run
import DeviceAuth.Store

namespace DeviceAuth

structure LockHandle where
  lock : Nat
  handle : Nat
  deriving DecidableEq, Repr

structure Site where
  stores : Registry Store := .empty
  locks : List Lock := []

namespace Site

def store (w : Site) (name : String) : Store :=
  (w.stores.get? name).getD {}

def setStore (w : Site) (name : String) (s : Store) : Site :=
  { w with stores := w.stores.set name s }

def lock (w : Site) (n : Nat) : Lock :=
  w.locks.getD n {}

def setLock (w : Site) (n : Nat) (l : Lock) : Site :=
  { w with locks := w.locks.set n l }

def changeStore (w : Site) (name : String) : Except StoreFault Store → Except StoreFault Unit × Site
  | .ok s => (.ok (), w.setStore name s)
  | .error why => (.error why, w)

def storeActions (name : String) : Session.StoreActions Site where
  load key w := ((w.store name).load key, w)
  save key data w := w.changeStore name ((w.store name).save key data)
  remove key w := w.changeStore name ((w.store name).remove key)

-- Between operations no handle holds a lock.
def acquire (w : Site) (h : LockHandle) : Bool × Site :=
  match (w.lock h.lock).acquire? h.handle with
  | some (changed, l) => (changed, w.setLock h.lock l)
  | none => (false, w)

def release (w : Site) (h : LockHandle) (modified : Bool) : Site :=
  w.setLock h.lock ((w.lock h.lock).release h.handle modified)

def lockActions (h : LockHandle) : Session.LockActions Site where
  acquire w := w.acquire h
  release modified w := w.release h modified

end Site

structure Member where
  session : Session
  store : String
  lock : Option LockHandle

namespace Member

def host (m : Member) : Session.Host Site where
  store := Site.storeActions m.store
  lock := m.lock.map Site.lockActions

end Member

structure World where
  site : Site := {}
  handles : Registry LockHandle := .empty
  members : Registry Member := .empty

namespace World

def session? (w : World) (name : String) : Option Session :=
  (w.members.get? name).map Member.session

def newLock (w : World) (name : String) : World :=
  { w with
    site := { w.site with locks := w.site.locks ++ [{}] }
    handles := w.handles.set name ⟨w.site.locks.length, 0⟩ }

def shareLock (w : World) (name source : String) : Option World :=
  (w.handles.get? source).map fun h =>
    let (l, handle) := (w.site.lock h.lock).share
    { w with
      site := w.site.setLock h.lock l
      handles := w.handles.set name ⟨h.lock, handle⟩ }

def touchLock (w : World) (name : String) (modified : Bool) : Option (Bool × World) :=
  (w.handles.get? name).map fun h =>
    let (changed, site) := w.site.acquire h
    (changed, { w with site := site.release h modified })

def perform (w : World) (name : String) (op : Session.Operation) :
    Option (Except Failure Session.Answer × World) :=
  (w.members.get? name).map fun m =>
    let o := m.session.run m.host op w.site
    (o.answer, { w with site := o.state, members := w.members.set name { m with session := o.session } })

def attach (w : World) (name store : String) (lock : Option LockHandle) (s : Session) : World :=
  { w with members := w.members.set name ⟨s, store, lock⟩ }

-- A session that takes up what its store holds. Reading is not under a lock.
def openSession (w : World) (config : Config) (setup : Setup) (store : String) :
    Except Failure Session :=
  Session.resume setup config ((w.site.store store).load (setup.storageName config))

def close (w : World) (name : String) : World :=
  { w with members := w.members.erase name }

end World

end DeviceAuth
