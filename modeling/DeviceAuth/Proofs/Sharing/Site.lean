import DeviceAuth.Proofs.Lock
import DeviceAuth.Proofs.Session.Soundness
import DeviceAuth.World

namespace DeviceAuth

namespace Site

theorem lock_setLock {w : Site} {n : Nat} (hn : n < w.locks.length) (l : Lock) :
    (w.setLock n l).lock n = l := by
  simp [setLock, lock, List.getD_eq_getElem?_getD, hn]

theorem length_setLock (w : Site) (n : Nat) (l : Lock) :
    (w.setLock n l).locks.length = w.locks.length := by
  simp [setLock]

theorem store_setStore_self (w : Site) (name : String) (s : Store) :
    (w.setStore name s).store name = s := by
  simp [setStore, store, Registry.get?_set]

end Site

namespace Activation.StoredStatus

def ofBlob : Option Bytes → Except Failure StoredStatus
  | none => .ok .empty
  | some blob => decode blob

theorem ofBlob_encode {s : StoredStatus} (h : s.Storable) : ofBlob (some s.encode) = .ok s :=
  decode_encode h

theorem storable_of_ofBlob {blob : Option Bytes} {s : StoredStatus} (h : ofBlob blob = .ok s) :
    s.Storable := by
  cases blob with
  | none =>
      cases h
      exact storable_empty
  | some b => exact storable_of_decode h

end Activation.StoredStatus

namespace Session

open Activation

theorem Phase.stored_ofStored (status : StoredStatus) : (Phase.ofStored status).stored = status := by
  cases status <;> rfl

theorem Phase.load_eq_ok {blob : Option Bytes} {phase : Phase} :
    Phase.load (.ok blob) = .ok phase ↔
      ∃ status, StoredStatus.ofBlob blob = .ok status ∧ phase = .ofStored status := by
  cases blob with
  | none =>
      constructor
      · intro h
        cases h
        exact ⟨.empty, rfl, rfl⟩
      · rintro ⟨status, h, rfl⟩
        cases h
        rfl
  | some b =>
      constructor
      · intro h
        obtain ⟨status, hs, hp⟩ := map_eq_ok.mp h
        exact ⟨status, hs, hp.symm⟩
      · rintro ⟨status, hs, rfl⟩
        exact map_eq_ok.mpr ⟨status, hs, rfl⟩

end Session

structure Place where
  store : String
  name : String

namespace Place

variable (p : Place)

def blob (w : Site) : Option Bytes :=
  (w.store p.store).entries.get? p.name

def status (w : Site) : Except Failure Activation.StoredStatus :=
  Activation.StoredStatus.ofBlob (p.blob w)

theorem blob_setStore (w : Site) (s : Store) :
    p.blob (w.setStore p.store s) = s.entries.get? p.name := by
  rw [blob, Site.store_setStore_self]

end Place

namespace Session

open Activation

variable {p : Place} {α : Type}

theorem Change.apply_cases {change : Change} (h : change.status.Storable) (w : Site) :
    (∃ why, change.apply (Site.storeActions p.store) p.name w = (.error why, w)) ∨
    ∃ w', change.apply (Site.storeActions p.store) p.name w = (.ok (), w') ∧
      w'.locks = w.locks ∧ p.status w' = .ok change.status := by
  cases change with
  | save status =>
      simp only [apply, Site.storeActions, Store.save]
      split
      next => exact .inl ⟨.write, rfl⟩
      next =>
        refine .inr ⟨_, rfl, rfl, ?_⟩
        rw [Place.status, Place.blob_setStore, Registry.get?_set, if_pos rfl]
        exact StoredStatus.ofBlob_encode h
  | remove =>
      simp only [apply, Site.storeActions, Store.remove]
      split
      next => exact .inl ⟨.write, rfl⟩
      next =>
        refine .inr ⟨_, rfl, rfl, ?_⟩
        rw [Place.status, Place.blob_setStore, Registry.get?_erase, if_pos rfl]
        rfl

structure Performed (p : Place) (s : Session) (w : Site) (o : Outcome Site α) : Prop where
  locks : o.state.locks = w.locks
  kept : o.modified = false →
    p.blob o.state = p.blob w ∧ o.session.phase.stored = s.phase.stored
  wrote : o.modified = true → p.status o.state = .ok o.session.phase.stored
  sound : o.session.Sound
  name : o.session.storageName = s.storageName
  stale : o.session.stale = s.stale

theorem performed_of_follows {s t : Session} (h : Follows s t) (w : Site)
    (answer : Except Failure α) : Performed p s w ⟨answer, t, false, w⟩ :=
  ⟨rfl, fun _ => ⟨rfl, h.stored⟩, by simp, h.sound, h.name, h.stale⟩

theorem performed {s : Session} {plan : Plan α} (h : plan.Faithful s) (w : Site) :
    Performed p s w (plan.perform (Site.storeActions p.store) p.name w) := by
  cases h with
  | refuse ht => exact performed_of_follows ht w _
  | keep ht => exact performed_of_follows ht w _
  | @write before after change a hbefore hstorable hsound hstored hname hstale =>
      rcases change.apply_cases hstorable w with ⟨why, happly⟩ | ⟨w', happly, hlocks, hstatus⟩
      · rw [Plan.perform, happly]
        exact performed_of_follows hbefore w _
      · rw [Plan.perform, happly]
        exact ⟨hlocks, by simp, fun _ => hstored ▸ hstatus, hsound, hname, hstale⟩

end Session

end DeviceAuth
