import DeviceAuth.Proofs.Session.Refusal
import DeviceAuth.Proofs.Sharing.Site

namespace DeviceAuth

open Session

structure Faults where
  reads : Bool
  writes : Bool

structure Slot where
  blob : Option Bytes
  faults : Faults

namespace Slot

def load (s : Slot) : Except StoreFault (Option Bytes) :=
  if s.faults.reads then .error .read else .ok s.blob

def put (blob : Option Bytes) (s : Slot) : Except StoreFault Unit × Slot :=
  if s.faults.writes then (.error .write, s) else (.ok (), { s with blob })

def actions : StoreActions Slot where
  load _ s := (s.load, s)
  save _ data s := s.put (some data)
  remove _ s := s.put none

end Slot

def Site.faults (w : Site) (store : String) : Faults :=
  ⟨(w.store store).readsFail, (w.store store).writesFail⟩

def Place.slot (p : Place) (w : Site) : Slot :=
  ⟨p.blob w, w.faults p.store⟩

namespace Session

variable {σ τ γ α : Type} {p : Place} {s : Session}

namespace Change

def blob : Change → Option Bytes
  | .save status => some status.encode
  | .remove => none

def entries (name : String) : Change → Registry Bytes → Registry Bytes
  | .save status, r => r.set name status.encode
  | .remove, r => r.erase name

theorem get?_entries (change : Change) (name other : String) (r : Registry Bytes) :
    (change.entries name r).get? other = if other = name then change.blob else r.get? other := by
  cases change with
  | save status => exact Registry.get?_set r name other _
  | remove => exact Registry.get?_erase r name other

theorem apply_actions (change : Change) (name : String) (s : Slot) :
    change.apply Slot.actions name s = s.put change.blob := by
  cases change <;> rfl

def made (change : Change) (name : String) (s : Store) : Store :=
  { s with entries := change.entries name s.entries }

theorem apply_site (change : Change) (store name : String) (w : Site) :
    change.apply (Site.storeActions store) name w =
      if (w.store store).writesFail then (.error .write, w)
      else (.ok (), w.setStore store (change.made name (w.store store))) := by
  cases change with
  | save status =>
      simp only [apply, Site.storeActions, Store.save]
      split <;> rfl
  | remove =>
      simp only [apply, Site.storeActions, Store.remove]
      split <;> rfl

theorem faults_made (change : Change) (store name : String) (w : Site) :
    (w.setStore store (change.made name (w.store store))).faults store = w.faults store := by
  rw [Site.faults, Site.store_setStore_self]
  rfl

theorem blob_made (change : Change) (name : String) (w : Site) :
    p.blob (w.setStore p.store (change.made name (w.store p.store))) =
      if p.name = name then change.blob else p.blob w := by
  rw [Place.blob_setStore]
  exact change.get?_entries name p.name _

theorem faults_apply (change : Change) (store name : String) (w : Site) :
    (change.apply (Site.storeActions store) name w).2.faults store = w.faults store := by
  rw [apply_site]
  split
  next => rfl
  next => exact change.faults_made store name w

theorem blob_apply_of_ne {name : String} (hname : p.name ≠ name) (change : Change) (w : Site) :
    p.blob (change.apply (Site.storeActions p.store) name w).2 = p.blob w := by
  rw [apply_site]
  split
  next => rfl
  next => rw [blob_made, if_neg hname]

theorem apply_slot (change : Change) (w : Site) :
    change.apply Slot.actions p.name (p.slot w) =
      (change.apply (Site.storeActions p.store) p.name w).map id p.slot := by
  rw [apply_actions, apply_site]
  by_cases hwrites : (w.store p.store).writesFail = true
  · rw [if_pos hwrites]
    exact if_pos hwrites
  · have hslot : p.slot (w.setStore p.store (change.made p.name (w.store p.store))) =
        ⟨change.blob, w.faults p.store⟩ := by
      rw [Place.slot, blob_made, if_pos rfl, faults_made]
    rw [if_neg hwrites, Prod.map, hslot]
    exact if_neg hwrites

end Change

def Outcome.seen (view : σ → τ) (o : Outcome σ α) : Outcome τ α :=
  ⟨o.answer, o.session, o.modified, view o.state⟩

theorem perform_slot (plan : Plan α) (w : Site) :
    plan.perform Slot.actions p.name (p.slot w) =
      (plan.perform (Site.storeActions p.store) p.name w).seen p.slot := by
  cases plan with
  | refuse t why => rfl
  | keep t a => rfl
  | write before change after a =>
      simp only [Plan.perform, change.apply_slot]
      cases change.apply (Site.storeActions p.store) p.name w with
      | mk answer w' => cases answer <;> rfl

theorem run_slot (op : Operation) (hname : s.storageName = p.name) (w : Site) :
    s.run ⟨Slot.actions, none⟩ op (p.slot w) =
      (s.run ⟨Site.storeActions p.store, none⟩ op w).seen p.slot := by
  cases hrefusal : op.refusal? with
  | some why =>
      simp only [run, hrefusal]
      rfl
  | none =>
      rw [run_lockless rfl hrefusal, run_lockless rfl hrefusal, hname]
      exact perform_slot _ w

theorem view_run (view : σ → γ) {store : StoreActions σ} (op : Operation)
    (hview : ∀ (change : Change) w, view (change.apply store s.storageName w).2 = view w)
    (w : σ) : view (s.run ⟨store, none⟩ op w).state = view w := by
  cases hrefusal : op.refusal? with
  | some why => simp only [run, hrefusal]
  | none =>
      rw [run_lockless rfl hrefusal]
      cases op.plan s with
      | refuse t why => rfl
      | keep t a => rfl
      | write before change after a =>
          rw [← hview change w, Plan.perform]
          split
          next happly => rw [happly]
          next happly => rw [happly]

def Kin (s t : Session) : Prop :=
  t.setup = s.setup ∧ t.config = s.config

def Plan.Leaves (P : Session → Prop) : Plan α → Prop
  | .refuse t _ | .keep t _ => P t
  | .write before _ after _ => P before ∧ P after

theorem leaves_kin {op : Operation} {plan : Plan Answer} (h : Effect s op plan) :
    plan.Leaves s.Kin := by
  cases h <;> first | exact ⟨rfl, rfl⟩ | exact ⟨⟨rfl, rfl⟩, rfl, rfl⟩

theorem Plan.Leaves.perform {P : Session → Prop} {plan : Plan α} (h : plan.Leaves P)
    (store : StoreActions σ) (name : String) (w : σ) : P (plan.perform store name w).session := by
  cases plan with
  | refuse t why => exact h
  | keep t a => exact h
  | write before change after a =>
      rw [Plan.perform]
      split
      next => exact h.2
      next => exact h.1

theorem kin_run (store : StoreActions σ) (op : Operation) (s : Session) (w : σ) :
    s.Kin (s.run ⟨store, none⟩ op w).session := by
  cases hrefusal : op.refusal? with
  | some why =>
      simp only [run, hrefusal]
      exact ⟨rfl, rfl⟩
  | none =>
      rw [run_lockless rfl hrefusal]
      exact (leaves_kin (plan_effect s op)).perform store _ w

end Session

end DeviceAuth
