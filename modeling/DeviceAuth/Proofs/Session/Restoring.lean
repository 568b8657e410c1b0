import DeviceAuth.Proofs.Session.Course

namespace DeviceAuth

namespace Activation

def Record.sequences (r : Record) : List Bytes :=
  [Text.utf8 r.id, r.serverKey, r.deviceKey, r.sealedPrivateKey, r.keys.possession,
    r.keys.knowledge, r.keys.transport] ++ r.sealedRecovery.toList ++ r.keys.biometry.toList

theorem Record.complete_iff {r : Record} :
    r.complete = true ↔
      r.id ≠ "" ∧ r.serverKey ≠ [] ∧ r.deviceKey ≠ [] ∧ r.sealedPrivateKey ≠ [] := by
  simp [complete, and_assoc]

theorem Record.storable_iff {r : Record} :
    r.Storable ↔ r.complete = true ∧ ∀ b ∈ r.sequences, Codec.Short b := by
  constructor
  · intro h
    refine ⟨h.complete, fun b hb => ?_⟩
    simp only [sequences, List.mem_append, List.mem_cons, List.not_mem_nil, or_false,
      Option.mem_toList] at hb
    rcases hb with ((rfl | rfl | rfl | rfl | rfl | rfl | rfl) | hb) | hb
    · exact h.id
    · exact h.serverKey
    · exact h.deviceKey
    · exact h.sealedPrivateKey
    · exact h.keys.possession
    · exact h.keys.knowledge
    · exact h.keys.transport
    · exact h.sealedRecovery b hb
    · exact h.keys.biometry b hb
  · rintro ⟨hcomplete, hshort⟩
    have hlocked : r.keys.Storable := {
      possession := hshort _ (by simp [sequences])
      knowledge := hshort _ (by simp [sequences])
      biometry := fun b hb => hshort b (by simp [sequences, Option.mem_def.mp hb])
      transport := hshort _ (by simp [sequences]) }
    exact {
      complete := hcomplete
      id := hshort _ (by simp [sequences])
      serverKey := hshort _ (by simp [sequences])
      deviceKey := hshort _ (by simp [sequences])
      sealedPrivateKey := hshort _ (by simp [sequences])
      sealedRecovery := fun b hb => hshort b (by simp [sequences, Option.mem_def.mp hb])
      keys := hlocked }

end Activation

namespace Session

open Activation

variable {σ α : Type} {host : Host σ} {store : StoreActions σ} {s t : Session} {op : Operation}
  {w : σ} {past : List (Step σ)} {name : String} {blob : Option Bytes}

def Phase.committed : Phase → Phase
  | .active r => .active r
  | .removed => .removed
  | .empty | .started _ | .pendingCommit _ => .empty

theorem Phase.ofStored_stored (phase : Phase) : Phase.ofStored phase.stored = phase.committed := by
  cases phase <;> rfl

def Call.left? : Call → Option (String × Option Bytes)
  | .save name data (.ok _) => some (name, some data)
  | .remove name (.ok _) => some (name, none)
  | _ => none

-- Whoever finds `blob` in the store, or is given it, comes to stand where `s` does. Nothing else of
-- a session is made up from it.
structure Restores (blob : Option Bytes) (s : Session) : Prop where
  opened : ∀ setup config made, Session.new setup config = .ok made →
    Session.resume setup config (.ok blob) = .ok { made with phase := s.phase.committed }
  reloaded : ∀ {τ : Type} (store : StoreActions τ) (t : Session) (v : τ),
    (store.load t.storageName v).1 = .ok blob →
    t.reload store v =
      ⟨.ok (), { t with vaultToken := none, phase := s.phase.committed, stale := false }, false,
        (store.load t.storageName v).2⟩
  deserialized : ∀ {τ : Type} (host : Host τ) (t : Session) (v : τ) (data : Bytes),
    blob = some data →
    t.run host (.deserialize data) v =
      ⟨.ok .done, { t with vaultToken := none, phase := s.phase.committed }, false, v⟩

theorem restores_of_ofBlob (h : StoredStatus.ofBlob blob = .ok s.phase.stored) :
    Restores blob s where
  opened setup config made hmade := by
    rw [resume_of_ofBlob hmade h, Phase.ofStored_stored]
  reloaded store t v hload := by
    have hread := Phase.load_eq_ok.mpr ⟨_, h, rfl⟩
    rw [← hload, Phase.ofStored_stored] at hread
    exact reload_of_ok hread
  deserialized host t v data hdata := by
    subst hdata
    rw [run_deserialize h, Phase.ofStored_stored]

theorem Sound.storable_stored (h : s.Sound) : s.phase.stored.Storable := by
  cases hphase : s.phase with
  | active r => exact StoredStatus.storable_activated.mpr (h.active hphase)
  | removed => exact StoredStatus.storable_removed
  | _ => exact StoredStatus.storable_empty

theorem restores_serialize (h : s.Sound) : Restores (some s.serialize) s :=
  restores_of_ofBlob (StoredStatus.ofBlob_encode h.storable_stored)

inductive Written (name : String) (after : Session) : Call → Prop
  | change (change : Change) (answer : Except StoreFault Unit) :
      change.status.Storable → (answer = .ok () → after.phase.stored = change.status) →
      Written name after (change.call name answer)

theorem written_of_faithful {plan : Plan α} (h : plan.Faithful s) {c : Call}
    (hc : c ∈ plan.calls store name w) : Written name (plan.perform store name w).session c := by
  cases h with
  | refuse _ => cases hc
  | keep _ => cases hc
  | @write before after change a _ hstorable _ hstored _ _ =>
      obtain rfl := List.mem_singleton.mp hc
      refine .change change _ hstorable fun hanswer => ?_
      rw [Plan.perform]
      generalize change.apply store name w = made at hanswer ⊢
      obtain ⟨answer, w'⟩ := made
      cases hanswer
      exact hstored

theorem written_perform (op : Operation) (hs : s.Sound) {c : Call}
    (hc : c ∈ (op.plan s).calls store name w) :
    Written name ((op.plan s).perform store name w).session c := by
  by_cases hop : ∃ data, op = .deserialize data
  · obtain ⟨data, rfl⟩ := hop
    rw [calls_of_unlocked rfl] at hc
    cases hc
  · exact written_of_faithful (plan_faithful op hs fun data hdata => hop ⟨data, hdata⟩) hc

theorem Written.of_phase {c : Call} (h : Written name s c) (hphase : t.phase = s.phase) :
    Written name t c := by
  cases h with
  | change change answer hstorable hstored =>
      refine .change change answer hstorable fun hanswer => ?_
      rw [hphase]
      exact hstored hanswer

theorem written_run (op : Operation) (hs : s.Sound) {c : Call} (hc : c ∈ s.calls host op w)
    (halters : c.alters = true) : Written s.storageName (s.run host op w).session c := by
  cases carriedOut_run host op s w with
  | idle _ hkeeps =>
      rw [hkeeps c hc] at halters
      cases halters
  | carried t v ht hphase hcalls =>
      have hsound : t.Sound := by
        rcases ht with ht | ⟨stored, hstored⟩
        · exact hs.of_phase ht
        · exact sound_of_load hstored
      exact (written_perform op hsound (hcalls c hc halters)).of_phase hphase

theorem Written.restores {c : Call} {under : String} (h : Written name s c)
    (hleft : c.left? = some (under, blob)) : under = name ∧ Restores blob s := by
  cases h with
  | change change answer hstorable hstored =>
      cases answer with
      | error why => cases change <;> cases hleft
      | ok _ =>
          have hstatus := hstored rfl
          cases change with
          | save status =>
              cases hleft
              refine ⟨rfl, restores_of_ofBlob ?_⟩
              rw [hstatus]
              exact StoredStatus.ofBlob_encode hstorable
          | remove =>
              cases hleft
              refine ⟨rfl, restores_of_ofBlob ?_⟩
              rw [hstatus]
              rfl

theorem alters_of_left {c : Call} {under : String} (h : c.left? = some (under, blob)) :
    c.alters = true := by
  cases c with
  | save _ _ _ | remove _ _ => rfl
  | acquire _ | release _ | load _ _ => cases h

theorem Written.readable {data : Bytes} {answer : Except StoreFault Unit} {under : String}
    (h : Written name s (.save under data answer)) :
    ∃ status, StoredStatus.decode data = .ok status := by
  generalize hc : Call.save under data answer = c at h
  cases h with
  | change change answer hstorable _ =>
      cases change with
      | save status =>
          cases hc
          exact ⟨status, StoredStatus.decode_encode hstorable⟩
      | remove => cases hc

theorem status_restores (h : History host past s) :
    Restores (some s.serialize) s ∧
    (∀ op w, ∀ c ∈ s.calls host op w,
      (∀ under blob, c.left? = some (under, blob) →
        under = s.storageName ∧ Restores blob (s.run host op w).session) ∧
      ∀ under data answer, c = .save under data answer →
        ∃ status, StoredStatus.decode data = .ok status) ∧
    (∀ r : Record, r.id ≠ "" → r.serverKey ≠ [] → r.deviceKey ≠ [] → r.sealedPrivateKey ≠ [] →
      (∀ b ∈ r.sequences, b.length < 2 ^ 64) →
      StoredStatus.decode (StoredStatus.activated r).encode = .ok (.activated r)) ∧
    StoredStatus.decode StoredStatus.empty.encode = .ok .empty ∧
    StoredStatus.decode StoredStatus.removed.encode = .ok .removed := by
  have hsound := sound_of_history h
  refine ⟨restores_serialize hsound, fun op w c hc => ⟨fun under blob hleft => ?_, ?_⟩,
    fun r hid hserver hdevice hprivate hshort => ?_,
    StoredStatus.decode_encode StoredStatus.storable_empty,
    StoredStatus.decode_encode StoredStatus.storable_removed⟩
  · exact (written_run op hsound hc (alters_of_left hleft)).restores hleft
  · rintro under data answer rfl
    exact (written_run op hsound hc rfl).readable
  · have hcomplete := Record.complete_iff.mpr ⟨hid, hserver, hdevice, hprivate⟩
    have hstorable := Record.storable_iff.mpr ⟨hcomplete, hshort⟩
    exact StoredStatus.decode_encode (StoredStatus.storable_activated.mpr hstorable)

section Example

theorem tombstone_restored :
    let s : Session := { sampleSession with phase := .active storedRecord }
    let site := sampleSite (.activated storedRecord) false
    sampleSession.run siteHost (.deserialize s.serialize) site = ⟨.ok .done, s, false, site⟩ ∧
      (s.run siteHost .remove site).session.phase = .removed ∧
      Session.resume sampleSetup {} (siteHost.store.load s.storageName
        (s.run siteHost .remove site).state).1 = .ok { sampleSession with phase := .removed } ∧
      StoredStatus.decode (StoredStatus.activated storedRecord).encode =
        .ok (.activated storedRecord) := by
  intro s site
  have hstorable := StoredStatus.storable_activated.mpr storable_storedRecord
  have hresumed := resume_sampleSite hstorable false
  have hpast : History siteHost [] s := .resumed hresumed
  obtain ⟨hserialized, hwritten, hrecords, -⟩ := status_restores hpast
  obtain ⟨hcomplete, hshort⟩ := Record.storable_iff.mp storable_storedRecord
  obtain ⟨hid, hserver, hdevice, hprivate⟩ := Record.complete_iff.mp hcomplete
  refine ⟨hserialized.deserialized siteHost sampleSession site _ rfl, rfl, ?_,
    hrecords storedRecord hid hserver hdevice hprivate hshort⟩
  have hcalls : s.calls siteHost .remove site =
      [.save s.storageName StoredStatus.removed.encode (.ok ())] := calls_lockless rfl rfl
  have hsaved : Call.save s.storageName StoredStatus.removed.encode (.ok ()) ∈
      s.calls siteHost .remove site := by
    rw [hcalls]
    exact List.mem_singleton_self _
  obtain ⟨-, hrestores⟩ := (hwritten .remove site _ hsaved).1 _ _ rfl
  have hload : (siteHost.store.load s.storageName (s.run siteHost .remove site).state).1 =
      .ok (some StoredStatus.removed.encode) := by
    rfl
  rw [hload]
  exact hrestores.opened sampleSetup {} sampleSession new_sampleSetup

end Example

end Session

end DeviceAuth
