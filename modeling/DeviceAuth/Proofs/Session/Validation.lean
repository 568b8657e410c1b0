import DeviceAuth.Proofs.ActivationCode
import DeviceAuth.Proofs.Session.Soundness

namespace DeviceAuth.Session

open Activation

section Run

variable {σ α : Type} {host : Host σ} {s : Session} {w : σ}

inductive Ready (s : Session) : Session → Prop
  | same : Ready s s
  | reread (status : StoredStatus) :
      Ready s { s with vaultToken := none, phase := .ofStored status, stale := false }

theorem Phase.ofStored_of_load {stored : Except StoreFault (Option Bytes)} {phase : Phase}
    (h : Phase.load stored = .ok phase) : ∃ status, phase = .ofStored status := by
  cases stored with
  | error why => cases h
  | ok blob =>
      cases blob with
      | none =>
          cases h
          exact ⟨.empty, rfl⟩
      | some b =>
          obtain ⟨status, -, hp⟩ := map_eq_ok.mp h
          exact ⟨status, hp.symm⟩

theorem ready_of_enter {lock : LockActions σ} (h : (s.enter host.store lock w).answer = .ok ()) :
    Ready s (s.enter host.store lock w).session := by
  unfold enter at h ⊢
  dsimp only at h ⊢
  split at h
  next hc =>
    rw [if_pos hc]
    unfold reload at h ⊢
    dsimp only at h ⊢
    split at h
    next => cases h
    next phase hload =>
      obtain ⟨status, rfl⟩ := Phase.ofStored_of_load hload
      exact .reread status
  next hc =>
    rw [if_neg hc]
    exact .same

theorem exclusive_eq_ok {plan : Session → Plan α} {a : α}
    (h : (exclusive host plan s w).answer = .ok a) :
    ∃ t w', Ready s t ∧ ((plan t).perform host.store s.storageName w').answer = .ok a ∧
      (exclusive host plan s w).session =
        ((plan t).perform host.store s.storageName w').session := by
  unfold exclusive at h ⊢
  cases hl : host.lock with
  | none =>
      simp only [hl] at h
      exact ⟨s, w, .same, h, rfl⟩
  | some lock =>
      simp only [hl] at h ⊢
      cases ha : (s.enter host.store lock w).answer with
      | error why =>
          rw [ha] at h
          cases h
      | ok _ =>
          rw [ha] at h
          exact ⟨_, _, ready_of_enter ha, h, rfl⟩

end Run

section Validate

variable {σ : Type} {host : Host σ} {s : Session} {w : σ} {response : Cryptogram}
  {unlock : UnlockKeys} {draws : ValidationDraws} {a : Answer}

theorem run_validate_eq_ok (h : (s.run host (.validate response unlock draws) w).answer = .ok a) :
    ∃ pending plain answered r, s.phase = .started pending ∧
      (pending.encryptor.decryptResponse response).1 = .ok plain ∧
      Response.decode plain = .ok answered ∧ s.recordOf pending answered unlock draws = .ok r ∧
      (s.run host (.validate response unlock draws) w).session.phase = .pendingCommit r := by
  have hrun : s.run host (.validate response unlock draws) w =
      exclusive host (Operation.plan (.validate response unlock draws)) s w := rfl
  rw [hrun] at h ⊢
  obtain ⟨t, w', hready, hanswer, hsession⟩ := exclusive_eq_ok h
  rw [hsession]
  have heffect := plan_effect t (.validate response unlock draws)
  generalize Operation.plan (.validate response unlock draws) t = plan at heffect hanswer ⊢
  cases heffect with
  | validated hp hplain hdecode hr =>
      cases hready with
      | same => exact ⟨_, _, _, _, hp, hplain, hdecode, hr, rfl⟩
      | reread status => cases status <;> cases hp
  | opened a hrequest _ _ _ => cases hrequest
  | _ => cases hanswer

theorem signedData_injective {a b : Response} (ha : ∀ c ∈ a.signedParts, Framing.Fits c)
    (hb : ∀ c ∈ b.signedParts, Framing.Fits c) (h : a.signedData = b.signedData) :
    a.activationId = b.activationId ∧ a.serverKey = b.serverKey ∧
      a.counterSeed = b.counterSeed := by
  have hparts := Framing.join_injective ha hb h
  simp only [Response.signedParts, List.cons.injEq, and_true] at hparts
  obtain ⟨hid, hkey, hseed⟩ := hparts
  refine ⟨Text.utf8_injective hid, hkey, ?_⟩
  have hread := Response.seed_eq_ok.mpr (Response.seedBytes_eq a)
  rw [hseed, Response.seed_eq_ok.mpr (Response.seedBytes_eq b)] at hread
  exact (Except.ok.inj hread).symm

theorem only_signed_data_enters :
    (∀ (host : Host σ) (s : Session) (w : σ) response unlock draws a,
      (s.run host (.validate response unlock draws) w).answer = .ok a →
      ∃ pending plain answered r id serverKey counterData,
        s.phase = .started pending ∧ (pending.encryptor.decryptResponse response).1 = .ok plain ∧
        Response.decode plain = .ok answered ∧
        s.masterKey.verify (Framing.join [Text.utf8 id, serverKey, counterData])
          answered.signature = .ok () ∧
        (s.run host (.validate response unlock draws) w).session.phase = .pendingCommit r ∧
        r.id = id ∧ r.serverKey = serverKey ∧
        ((counterData = [] ∧ r.counter = .numeric 0) ∨
          ∃ seed : Key, counterData = seed.bytes ∧ r.counter = .chain seed 0)) ∧
    (∀ a b : Response, (∀ c ∈ a.signedParts, c.length < 2 ^ 32) →
      (∀ c ∈ b.signedParts, c.length < 2 ^ 32) → a.signedData = b.signedData →
      a.activationId = b.activationId ∧ a.serverKey = b.serverKey ∧
        a.counterSeed = b.counterSeed) ∧
    (∀ text code, ActivationCode.parse text = .ok code → ∀ response : Response,
      Text.utf8 (String.ofList (ActivationCode.unsigned text)) ≠ response.signedData ∧
        Text.utf8 code.text ≠ response.signedData) := by
  refine ⟨?_, ?_, ?_⟩
  · intro host s w response unlock draws a h
    obtain ⟨pending, plain, answered, r, hp, hplain, hdecode, hr, hphase⟩ := run_validate_eq_ok h
    obtain ⟨hverify, _, _, _, -, -, -, hrecord⟩ := recordOf_eq_ok.mp hr
    refine ⟨pending, plain, answered, r, answered.activationId, answered.serverKey,
      answered.seedBytes, hp, hplain, hdecode, hverify, hphase, ?_, ?_, ?_⟩
    · rw [hrecord]
    · rw [hrecord]
    · rw [hrecord, Response.seedBytes, initialCounter]
      cases answered.counterSeed with
      | none => exact .inl ⟨rfl, rfl⟩
      | some seed => exact .inr ⟨seed, rfl, rfl⟩
  · intro a b ha hb h
    exact signedData_injective ha hb h
  · intro text code h response
    exact ⟨ActivationCode.utf8_ne_join (ActivationCode.shaped_of_parse h) _ _,
      ActivationCode.utf8_ne_join (ActivationCode.shaped_codeChars code.payload) _ _⟩

end Validate

end DeviceAuth.Session
