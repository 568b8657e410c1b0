import DeviceAuth.Proofs.FactorSignature
import DeviceAuth.Proofs.Session.Agreement

namespace DeviceAuth.Session

open Activation

variable {σ : Type} {host : Host σ} {s : Session} {w : σ} {r : Record} {request : HttpRequest}
  {factors : FactorSet} {unlock : UnlockKeys} {nonce : Fixed 16} {g : HttpSignature} {a : Answer}

def signedData (s : Session) (request : HttpRequest) (nonce : String) : Bytes :=
  request.normalizedData nonce (s.applicationSecret request)

theorem signature_eq_ok (h : s.signature r request factors unlock nonce = .ok g) :
    ∃ external keys, s.signingKey r factors = .ok external ∧
      r.keys.unlock factors unlock external = .ok keys ∧
      FactorSignature.compute factors keys r.counter (s.signedData request g.nonce) =
        .ok g.signature := by
  obtain ⟨_, -, h⟩ := bind_eq_ok.mp h
  obtain ⟨_, -, h⟩ := bind_eq_ok.mp h
  obtain ⟨-, h⟩ := guard_eq_ok.mp h
  obtain ⟨text, -, h⟩ := bind_eq_ok.mp h
  obtain ⟨external, hexternal, h⟩ := bind_eq_ok.mp h
  obtain ⟨keys, hkeys, h⟩ := bind_eq_ok.mp h
  obtain ⟨code, hcode, h⟩ := bind_eq_ok.mp h
  cases h
  exact ⟨external, keys, hexternal, hkeys, hcode⟩

def Shares (s : Session) (r : Record) (factors : FactorSet) (unlock : UnlockKeys)
    (keys : FactorKeys) : Prop :=
  ∀ external opened, s.signingKey r factors = .ok external →
    r.keys.unlock factors unlock external = .ok opened →
    ∀ f ∈ factors.toList, keys.get f = opened.get f

theorem compute_of_signature {keys : FactorKeys}
    (h : s.signature r request factors unlock nonce = .ok g)
    (hshares : s.Shares r factors unlock keys) :
    FactorSignature.compute factors keys r.counter (s.signedData request g.nonce) =
      .ok g.signature := by
  obtain ⟨external, opened, hexternal, hopened, hcode⟩ := signature_eq_ok h
  rw [FactorSignature.compute_congr (hshares external opened hexternal hopened), hcode]

theorem plan_sign (hphase : s.phase = .active r)
    (hhealth : r.health = .valid) (hg : s.signature r request factors unlock nonce = .ok g) :
    Operation.plan (.sign request factors unlock nonce) s =
      s.commit { r with counter := r.counter.next } (.signature g) := by
  have hvalid := valid_eq_ok.mpr ⟨hphase, hhealth⟩
  have hsign : s.sign request factors unlock nonce =
      s.commit { r with counter := r.counter.next } g := by
    refine congrArg (Plan.orRefuse s) (?_ : _ = Except.ok _)
    exact bind_eq_ok.mpr ⟨r, hvalid, bind_eq_ok.mpr ⟨g, hg, rfl⟩⟩
  rw [Operation.plan, hsign]
  rfl

theorem plan_signVault (token : Fixed 16) (hphase : s.phase = .active r)
    (hhealth : r.health = .valid) (hg : s.signature r request factors unlock nonce = .ok g) :
    Operation.plan (.signVault request factors unlock nonce token) s =
      .write s (.save (.activated { r with counter := r.counter.next }))
        { s with phase := .active { r with counter := r.counter.next }, vaultToken := some token }
        (.vaultSignature g ⟨token⟩) := by
  have hvalid := valid_eq_ok.mpr ⟨hphase, hhealth⟩
  have hsign : s.signVault request factors unlock nonce token =
      .write s (.save (.activated { r with counter := r.counter.next }))
        { s with phase := .active { r with counter := r.counter.next }, vaultToken := some token }
        (g, ⟨token⟩) := by
    refine congrArg (Plan.orRefuse s) (?_ : _ = Except.ok _)
    exact bind_eq_ok.mpr ⟨r, hvalid, bind_eq_ok.mpr ⟨g, hg, rfl⟩⟩
  rw [Operation.plan, hsign]
  rfl

theorem run_sign_refused {why : Failure} (hquiet : Undisturbed host s w) (h : s.valid = .error why) :
    (s.run host (.sign request factors unlock nonce) w).answer = .error why := by
  obtain ⟨w', hanswer, -⟩ :=
    exclusive_undisturbed (Operation.plan (.sign request factors unlock nonce)) hquiet
  refine hanswer.trans ?_
  rw [Operation.plan, sign, h]
  rfl

theorem run_sign (hquiet : Undisturbed host s w) (haccepts : host.store.Accepts)
    (hphase : s.phase = .active r) (hhealth : r.health = .valid) :
    (s.run host (.sign request factors unlock nonce) w).answer =
      (s.signature r request factors unlock nonce).map .signature := by
  cases hg : s.signature r request factors unlock nonce with
  | ok g => exact (run_of_commit hquiet haccepts rfl rfl (plan_sign hphase hhealth hg)).1
  | error why =>
      obtain ⟨w', hanswer, -⟩ :=
        exclusive_undisturbed (Operation.plan (.sign request factors unlock nonce)) hquiet
      refine hanswer.trans ?_
      rw [Operation.plan, sign, valid_eq_ok.mpr ⟨hphase, hhealth⟩]
      change (Plan.perform _ _ _ ((Plan.orRefuse s
        (s.signature r request factors unlock nonce >>= _)).map _)).answer = _
      rw [hg]
      rfl

inductive SignStep (s : Session) (request : HttpRequest) (factors : FactorSet)
    (unlock : UnlockKeys) (nonce : Fixed 16) : Except Failure Answer → Session → Prop
  | signed {r : Record} {g : HttpSignature} :
      s.phase = .active r → r.health = .valid →
      s.signature r request factors unlock nonce = .ok g →
      SignStep s request factors unlock nonce (.ok (.signature g))
        { s with phase := .active { r with counter := r.counter.next } }
  | refused (why : Failure) : SignStep s request factors unlock nonce (.error why) s

theorem signStep_run (request : HttpRequest) (factors : FactorSet) (unlock : UnlockKeys)
    (nonce : Fixed 16) (hquiet : Undisturbed host s w) :
    SignStep s request factors unlock nonce
      (s.run host (.sign request factors unlock nonce) w).answer
      (s.run host (.sign request factors unlock nonce) w).session := by
  have hrun : s.run host (.sign request factors unlock nonce) w =
      exclusive host (Operation.plan (.sign request factors unlock nonce)) s w := rfl
  obtain ⟨w', hanswer, hsession⟩ :=
    exclusive_undisturbed (Operation.plan (.sign request factors unlock nonce)) hquiet
  rw [hrun, hanswer, hsession]
  have heffect := plan_effect s (.sign request factors unlock nonce)
  generalize Operation.plan (.sign request factors unlock nonce) s = plan at heffect ⊢
  cases heffect with
  | refused _ why => exact .refused why
  | spent _ hrequest _ => cases hrequest
  | opened _ hrequest _ _ _ => cases hrequest
  | signed hr hg =>
      obtain ⟨hphase, hhealth⟩ := valid_eq_ok.mp hr
      rw [commit, Plan.perform]
      split
      next => exact .signed hphase hhealth hg
      next why _ _ => exact .refused (.store why)

section Example

def sampleDerived : DerivedKeys where
  possession := filledKey 8
  knowledge := .zero 32
  biometry := .zero 32
  transport := filledKey 9
  vault := .zero 32

def sampleRequest : HttpRequest where
  method := "GET"
  uri := "/"

def signerRecord (counter : Counter) (health : Health) : Record where
  id := "activation"
  serverKey := []
  deviceKey := []
  sealedPrivateKey := []
  sealedRecovery := none
  keys := {
    possession := ProtectedKeys.sealKey (filledKey 6) sampleDerived.possession
    knowledge := []
    biometry := none
    transport := ProtectedKeys.sealKey (filledKey 6) sampleDerived.transport
    salt := .zero 16
    iterations := 0 }
  counter := counter
  external := false
  health := health
  pendingUpgrade := none

def signer (counter : Counter) (health : Health) : Session :=
  { sampleSession with phase := .active (signerRecord counter health) }

theorem accepts_sampleHost : sampleHost.store.Accepts :=
  fun _ _ _ => rfl

theorem requirePossession_sampleUnlock :
    sampleUnlock.requirePossession = .ok (filledKey 6) := by
  decide

theorem unlockTransport_signer (counter : Counter) (health : Health) :
    (signerRecord counter health).keys.unlockTransport sampleUnlock = .ok sampleDerived.transport :=
  bind_eq_ok.mpr ⟨_, requirePossession_sampleUnlock, ProtectedKeys.openKey_sealKey _ _⟩

theorem unlock_signer (counter : Counter) (health : Health) :
    (signerRecord counter health).keys.unlock .possessionOnly sampleUnlock none =
      .ok (ProtectedKeys.chosen sampleDerived .possessionOnly) := by
  refine ProtectedKeys.unlock_of_factors rfl fun f hf => ?_
  cases f with
  | possession =>
      exact bind_eq_ok.mpr ⟨_, requirePossession_sampleUnlock, ProtectedKeys.openKey_sealKey _ _⟩
  | knowledge => cases hf
  | biometry => cases hf

theorem shares_signer (counter : Counter) (health : Health) :
    (signer counter health).Shares (signerRecord counter health) .possessionOnly sampleUnlock
      (ProtectedKeys.chosen sampleDerived .possessionOnly) := by
  intro external opened hexternal hopened f _
  have hnone : (signer counter health).signingKey (signerRecord counter health) .possessionOnly =
      .ok none := if_pos rfl
  rw [hnone] at hexternal
  cases hexternal
  rw [unlock_signer] at hopened
  cases hopened
  rfl

theorem exists_signature_signer (counter : Counter) (health : Health) :
    ∃ g, (signer counter health).signature (signerRecord counter health) sampleRequest
      .possessionOnly sampleUnlock (.zero 16) = .ok g ∧
      g.nonce = Base64.encode (Fixed.zero 16).bytes := by
  have hrequest : sampleRequest.check = .ok () := by decide +kernel
  have hallowed : FactorSet.possessionOnly.allowed = true := rfl
  obtain ⟨text, htext⟩ := FactorSignature.exists_compute sampleDerived hallowed counter
    ((signer counter health).signedData sampleRequest (Base64.encode (Fixed.zero 16).bytes))
  exact ⟨_, signature_online (.zero 16) hrequest rfl rfl (if_pos rfl)
    (unlock_signer counter health) htext, rfl⟩

theorem run_signer (counter : Counter) :
    ∃ g, g.nonce = Base64.encode (Fixed.zero 16).bytes ∧
      ((signer counter .valid).run sampleHost
        (.sign sampleRequest .possessionOnly sampleUnlock (.zero 16)) ()).answer =
          .ok (.signature g) ∧
      ((signer counter .valid).run sampleHost
        (.sign sampleRequest .possessionOnly sampleUnlock (.zero 16)) ()).session =
          signer counter.next .valid := by
  obtain ⟨g, hg, hnonce⟩ := exists_signature_signer counter .valid
  have hplan := plan_sign (s := signer counter .valid) rfl rfl hg
  obtain ⟨hanswer, hsession⟩ :=
    run_of_commit (undisturbed_sampleHost _) accepts_sampleHost rfl rfl hplan
  refine ⟨g, hnonce, hanswer, hsession.trans ?_⟩
  simp only [signer, signerRecord]

def allFactors : FactorSet :=
  ⟨true, true, true⟩

theorem exists_signature_granted {s : Session}
    (h : Granted sampleSession.externalKey sampleDevice sampleGrant sampleUnlock sampleDraws r)
    (hs : s.externalKey = sampleSession.externalKey) :
    ∃ g, s.signature r sampleRequest allFactors sampleUnlock (.zero 16) = .ok g := by
  have hrequest : sampleRequest.check = .ok () := by decide +kernel
  exact h.exists_signature hs (.zero 16) hrequest rfl rfl (fun _ => by simp [sampleUnlock])
    (by decide) r.counter

end Example

end DeviceAuth.Session
