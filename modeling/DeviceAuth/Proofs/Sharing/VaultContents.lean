import DeviceAuth.Proofs.Sharing.VaultToken

namespace DeviceAuth

open Activation

namespace Session

variable {σ : Type} {host : Host σ} {s : Session} {w : σ} {keys : DerivedKeys}
  {device : P256.PrivateKey} {recovery : Option Recovery} {unlock : UnlockKeys} {r r' : Record}
  {a : Answer}

theorem run_start_eq_ok {code : Option OfferedCode} {ephemeral : P256.PrivateKey}
    {nonce : Fixed 16} (h : (s.run host (.start code device ephemeral nonce) w).answer = .ok a) :
    ∃ encryptor, (s.run host (.start code device ephemeral nonce) w).session.phase =
      .started ⟨device, encryptor⟩ := by
  have hrun : s.run host (.start code device ephemeral nonce) w =
      exclusive host (Operation.plan (.start code device ephemeral nonce)) s w := rfl
  rw [hrun] at h ⊢
  obtain ⟨t, w', -, hanswer, hsession⟩ := exclusive_eq_ok h
  rw [hsession]
  have heffect := plan_effect t (.start code device ephemeral nonce)
  generalize Operation.plan (.start code device ephemeral nonce) t = plan at heffect hanswer ⊢
  cases heffect with
  | @started _ _ _ _ encryptor _ _ _ _ => exact ⟨encryptor, rfl⟩
  | opened _ hrequest _ _ _ => cases hrequest
  | _ => cases hanswer

theorem Vaulted.of_unaltered (h : Vaulted keys device recovery unlock r) (hr : Unaltered r r') :
    Vaulted keys device recovery unlock r' where
  transport := (ProtectedKeys.unlockTransport_congr hr.transport rfl).trans h.transport
  privateKey := by
    rw [openPrivateKey, hr.privateKey]
    exact h.privateKey
  unissued hnone := hr.recovery.trans (h.unissued hnone)
  issued x hx := by
    obtain ⟨b, hb, hopened⟩ := h.issued x hx
    exact ⟨b, hr.recovery.trans hb, hopened⟩

theorem Vaulted.of_possession {unlock' : UnlockKeys} (h : Vaulted keys device recovery unlock r)
    (hsame : unlock'.possession = unlock.possession) : Vaulted keys device recovery unlock' r where
  transport := (ProtectedKeys.unlockTransport_congr rfl hsame).trans h.transport
  privateKey := h.privateKey
  unissued := h.unissued
  issued := h.issued

theorem token_of_signVault {request : HttpRequest} {factors : FactorSet} {nonce token : Fixed 16}
    {g : HttpSignature} {proof : VaultProof}
    (h : (s.run host (.signVault request factors unlock nonce token) w).answer =
      .ok (.vaultSignature g proof)) :
    (s.run host (.signVault request factors unlock nonce token) w).session.vaultToken =
      some proof.token := by
  cases carries_run host s (.signVault request factors unlock nonce token) w with
  | keptOut why _ hanswer _ =>
      rw [hanswer] at h
      cases h
  | unread why hanswer _ =>
      rw [hanswer] at h
      cases h
  | planned t stale w' _ _ hanswer hsession =>
      rw [hanswer] at h
      rw [hsession]
      have heffect := plan_effect t (.signVault request factors unlock nonce token)
      generalize Operation.plan (.signVault request factors unlock nonce token) t = plan
        at heffect h ⊢
      cases heffect with
      | vaultSigned _ _ =>
          rw [Plan.perform] at h ⊢
          split at h
          next =>
            cases h
            rfl
          next => cases h
      | opened a hrequest _ _ _ => cases hrequest
      | spent why hrequest _ => cases hrequest
      | _ => cases h

end Session

namespace World

open Session Counter

variable {p : Place} {w w' : World} {name : String} {m : Member} {op : Session.Operation}
  {r r' : Record} {device : P256.PrivateKey} {g : Grant} {unlock : UnlockKeys}

def phase? (w : World) (name : String) : Option Session.Phase :=
  (w.session? name).map Session.phase

theorem phase?_of_member (hm : w.members.get? name = some m) :
    w.phase? name = some m.session.phase := by
  rw [phase?, session?, hm]
  rfl

theorem phase?_act_perform (hm : w.members.get? name = some m) :
    (w.act p (.perform name op)).phase? name =
      some (m.session.run m.host op w.site).session.phase := by
  rw [act_perform hm]
  refine phase?_of_member (m := ⟨_, m.store, m.lock⟩) ?_
  rw [attach, Registry.get?_set, if_pos rfl]

def Answers (w : World) (name : String) (op : Session.Operation) (a : Answer) : Prop :=
  ∃ m, w.members.get? name = some m ∧ (m.session.run m.host op w.site).answer = .ok a

inductive Stays (p : Place) (name : String) (w : World) : World → Prop
  | start : Stays p name w w
  | act {w' a} :
      Stays p name w w' → Permits p w' a → (w'.act p a).phase? name = w'.phase? name →
      Stays p name w (w'.act p a)

theorem phase?_of_stays (h : Stays p name w w') : w'.phase? name = w.phase? name := by
  induction h with
  | start => rfl
  | act _ _ hsame ih => exact hsame.trans ih

theorem reachable_of_stays (hreachable : Reachable p w) (h : Stays p name w w') :
    Reachable p w' := by
  induction h with
  | start => exact hreachable
  | act _ hp _ ih => exact ih.act hp

inductive Activates (p : Place) (name : String) (device : P256.PrivateKey) (g : Grant)
    (unlock : UnlockKeys) : World → Prop
  | confirmed {w₀ w₁ w₂ : World} {code ephemeral nonce c m pending reply draws a}
      {master : P256.PrivateKey} {signature : Bytes} :
      Reachable p w₀ →
      w₀.Answers name (.start code device ephemeral nonce) (.cryptogram c) →
      Stays p name (w₀.act p (.perform name (.start code device ephemeral nonce))) w₁ →
      w₁.members.get? name = some m → m.session.phase = .started pending →
      master.sign g.signedData = .ok signature →
      (pending.encryptor.decryptResponse reply).1 = .ok (g.response signature).encode →
      w₁.Answers name (.validate reply unlock draws) (.activated a) →
      Stays p name (w₁.act p (.perform name (.validate reply unlock draws))) w₂ →
      w₂.Writes name .confirm →
      Activates p name device g unlock (w₂.act p (.perform name .confirm))

theorem started_of_answers {code : Option OfferedCode} {ephemeral : P256.PrivateKey}
    {nonce : Fixed 16} {a : Answer} (h : w.Answers name (.start code device ephemeral nonce) a) :
    ∃ encryptor, (w.act p (.perform name (.start code device ephemeral nonce))).phase? name =
      some (.started ⟨device, encryptor⟩) := by
  obtain ⟨m, hm, hanswer⟩ := h
  obtain ⟨encryptor, hphase⟩ := run_start_eq_ok hanswer
  exact ⟨encryptor, by rw [phase?_act_perform hm, hphase]⟩

theorem vaulted_of_validated {pending : Pending} {reply : Cryptogram} {draws : ValidationDraws}
    {a : Answer} {master : P256.PrivateKey} {signature : Bytes}
    (hm : w.members.get? name = some m) (hphase : m.session.phase = .started pending)
    (hsign : master.sign g.signedData = .ok signature)
    (hread : (pending.encryptor.decryptResponse reply).1 = .ok (g.response signature).encode)
    (h : w.Answers name (.validate reply unlock draws) a) :
    ∃ r, (w.act p (.perform name (.validate reply unlock draws))).phase? name =
        some (.pendingCommit r) ∧
      Vaulted (g.derived pending.privateKey) pending.privateKey g.issuedRecovery unlock r := by
  obtain ⟨m', hm', hanswer⟩ := h
  obtain rfl : m = m' := by
    rw [hm] at hm'
    exact Option.some.inj hm'
  obtain ⟨pending', plain, answered, r, hphase', hplain, hdecode, hrecord, hpending⟩ :=
    run_validate_eq_ok hanswer
  obtain rfl : pending = pending' := by
    rw [hphase] at hphase'
    cases hphase'
    rfl
  obtain rfl := Except.ok.inj (hread.symm.trans hplain)
  have hfits : Framing.Fits signature :=
    Nat.lt_of_le_of_lt (P256.PrivateKey.length_sign_le hsign) (by decide)
  obtain rfl := Except.ok.inj ((g.decode_response hfits).symm.trans hdecode)
  exact ⟨r, by rw [phase?_act_perform hm, hpending], (granted_of_recordOf hrecord).vaulted⟩

theorem vaulted_of_activates (h : Activates p name device g unlock w) :
    Coherent p True w ∧ ∃ r, p.status w.site = .ok (.activated r) ∧
      Vaulted (g.derived device) device g.issuedRecovery unlock r := by
  cases h with
  | @confirmed w₀ w₁ w₂ code ephemeral nonce c m pending reply draws a master signature hreachable
      hstart hwaits hm hphase hsign hread hvalidate hstays hwrites =>
      obtain ⟨encryptor, hstarted⟩ := started_of_answers (p := p) hstart
      have hsame := phase?_of_stays hwaits
      rw [hstarted, phase?_of_member hm, hphase] at hsame
      cases hsame
      obtain ⟨r, hpending, hvaulted⟩ := vaulted_of_validated (p := p) hm hphase hsign hread hvalidate
      have hvalidated := hreachable.act (a := .perform name (.start code device ephemeral nonce))
        (.perform fun _ => by simp)
      have hanswered := (reachable_of_stays hvalidated hwaits).act
        (a := .perform name (.validate reply unlock draws)) (.perform fun _ => by simp)
      have hcoherent := coherent_of_reachable (reachable_of_stays hanswered hstays)
      obtain ⟨m₂, hm₂, hmod⟩ := hwrites
      obtain ⟨r', hphase₂, -, hstatus, -⟩ := run_confirm hcoherent hm₂ hmod
      have hkept := phase?_of_stays hstays
      rw [hpending, phase?_of_member hm₂, hphase₂] at hkept
      cases hkept
      refine ⟨(confirm_writes hcoherent ⟨m₂, hm₂, hmod⟩).1, r, ?_, hvaulted⟩
      rw [act_perform hm₂]
      exact hstatus

-- The session holds the token of the proof, and its lock has nothing new for it.
structure Fresh (w : World) (m : Member) (proof : VaultProof) : Prop where
  token : m.session.vaultToken = some proof.token
  current : ∀ k, m.lock = some k → w.site.Current k m.session

theorem undisturbed_of_current {read : Prop} (h : Coherent p read w)
    (hm : w.members.get? name = some m)
    (hcurrent : ∀ k, m.lock = some k → w.site.Current k m.session) :
    Undisturbed m.host m.session w.site := by
  intro lock hlock
  obtain ⟨k, hk, rfl⟩ := Option.map_eq_some_iff.mp hlock
  refine ⟨?_, (hcurrent k hk).2⟩
  have hacquire := acquire_free (h.lock_free hm hk)
  exact (congrArg Prod.fst hacquire).trans (bne_eq_false_iff_eq.mpr (hcurrent k hk).1)

theorem current_of_answered {read : Prop} (h : Coherent p read w)
    (hm : w.members.get? name = some m) {k : LockHandle} {a : Answer} (hk : m.lock = some k)
    (haccess : op.access = .exclusive) (hop : ∀ blob, op ≠ .deserialize blob)
    (hanswer : (m.session.run m.host op w.site).answer = .ok a) :
    (m.session.run m.host op w.site).state.Current k
      (m.session.run m.host op w.site).session := by
  have hin := h.members name m hm
  have hzero := h.zero hm hk
  obtain ⟨-, hlen⟩ := hin.handle k hk
  have hpassed {s : Session} (hsound : s.Sound) (hstale : s.stale = false) :
      (((op.plan s).perform (Site.storeActions p.store) p.name (w.site.held k)).released
        (Site.lockActions k)).state.Current k
      ((op.plan s).perform (Site.storeActions p.store) p.name (w.site.held k)).session := by
    have ho := performed (p := p) (plan_faithful op hsound hop) (w.site.held k)
    refine ⟨?_, ho.stale.trans hstale⟩
    rw [hzero, lock_released hzero h.size ho.locks]
    exact (Lock.passed_release hlen _).own
  rw [hin.host hk] at hanswer ⊢
  unfold run at hanswer ⊢
  split at hanswer
  next => cases hanswer
  next =>
    rw [haccess] at hanswer ⊢
    have hentered := enter_entered (h := k) hin.name (h.lock_free hm hk)
    simp only [exclusive] at hanswer ⊢
    generalize m.session.enter (Site.storeActions p.store) (Site.lockActions k) w.site = o
      at hentered hanswer ⊢
    cases hentered with
    | current hcurrent =>
        rw [hin.name]
        exact hpassed hin.sound hcurrent.2
    | unread why _ _ => cases hanswer
    | reread _ hload =>
        obtain ⟨-, status, hstorable, hphase⟩ := Phase.stored_of_load hload
        rw [hin.name]
        exact hpassed (sound_of_ofStored hstorable hphase) rfl

theorem fresh_of_signVault {read : Prop} (h : Coherent p read w) {request : HttpRequest}
    {factors : FactorSet} {nonce token : Fixed 16} {a : HttpSignature} {proof : VaultProof}
    {m' : Member}
    (hanswer : w.Answers name (.signVault request factors unlock nonce token)
      (.vaultSignature a proof))
    (hm' : (w.act p (.perform name (.signVault request factors unlock nonce token))).members.get?
      name = some m') :
    Fresh (w.act p (.perform name (.signVault request factors unlock nonce token))) m' proof := by
  obtain ⟨m, hm, hanswer⟩ := hanswer
  rw [act_perform hm] at hm' ⊢
  rcases get?_attach hm' with ⟨-, rfl⟩ | ⟨hne, -⟩
  · refine ⟨token_of_signVault hanswer, fun k hk => ?_⟩
    exact current_of_answered h hm hk rfl (by simp) hanswer
  · exact absurd rfl hne

theorem vault_keeps_what_was_granted (h : Activates p name device g unlock w)
    {events : List Event} (hlife : Life p w events w') :
    ∃ keys, DerivedKeys.derive (g.key.agree device.publicKey).bytes = .ok keys ∧
      keys.vault = KeyDerivation.subkey (g.key.agree device.publicKey).bytes 2000 ∧
      (∀ n request factors unlock nonce token a proof m,
        w'.Answers n (.signVault request factors unlock nonce token) (.vaultSignature a proof) →
        let signed := w'.act p (.perform n (.signVault request factors unlock nonce token))
        signed.members.get? n = some m → Fresh signed m proof) ∧
      ∀ n m proof unlock', w'.members.get? n = some m → Fresh w' m proof →
        m.session.hasValidActivation = true → unlock'.possession = unlock.possession →
        Opens m.host m.session w'.site ⟨some proof, sealedVaultKey keys, unlock'⟩ keys.vault device
          g.issuedRecovery := by
  obtain ⟨hcoherent, r, hstatus, hvaulted⟩ := vaulted_of_activates h
  obtain ⟨hafter, r', hstatus', -⟩ := life_coherent hcoherent hstatus hlife
  refine ⟨g.derived device, g.derive_secret device, rfl, ?_, ?_⟩
  · intro n request factors unlock nonce token a proof m hanswer signed hm
    exact fresh_of_signVault hafter hanswer hm
  · intro n m proof unlock' hm hfresh hvalid hpossession
    obtain ⟨r'', hr''⟩ := hasValidActivation_iff.mp hvalid
    have hagrees := (hafter.members n m hm).agrees hfresh.current fun _ => .inl trivial
    rw [valid_phase hr'', Phase.stored] at hagrees
    have hunaltered := unaltered_of_life hcoherent hstatus hlife hagrees
    have hopens := (hvaulted.of_unaltered hunaltered).of_possession hpossession
    refine opens_of_vaulted ?_ hr'' ?_ rfl hopens
    · exact undisturbed_of_current hafter hm hfresh.current
    · exact proves_eq_true.mpr ⟨proof, rfl, hfresh.token⟩

section Example

variable {s t : Session} {answer : Answer}

theorem Holds.answers (h : Holds p w name s) (hrefusal : op.refusal? = none)
    (haccess : op.access = .exclusive) (hplan : op.plan s = .keep t answer) :
    w.Answers name op answer := by
  obtain ⟨m, hm, -, -, -, hrun⟩ := h.run hrefusal haccess
  refine ⟨m, hm, ?_⟩
  rw [hrun, hplan]
  rfl

theorem Holds.vaultSigned (h : Holds p w name s) (hreachable : Reachable p w)
    (hphase : s.phase = .active r) (hhealth : r.health = .valid) {request : HttpRequest}
    {factors : FactorSet} {nonce : Fixed 16} {a : HttpSignature}
    (hpossession : factors.possession = true) (honline : request.isOffline = false)
    (ha : s.signature r request factors unlock nonce = .ok a) (token : Fixed 16) :
    ∃ events w' t, Life p w events w' ∧ Holds p w' name t ∧ t.vaultToken = some token ∧
      t.hasValidActivation = true := by
  have hpermits : Permits p w (.perform name (.signVault request factors unlock nonce token)) :=
    .perform fun _ => by simp
  have hrefusal : (Operation.signVault request factors unlock nonce token).refusal? = none := by
    simp [Operation.refusal?, vaultRefusal?, hpossession, honline]
  obtain ⟨hsigned, -, -⟩ := h.save hrefusal rfl (plan_signVault token hphase hhealth ha)
  have hafter := hsigned.status (hreachable.act hpermits) rfl
  refine ⟨_, _, _, .act .confirmed hpermits trivial hafter, hsigned, rfl, ?_⟩
  exact hasValidActivation_iff.mpr ⟨_, valid_eq_ok.mpr ⟨rfl, hhealth⟩⟩

theorem Holds.confirmed (h : Holds p w name { s with phase := .pendingCommit r }) :
    Holds p (w.act p (.perform name .confirm)) name { s with phase := .active r } ∧
      w.Writes name .confirm := by
  have hplan : Operation.plan .confirm { s with phase := .pendingCommit r } =
      Session.commit { s with phase := .pendingCommit r } r .done := rfl
  obtain ⟨hactive, hwrites, -⟩ := h.commit rfl rfl hplan
  exact ⟨hactive, hwrites⟩

theorem exists_activates : ∃ (w : World) (s : Session) (r : Record),
    Activates samplePlace "a" sampleDevice sampleGrant sampleUnlock w ∧ Reachable samplePlace w ∧
      Holds samplePlace w "a" { s with phase := .active r } ∧
      s.externalKey = sampleSession.externalKey ∧
      Granted sampleSession.externalKey sampleDevice sampleGrant sampleUnlock sampleDraws r := by
  obtain ⟨_, _, _, _, r, hstart, hsign, hopened, hvalidate, hgranted⟩ := exists_sampleExchange
  have hstarted := holds_sampleStart.keep rfl rfl hstart
  have hvalidated := hstarted.keep rfl rfl hvalidate
  obtain ⟨hactive, hwrites⟩ := hvalidated.confirmed
  refine ⟨_, sampleSession, r, ?_, ?_, hactive, rfl, hgranted⟩
  · exact .confirmed reachable_sampleStart (holds_sampleStart.answers rfl rfl hstart) .start
      hstarted.member rfl hsign hopened (hstarted.answers rfl rfl hvalidate) .start hwrites
  · exact ((reachable_sampleStart.act (.perform fun _ => by simp)).act
      (.perform fun _ => by simp)).act (.perform fun _ => by simp)

theorem unlocked_with_fresh_proof : ∃ (w w' : World) (events : List Event) (m : Member)
    (keys : DerivedKeys) (request : VaultRequest),
    Activates samplePlace "a" sampleDevice sampleGrant sampleUnlock w ∧
      Life samplePlace w events w' ∧ w'.members.get? "a" = some m ∧
      DerivedKeys.derive (sampleGrant.key.agree sampleDevice.publicKey).bytes = .ok keys ∧
      (m.session.run m.host (.unlockVault request) w'.site).answer = .ok (.key keys.vault) ∧
      (m.session.run m.host (.recovery request) w'.site).answer =
        .error (.state .noRecoveryData) := by
  obtain ⟨w, s, r, hactivates, hreachable, hactive, hexternal, hgranted⟩ := exists_activates
  obtain ⟨a, ha⟩ := exists_signature_granted (s := { s with phase := .active r }) hgranted hexternal
  obtain ⟨events, w', t, hlife, hheld, htoken, hvalid⟩ :=
    hactive.vaultSigned hreachable rfl hgranted.health rfl rfl ha (.zero 16)
  obtain ⟨keys, hkeys, -, -, hopens⟩ := vault_keeps_what_was_granted hactivates hlife
  have hfresh : Fresh w' ⟨t, samplePlace.store, none⟩ ⟨.zero 16⟩ :=
    ⟨htoken, fun k hk => by cases hk⟩
  have hopen := hopens "a" _ ⟨.zero 16⟩ sampleUnlock hheld.member hfresh hvalid rfl
  exact ⟨w, w', events, _, keys, _, hactivates, hlife, hheld.member, hkeys, hopen.unlocked,
    hopen.unissued (by decide)⟩

end Example

end World

end DeviceAuth
