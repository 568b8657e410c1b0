import DeviceAuth.Proofs.Base64
import DeviceAuth.Proofs.ServerStatus
import DeviceAuth.Proofs.Session.Sign

namespace DeviceAuth

namespace Counter

variable {server client : Counter} {d : Int} {i j : Nat}

-- The client is `d` states ahead of the server, or behind it if `d` is negative.
def Apart (server client : Counter) : Int → Prop
  | .ofNat n => client = advance n server
  | .negSucc n => server = advance (n + 1) client

theorem Apart.eq_of_advance (h : Apart server client d) (hlow : -2 ^ 63 < d) (hhigh : d < 2 ^ 63)
    (hi : i < 2 ^ 63) (hsame : advance i server = client) : d = i := by
  cases d with
  | ofNat n =>
      have hn : client = advance n server := h
      have hsteps := congrArg steps (hsame.trans hn)
      rw [Int.ofNat_eq_natCast] at hhigh ⊢
      rw [eq_of_steps_advance (by omega) (by omega) hsteps]
  | negSucc n =>
      have hn : server = advance (n + 1) client := h
      rw [hn, advance_add] at hsame
      have hsteps : (advance (n + 1 + i) client).steps = (advance 0 client).steps := by
        rw [hsame]
        rfl
      have hzero := eq_of_steps_advance (by omega) (by omega) hsteps
      omega

theorem toUInt8_steps_advance (n : Nat) (c : Counter) :
    (advance n c).steps.toUInt8 = c.steps.toUInt8 + UInt8.ofNat n := by
  rw [steps_advance_add, UInt64.toUInt8_add, UInt64.toUInt8_ofNat']

end Counter

namespace Session

open Activation Counter

section Distance

variable {config : Config} {status : ServerStatus} {server client : Counter} {transport : Key}
  {d : Int}

theorem toNat_distance (h : Apart server client d)
    (hbyte : status.counterByte = server.steps.toUInt8) :
    ((distance client status).toNat : Int) = d % 256 := by
  rw [distance, hbyte, UInt8.toNat_sub]
  cases d with
  | ofNat n =>
      have hn : client = advance n server := h
      have hbound := server.steps.toUInt8.toNat_lt
      rw [hn, toUInt8_steps_advance, UInt8.toNat_add, UInt8.toNat_ofNat', Int.ofNat_eq_natCast]
      omega
  | negSucc n =>
      have hn : server = advance (n + 1) client := h
      have hbound := client.steps.toUInt8.toNat_lt
      rw [hn, toUInt8_steps_advance, UInt8.toNat_add, UInt8.toNat_ofNat', Int.negSucc_eq]
      omega

theorem toNat_effectiveLookahead (config : Config) (status : ServerStatus) :
    (effectiveLookahead config status).toNat =
      if status.lookahead = 0 then min config.lookahead.toNat 255 else status.lookahead.toNat := by
  unfold effectiveLookahead
  split
  · rw [UInt8.toNat_ofNat']
    exact Nat.mod_eq_of_lt (by omega)
  · rfl

theorem inSync_iff (h : Apart server client d)
    (hbyte : status.counterByte = server.steps.toUInt8)
    (hdigest : status.chainDigest = Hmac.fold (hmac transport.bytes server.data))
    (hlow : -(255 - ((effectiveLookahead config status).toNat : Int)) ≤ d) (hhigh : d ≤ 255) :
    inSync config client status transport = true ↔
      0 ≤ d ∧ d ≤ (effectiveLookahead config status).toNat := by
  have hdistance := toNat_distance h hbyte
  have hwindow := (effectiveLookahead config status).toNat_lt
  unfold inSync
  dsimp only
  split
  next hfar =>
    rw [UInt8.lt_iff_toNat_lt] at hfar
    constructor
    · intro hfalse
      cases hfalse
    · intro hin
      omega
  next hnear =>
    rw [UInt8.lt_iff_toNat_lt] at hnear
    have hin : 0 ≤ d ∧ d ≤ (effectiveLookahead config status).toNat := by omega
    split
    next hzero =>
      have hd : d = 0 := by
        have hnat : (distance client status).toNat = 0 := by rw [hzero.1]; rfl
        omega
      subst hd
      have hsame : client = server := h
      simp [hsame, hdigest, hin]
    next => simp [hin]

end Distance

section Report

variable {σ : Type} {host : Host σ} {s : Session} {w : σ} {r : Record} {unlock : UnlockKeys}
  {transport : Key} {status : ServerStatus} {health : Health}

def sealedStatus (transport : Key) (status : ServerStatus) : String :=
  Base64.encode (Cbc.encrypt (Aes.Schedule.ofLong transport) (.zero 16) status.encode)

theorem readStatus_sealedStatus (transport : Key) (status : ServerStatus) :
    readStatus transport (sealedStatus transport status) = .ok status := by
  have hlength := status.length_encode
  have hsealed : (Cbc.encrypt (Aes.Schedule.ofLong transport) (.zero 16) status.encode).length = 32 := by
    rw [Cbc.length_encrypt, hlength]
  refine bind_eq_ok.mpr ⟨_, mapError_eq_ok.mpr (Base64.decode_encode _), ?_⟩
  refine guard_eq_ok.mpr ⟨by rw [hsealed]; simp, ?_⟩
  rw [Cbc.decrypt_encrypt _ _ (by rw [hlength])]
  exact mapError_eq_ok.mpr status.decode_encode

theorem applyStatus_sealedStatus (hphase : s.phase = .active r)
    (htransport : r.keys.unlockTransport unlock = .ok transport)
    (hhealth : s.healthAfter r status transport = some health) :
    s.applyStatus (sealedStatus transport status) unlock =
      if health = r.health then .keep s status else s.commit { r with health } status := by
  have hplan : s.applyStatus (sealedStatus transport status) unlock = Plan.orRefuse s
      (.ok (if health = r.health then .keep s status else s.commit { r with health } status)) := by
    refine congrArg (Plan.orRefuse s) ?_
    refine bind_eq_ok.mpr ⟨r, committed_eq_ok.mpr hphase, bind_eq_ok.mpr ⟨transport, htransport, ?_⟩⟩
    refine bind_eq_ok.mpr ⟨status, readStatus_sealedStatus transport status, ?_⟩
    rw [hhealth]
    dsimp only
    split <;> rfl
  exact hplan

theorem run_applyStatus (hphase : s.phase = .active r) (hquiet : Undisturbed host s w)
    (haccepts : host.store.Accepts) (htransport : r.keys.unlockTransport unlock = .ok transport)
    (hhealth : s.healthAfter r status transport = some health) :
    (s.run host (.applyStatus (sealedStatus transport status) unlock) w).answer =
        .ok (.status status) ∧
      (s.run host (.applyStatus (sealedStatus transport status) unlock) w).session =
        { s with phase := .active { r with health } } := by
  have happly := applyStatus_sealedStatus hphase htransport hhealth
  have hplan : Operation.plan (.applyStatus (sealedStatus transport status) unlock) s =
      (s.applyStatus (sealedStatus transport status) unlock).map .status := rfl
  rw [happly] at hplan
  by_cases hsame : health = r.health
  · rw [if_pos hsame] at hplan
    obtain ⟨hanswer, hsession⟩ := run_of_keep hquiet rfl rfl hplan
    refine ⟨hanswer, hsession.trans ?_⟩
    rw [hsame, ← hphase]
  · rw [if_neg hsame] at hplan
    exact run_of_commit hquiet haccepts rfl rfl hplan

end Report

section Agreement

variable {σ : Type} {s : Session} {w : σ} {r : Record} {unlock : UnlockKeys} {transport : Key}
  {status : ServerStatus} {server : Counter} {d : Int}

theorem healthAfter_eq (hactive : status.state = .active) (hapart : Apart server r.counter d)
    (hbyte : status.counterByte = server.steps.toUInt8)
    (hdigest : status.chainDigest = Hmac.fold (hmac transport.bytes server.data))
    (hlow : -(255 - ((effectiveLookahead s.config status).toNat : Int)) ≤ d) (hhigh : d ≤ 255) :
    s.healthAfter r status transport = some
      (if 0 ≤ d ∧ d ≤ (effectiveLookahead s.config status).toNat then .valid else .deadlock) := by
  rw [healthAfter, hactive]
  simp only [inSync_iff hapart hbyte hdigest hlow hhigh]

theorem exists_advance (hapart : Apart server r.counter d) (hzero : 0 ≤ d) :
    ∃ n : Nat, d = n ∧ advance n server = r.counter := by
  obtain ⟨n, rfl⟩ := Int.eq_ofNat_of_zero_le hzero
  exact ⟨n, rfl, hapart.symm⟩

theorem status_agrees_with_window (host : Host σ) (window : Nat) (hphase : s.phase = .active r)
    (hquiet : Undisturbed host s w) (haccepts : host.store.Accepts)
    (htransport : r.keys.unlockTransport unlock = .ok transport)
    (hactive : status.state = .active) (hapart : Apart server r.counter d)
    (hbyte : status.counterByte = server.steps.toUInt8)
    (hdigest : status.chainDigest = Hmac.fold (hmac transport.bytes server.data))
    (hwindow : window =
      if status.lookahead = 0 then min s.config.lookahead.toNat 255 else status.lookahead.toNat)
    (hlow : -(255 - (window : Int)) ≤ d) (hhigh : d ≤ 255) :
    let o := s.run host (.applyStatus (sealedStatus transport status) unlock) w
    o.answer = .ok (.status status) ∧
    o.session.phase =
      .active { r with health := if 0 ≤ d ∧ d ≤ window then .valid else .deadlock } ∧
    o.session.status = (if 0 ≤ d ∧ d ≤ window then .valid else .deadlock) ∧
    (∀ request factors unlock nonce w', Undisturbed host o.session w' →
      (o.session.run host (.sign request factors unlock nonce) w').answer =
        if 0 ≤ d ∧ d ≤ window then (s.signature r request factors unlock nonce).map .signature
        else .error (.state (.notValid .deadlock))) ∧
    ∀ request factors unlock nonce g keys,
      s.signature r request factors unlock nonce = .ok g → s.Shares r factors unlock keys →
      let accepts := FactorSignature.verify factors keys (s.signedData request g.nonce) g.signature
        window server
      (0 ≤ d ∧ d ≤ window → ∃ c, accepts = .ok c) ∧
      ((∀ i, i ≤ window → FactorSignature.compute factors keys (advance i server)
          (s.signedData request g.nonce) = .ok g.signature → advance i server = r.counter) →
        ∀ c, accepts = .ok c ↔ (0 ≤ d ∧ d ≤ window) ∧ c = r.counter.next) := by
  intro o
  rw [← toNat_effectiveLookahead] at hwindow
  have hbyte' : window < 256 := hwindow ▸ (effectiveLookahead s.config status).toNat_lt
  rw [hwindow] at hlow
  have hhealth := healthAfter_eq hactive hapart hbyte hdigest hlow hhigh
  rw [← hwindow] at hhealth
  obtain ⟨hanswer, hsession⟩ := run_applyStatus hphase hquiet haccepts htransport hhealth
  refine ⟨hanswer, by rw [hsession], ?_, ?_, ?_⟩
  · exact (congrArg Session.status hsession).trans (apply_ite Health.status _ _ _)
  · intro request factors unlock nonce w' hquiet'
    by_cases hin : 0 ≤ d ∧ d ≤ window
    · rw [if_pos hin] at hsession ⊢
      rw [run_sign hquiet' haccepts (congrArg Session.phase hsession) rfl, hsession]
      rfl
    · rw [if_neg hin] at hsession ⊢
      refine run_sign_refused hquiet' ?_
      rw [hsession]
      rfl
  · intro request factors unlock nonce g keys hg hshares accepts
    have hcode := compute_of_signature hg hshares
    have hreached (hin : 0 ≤ d ∧ d ≤ window) : ∃ c, accepts = .ok c := by
      obtain ⟨n, hn, hadvance⟩ := exists_advance hapart hin.1
      have hn' : n ≤ window := by omega
      rw [← hadvance] at hcode
      obtain ⟨m, -, -, haccepted⟩ := FactorSignature.exists_verify hn' hcode
      exact ⟨_, haccepted⟩
    refine ⟨hreached, fun hdistinct c => ?_⟩
    have hfound {c : Counter} (haccepted : accepts = .ok c) :
        (0 ≤ d ∧ d ≤ window) ∧ c = r.counter.next := by
      obtain ⟨i, hi, hhit, hc⟩ := FactorSignature.verify_eq_ok haccepted
      have hsame := hdistinct i hi hhit
      have hd := hapart.eq_of_advance (by omega) (by omega) (by omega) hsame
      rw [hsame] at hc
      exact ⟨by omega, hc⟩
    constructor
    · exact hfound
    · rintro ⟨hin, rfl⟩
      obtain ⟨c, haccepted⟩ := hreached hin
      rw [haccepted, (hfound haccepted).2]

end Agreement

section Example

def serverCounter : Counter :=
  .chain (.zero 32) 255

-- The server's byte is about to wrap.
def reportedStatus (lookahead : UInt8) : ServerStatus where
  state := .active
  currentVersion := .v3
  upgradeVersion := none
  counterByte := 255
  failCount := 0
  maxFailCount := 5
  lookahead
  chainDigest := Hmac.fold (hmac sampleDerived.transport.bytes serverCounter.data)

def signerAhead (configured : UInt32) (ahead : Nat) : Session :=
  { signer (advance ahead serverCounter) .deadlock with config := { lookahead := configured } }

def statusReported (configured : UInt32) (lookahead : UInt8) (ahead : Nat) : Status :=
  ((signerAhead configured ahead).run sampleHost
    (.applyStatus (sealedStatus sampleDerived.transport (reportedStatus lookahead)) sampleUnlock)
    ()).session.status

section Ahead

variable (configured : UInt32) (ahead : Nat)

theorem unlockTransport_signerAhead :
    (signerRecord (advance ahead serverCounter) .deadlock).keys.unlockTransport sampleUnlock =
      .ok sampleDerived.transport :=
  unlockTransport_signer _ _

theorem exists_signature_signerAhead : ∃ g,
    (signerAhead configured ahead).signature (signerRecord (advance ahead serverCounter) .deadlock)
      sampleRequest .possessionOnly sampleUnlock (.zero 16) = .ok g := by
  obtain ⟨g, hg, -⟩ := exists_signature_signer (advance ahead serverCounter) .deadlock
  exact ⟨g, hg⟩

theorem shares_signerAhead :
    (signerAhead configured ahead).Shares (signerRecord (advance ahead serverCounter) .deadlock)
      .possessionOnly sampleUnlock (ProtectedKeys.chosen sampleDerived .possessionOnly) :=
  shares_signer _ _

end Ahead

-- The window is the report's where it names one, else the configured one, as far as a byte goes.
theorem in_step_to_the_edge :
    statusReported 20 2 2 = .valid ∧ statusReported 20 0 20 = .valid ∧
    statusReported 20 0 21 = .deadlock ∧ statusReported 300 0 255 = .valid ∧
    ∃ g,
      (signerAhead 20 20).signature (signerRecord (advance 20 serverCounter) .deadlock)
        sampleRequest .possessionOnly sampleUnlock (.zero 16) = .ok g ∧
      ∃ c, FactorSignature.verify .possessionOnly
        (ProtectedKeys.chosen sampleDerived .possessionOnly)
        (signedData (signerAhead 20 20) sampleRequest g.nonce) g.signature 20 serverCounter =
          .ok c := by
  have hactive (lookahead : UInt8) : (reportedStatus lookahead).state = .active := rfl
  have hapart (ahead : Nat) : Apart serverCounter (advance ahead serverCounter) ahead := rfl
  have hagrees (configured : UInt32) (lookahead : UInt8) (ahead window : Nat) :=
    status_agrees_with_window (s := signerAhead configured ahead) (w := ()) sampleHost window rfl
      (undisturbed_sampleHost _) accepts_sampleHost (unlockTransport_signerAhead ahead)
      (hactive lookahead) (hapart ahead) rfl rfl
  obtain ⟨g, hg⟩ := exists_signature_signerAhead 20 20
  obtain ⟨-, -, hedge, -, hwindow⟩ := hagrees 20 0 20 20 rfl (by decide) (by decide)
  obtain ⟨haccepted, -⟩ := hwindow _ _ _ _ g _ hg (shares_signerAhead 20 20)
  exact ⟨(hagrees 20 2 2 2 rfl (by decide) (by decide)).2.2.1, hedge,
    (hagrees 20 0 21 20 rfl (by decide) (by decide)).2.2.1,
    (hagrees 300 0 255 255 rfl (by decide) (by decide)).2.2.1,
    g, hg, haccepted (by decide)⟩

end Example

end Session

end DeviceAuth
