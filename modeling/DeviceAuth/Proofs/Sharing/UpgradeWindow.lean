import DeviceAuth.Proofs.Session.Vault
import DeviceAuth.Proofs.Session.Window
import DeviceAuth.Proofs.Sharing.Unaltered

namespace DeviceAuth.Session

open Activation

variable {σ : Type} {host : Host σ} {s t : Session} {w : σ} {r : Record} {op : Operation}
  {unlock : UnlockKeys} {transport seed : Key} {status later : ServerStatus} {n : UInt64}
  {ahead : Nat} {server client : Counter}

-- One side has changed over from the number to the new chain. With the counters of server and
-- client, and how far the client seems to be ahead in the last byte.
inductive Switching (n : UInt64) (seed : Key) : Counter → Counter → Nat → Prop
  | server : Switching n seed (.ofSeed seed) (.numeric n) (n.toNat % 256)
  | client : Switching n seed (.numeric n) (.ofSeed seed) ((256 - n.toNat % 256) % 256)

structure Reports (status : ServerStatus) (transport : Key) (server : Counter) : Prop where
  active : status.state = .active
  version : status.currentVersion = server.version
  byte : status.counterByte = server.steps.toUInt8
  digest : server.version = .v3 →
    status.chainDigest = Hmac.fold (hmac transport.bytes server.data)

def Tolerates (config : Config) (status : ServerStatus) (transport : Key) (client : Counter)
    (ahead : Nat) : Prop :=
  ahead ≤ (effectiveLookahead config status).toNat ∧
    (ahead = 0 → client.version = .v3 →
      Hmac.fold (hmac transport.bytes client.data) = status.chainDigest)

section Check

variable {config : Config}

theorem Switching.toNat_distance (h : Switching n seed server client ahead)
    (hbyte : status.counterByte = server.steps.toUInt8) :
    (distance client status).toNat = ahead := by
  have hzero : (Counter.ofSeed seed).steps.toUInt8 = 0 := rfl
  have hnumber : (Counter.numeric n).steps.toUInt8.toNat = n.toNat % 256 := UInt64.toNat_toUInt8 n
  cases h with
  | server =>
      rw [distance, hbyte, hzero, UInt8.sub_zero, hnumber]
  | client =>
      rw [distance, hbyte, hzero, UInt8.toNat_sub, hnumber]
      simp

theorem inSync_iff_tolerates (h : (distance client status).toNat = ahead) :
    inSync config client status transport = true ↔
      Tolerates config status transport client ahead := by
  have hzero : distance client status = 0 ↔ ahead = 0 := by
    rw [← h, ← UInt8.toNat_inj]
    rfl
  unfold inSync Tolerates
  dsimp only
  split
  next hfar =>
    rw [UInt8.lt_iff_toNat_lt, h] at hfar
    constructor
    · intro hfalse
      cases hfalse
    · intro hnear
      exact absurd hnear.1 (Nat.not_le.mpr hfar)
  next hnear =>
    rw [UInt8.lt_iff_toNat_lt, h] at hnear
    have hwindow := Nat.not_lt.mp hnear
    split
    next hsame =>
      rw [decide_eq_true_iff]
      exact ⟨fun hdigest => ⟨hwindow, fun _ _ => hdigest⟩, fun h => h.2 (hzero.mp hsame.1) hsame.2⟩
    next hother =>
      refine ⟨fun _ => ⟨hwindow, fun hahead hversion => ?_⟩, fun _ => rfl⟩
      exact absurd ⟨hzero.mpr hahead, hversion⟩ hother

structure SameCounter (status later : ServerStatus) : Prop where
  byte : later.counterByte = status.counterByte
  lookahead : later.lookahead = status.lookahead
  digest : later.chainDigest = status.chainDigest

theorem inSync_congr (h : SameCounter status later) :
    inSync config client later transport = inSync config client status transport := by
  obtain ⟨_, _, _, _, _, _, _, _⟩ := later
  obtain ⟨rfl, rfl, rfl⟩ := h
  rfl

end Check

section Steps

theorem plan_upgradeApply (hphase : s.phase = .active r) (hhealth : r.health = .valid)
    (hpending : r.pendingUpgrade = some .v3) (hversion : r.version = .v2) :
    Operation.plan (.upgradeApply seed.bytes) s = s.commit { r with counter := .ofSeed seed } .done := by
  have hvalid := valid_eq_ok.mpr ⟨hphase, hhealth⟩
  have happly : s.upgradeApply seed.bytes = s.commit { r with counter := .ofSeed seed } () := by
    refine congrArg (Plan.orRefuse s) (?_ : _ = Except.ok _)
    refine bind_eq_ok.mpr ⟨r, hvalid, guard_eq_ok.mpr ⟨by simp [hpending], ?_⟩⟩
    refine guard_eq_ok.mpr ⟨by simp [hversion], ?_⟩
    rw [Fixed.ofBytes?_bytes]
    rfl
  rw [Operation.plan, happly]
  rfl

theorem plan_upgradeFinish (hphase : s.phase = .active r) (hhealth : r.health = .valid)
    (hpending : r.pendingUpgrade = some .v3) (hversion : r.version = .v3) :
    Operation.plan .upgradeFinish s = s.commit { r with pendingUpgrade := none } .done := by
  have hvalid := valid_eq_ok.mpr ⟨hphase, hhealth⟩
  have hfinish : s.upgradeFinish = s.commit { r with pendingUpgrade := none } () := by
    refine congrArg (Plan.orRefuse s) (?_ : _ = Except.ok _)
    refine bind_eq_ok.mpr ⟨r, hvalid, guard_eq_ok.mpr ⟨by simp [hpending], ?_⟩⟩
    exact guard_eq_ok.mpr ⟨by simp [hversion], rfl⟩
  rw [Operation.plan, hfinish]
  rfl

inductive Completes (host : Host σ) (seed : Key) : Session → Prop
  | finished {s : Session} {r : Record} :
      s.phase = .active r → r.health = .valid → r.counter = .ofSeed seed →
      r.pendingUpgrade = none → Completes host seed s
  | finish {s : Session} :
      (∀ w, Undisturbed host s w → (s.run host .upgradeFinish w).answer = .ok .done) →
      (∀ w, Undisturbed host s w → Completes host seed (s.run host .upgradeFinish w).session) →
      Completes host seed s
  | apply {s : Session} :
      (∀ w, Undisturbed host s w →
        (s.run host (.upgradeApply seed.bytes) w).answer = .ok .done) →
      (∀ w, Undisturbed host s w →
        Completes host seed (s.run host (.upgradeApply seed.bytes) w).session) →
      Completes host seed s

theorem completes_of_applied (haccepts : host.store.Accepts) (hphase : s.phase = .active r)
    (hhealth : r.health = .valid) (hpending : r.pendingUpgrade = some .v3)
    (hcounter : r.counter = .ofSeed seed) : Completes host seed s := by
  have hversion : r.version = .v3 := by rw [Record.version, hcounter]; rfl
  have hplan := plan_upgradeFinish hphase hhealth hpending hversion
  refine .finish (fun w hquiet => ?_) (fun w hquiet => ?_)
  · exact (run_of_commit hquiet haccepts rfl rfl hplan).1
  · rw [(run_of_commit hquiet haccepts rfl rfl hplan).2]
    exact .finished rfl hhealth hcounter rfl

theorem completes_of_pending (haccepts : host.store.Accepts) (hphase : s.phase = .active r)
    (hhealth : r.health = .valid) (hpending : r.pendingUpgrade = some .v3)
    (hversion : r.version = .v2) : Completes host seed s := by
  have hplan : Operation.plan (.upgradeApply seed.bytes) s =
      s.commit { r with counter := .ofSeed seed } .done :=
    plan_upgradeApply hphase hhealth hpending hversion
  refine .apply (fun w hquiet => ?_) (fun w hquiet => ?_)
  · exact (run_of_commit hquiet haccepts rfl rfl hplan).1
  · rw [(run_of_commit hquiet haccepts rfl rfl hplan).2]
    exact completes_of_applied haccepts rfl hhealth hpending rfl

theorem Switching.completes (h : Switching n seed server r.counter ahead)
    (haccepts : host.store.Accepts) (hphase : s.phase = .active r) (hhealth : r.health = .valid)
    (hpending : r.pendingUpgrade = some .v3) : Completes host seed s := by
  generalize hcounter : r.counter = client at h
  cases h with
  | server =>
      refine completes_of_pending haccepts hphase hhealth hpending ?_
      rw [Record.version, hcounter]
      rfl
  | client => exact completes_of_applied haccepts hphase hhealth hpending hcounter

end Steps

section Lockout

-- The operation brings in no other status than reports of the server with this counter, made out
-- for the possession key of the activation.
structure Waits (transport : Key) (unlock : UnlockKeys) (status : ServerStatus)
    (op : Operation) : Prop where
  kept : op ≠ .reset
  own : ∀ blob, op ≠ .deserialize blob
  told : ∀ encrypted unlock', op = .applyStatus encrypted unlock' →
    unlock'.possession = unlock.possession ∧
      ∃ later, SameCounter status later ∧ encrypted = sealedStatus transport later

inductive Stuck (transport : Key) (unlock : UnlockKeys) (status : ServerStatus) (s : Session) : Prop
  | held {r : Record} :
      s.phase = .active r → r.health ≠ .valid → r.keys.unlockTransport unlock = .ok transport →
      inSync s.config r.counter status transport = false → Stuck transport unlock status s
  | gone : s.phase = .removed → Stuck transport unlock status s

theorem Stuck.valid (h : Stuck transport unlock status s) :
    s.valid = .error (.state (.notValid s.status)) := by
  cases h with
  | held hphase hhealth _ _ =>
      rw [Session.valid, hphase]
      exact if_neg hhealth
  | gone hphase => rw [Session.valid, hphase]

theorem Stuck.of_same (h : Stuck transport unlock status s) (hphase : t.phase = s.phase)
    (hconfig : t.config = s.config) : Stuck transport unlock status t := by
  cases h with
  | held hactive hhealth htransport hsync =>
      exact .held (hphase.trans hactive) hhealth htransport (by rw [hconfig]; exact hsync)
  | gone hgone => exact .gone (hphase.trans hgone)

theorem Stuck.not_valid (h : Stuck transport unlock status s) : s.valid ≠ .ok r := by
  rw [h.valid]
  simp

theorem healthAfter_ne_valid {health : Health} (hhealth : r.health ≠ .valid)
    (hsync : inSync s.config r.counter later transport = false)
    (h : s.healthAfter r later transport = some health) : health ≠ .valid := by
  unfold healthAfter at h
  split at h
  next => cases h
  next =>
    cases h
    decide
  next =>
    rw [hsync] at h
    cases h
    decide
  all_goals
    cases h
    exact hhealth

theorem Stuck.of_keys {q : ProtectedKeys} {external : Bool} (h : Stuck transport unlock status s)
    (hphase : s.phase = .active r)
    (hkeys : q.possession = r.keys.possession ∧ q.transport = r.keys.transport)
    (hafter : t.phase = .active { r with keys := q, external := external })
    (hconfig : t.config = s.config) : Stuck transport unlock status t := by
  cases h with
  | held hactive hhealth htransport hsync =>
      rw [hphase] at hactive
      cases hactive
      refine .held hafter hhealth ?_ (by rw [hconfig]; exact hsync)
      exact (ProtectedKeys.unlockTransport_congr hkeys.2 rfl).trans htransport
  | gone hgone =>
      rw [hphase] at hgone
      cases hgone

theorem Stuck.of_report {encrypted : String} {unlock' : UnlockKeys} {read : ServerStatus}
    {opened : Key} {health : Health} (h : Stuck transport unlock status s)
    (hwaits : Waits transport unlock status (.applyStatus encrypted unlock'))
    (hphase : s.phase = .active r) (hopened : r.keys.unlockTransport unlock' = .ok opened)
    (hread : readStatus opened encrypted = .ok read)
    (hhealth : s.healthAfter r read opened = some health) :
    Stuck transport unlock status { s with phase := .active { r with health } } := by
  cases h with
  | held hactive hnot htransport hsync =>
      rw [hphase] at hactive
      cases hactive
      obtain ⟨hpossession, later, hsame, rfl⟩ := hwaits.told _ _ rfl
      have htransport' := ProtectedKeys.unlockTransport_congr (p := r.keys) rfl hpossession
      obtain rfl : opened = transport :=
        Except.ok.inj (hopened.symm.trans (htransport'.trans htransport))
      obtain rfl : later = read :=
        Except.ok.inj ((readStatus_sealedStatus opened later).symm.trans hread)
      have hlater : inSync s.config r.counter later opened = false :=
        (inSync_congr hsame).trans hsync
      exact .held rfl (healthAfter_ne_valid hnot hlater hhealth) htransport hsync
  | gone hgone =>
      rw [hphase] at hgone
      cases hgone

theorem Stuck.settled {phase : Phase} (h : Stuck transport unlock status s)
    (hphase : s.phase = phase) : (∃ r, phase = .active r) ∨ phase = .removed := by
  cases h with
  | held hactive _ _ _ => exact .inl ⟨_, hphase.symm.trans hactive⟩
  | gone hgone => exact .inr (hphase.symm.trans hgone)

theorem stuck_of_effect {plan : Plan Answer} {store : StoreActions σ} {key : String}
    (h : Effect s op plan) (hwaits : Waits transport unlock status op)
    (hs : Stuck transport unlock status s) :
    Stuck transport unlock status (plan.perform store key w).session := by
  have hunsettled {phase : Phase} (hphase : s.phase = phase) (hactive : ∀ r, phase ≠ .active r)
      (hgone : phase ≠ .removed) : False := by
    rcases hs.settled hphase with ⟨r, hr⟩ | hr
    · exact hactive r hr
    · exact hgone hr
  cases h with
  | refused _ _ | alreadyConfirmed _ | noBiometry _ _ | sameHealth _ _ _ _ | sameKey _ => exact hs
  | spent _ _ _ | opened _ _ _ _ _ | givenKey _ _ => exact hs.of_same rfl rfl
  | ended _ _ hphase => exact (hunsettled hphase (by simp) (by simp)).elim
  | validated hphase _ _ _ => exact (hunsettled hphase (by simp) (by simp)).elim
  | confirmed hphase => exact (hunsettled hphase (by simp) (by simp)).elim
  | started hphase _ _ =>
      rcases hphase with hphase | ⟨_, hphase⟩ <;>
        exact (hunsettled hphase (by simp) (by simp)).elim
  | unreadable _ _ | loaded _ => exact absurd rfl (hwaits.own _)
  | cleared => exact absurd rfl hwaits.kept
  | discarded _ _ | reportedGone _ _ _ _ => exact Plan.session_of_write hs (.gone rfl)
  -- whatever would move the counter needs a valid activation
  | signed hr _ | vaultSigned hr _ | upgradeStarted hr _ _ | upgradeApplied hr _ _ _
  | upgradeFinished hr _ _ => exact absurd hr hs.not_valid
  | biometryAdded hr _ _ _ _ _ _ _ _ => exact absurd hr hs.not_valid
  | reported hphase hopened hread hhealth _ =>
      exact Plan.session_of_write hs (hs.of_report hwaits hphase hopened hread hhealth)
  | passwordChanged hphase _ hq =>
      exact Plan.session_of_write hs
        (hs.of_keys hphase (ProtectedKeys.changePassword_keeps hq) rfl rfl)
  | @biometryRemoved r hphase =>
      exact Plan.session_of_write hs
        (hs.of_keys (q := { r.keys with biometry := none }) hphase ⟨rfl, rfl⟩ rfl rfl)
  | externalAdded hphase _ hq =>
      exact Plan.session_of_write hs (hs.of_keys hphase (ProtectedKeys.relayer_keeps hq) rfl rfl)
  | externalRemoved hphase _ _ hq =>
      exact Plan.session_of_write hs (hs.of_keys hphase (ProtectedKeys.relayer_keeps hq) rfl rfl)

theorem stuck_step (hwaits : Waits transport unlock status op) (hquiet : Undisturbed host s w)
    (hs : Stuck transport unlock status s) :
    Stuck transport unlock status (s.run host op w).session := by
  have haccess : op.access ≠ .overwriting := fun h => hwaits.kept (eq_reset_of_overwriting h)
  rcases run_undisturbed hquiet haccess with ⟨-, hsame⟩ | ⟨w', hsession⟩
  · rw [hsame]
    exact hs
  · rw [hsession]
    exact stuck_of_effect (plan_effect s op) hwaits hs

inductive Continues (host : Host σ) (transport : Key) (unlock : UnlockKeys) (status : ServerStatus)
    (s : Session) : Session → Prop
  | start : Continues host transport unlock status s s
  | step {t : Session} {op : Operation} {w : σ} :
      Continues host transport unlock status s t → Waits transport unlock status op →
      Undisturbed host t w → Continues host transport unlock status s (t.run host op w).session

theorem stuck_of_continues (hs : Stuck transport unlock status s)
    (h : Continues host transport unlock status s t) : Stuck transport unlock status t := by
  induction h with
  | start => exact hs
  | step _ hwaits hquiet ih => exact stuck_step hwaits hquiet ih

def RefusesUpgrade (host : Host σ) (s : Session) : Prop :=
  ∀ w, Undisturbed host s w → ∀ op, op = .upgradeFinish ∨ (∃ b, op = .upgradeApply b) →
    (s.run host op w).answer = .error (.state (.notValid s.status))

theorem refusesUpgrade_of_invalid (h : s.valid = .error (.state (.notValid s.status))) :
    RefusesUpgrade host s := by
  rintro w hquiet op (rfl | ⟨b, rfl⟩)
  · refine (run_of_refuse hquiet rfl rfl (t := s) ?_).1
    rw [Operation.plan, upgradeFinish, h]
    rfl
  · refine (run_of_refuse hquiet rfl rfl (t := s) ?_).1
    rw [Operation.plan, upgradeApply, h]
    rfl

end Lockout

section Report

theorem run_report {health : Health} (hphase : s.phase = .active r)
    (hactive : status.state = .active) (hquiet : Undisturbed host s w)
    (haccepts : host.store.Accepts) (htransport : r.keys.unlockTransport unlock = .ok transport)
    (hhealth : (if inSync s.config r.counter status transport then .valid else .deadlock) = health) :
    let o := s.run host (.applyStatus (sealedStatus transport status) unlock) w
    o.answer = .ok (.status status) ∧ o.session = { s with phase := .active { r with health } } := by
  refine run_applyStatus hphase hquiet haccepts htransport ?_
  rw [healthAfter, hactive, ← hhealth]

theorem upgrade_survives_in_window (hphase : s.phase = .active r)
    (hpending : r.pendingUpgrade = some .v3) (hswitching : Switching n seed server r.counter ahead)
    (hreports : Reports status transport server)
    (htransport : r.keys.unlockTransport unlock = .ok transport)
    (hquiet : Undisturbed host s w) (haccepts : host.store.Accepts) :
    let o := s.run host (.applyStatus (sealedStatus transport status) unlock) w
    o.answer = .ok (.status status) ∧
    (Tolerates s.config status transport r.counter ahead →
      o.session.status = .valid ∧ Completes host seed o.session) ∧
    (¬Tolerates s.config status transport r.counter ahead →
      o.session.status = .deadlock ∧
      ∀ t, Continues host transport unlock status o.session t → RefusesUpgrade host t) := by
  intro o
  have hsync : inSync s.config r.counter status transport = true ↔
      Tolerates s.config status transport r.counter ahead :=
    inSync_iff_tolerates (hswitching.toNat_distance hreports.byte)
  by_cases hnear : Tolerates s.config status transport r.counter ahead
  · obtain ⟨hanswer, hsession⟩ := run_report hphase hreports.active hquiet haccepts htransport
      (if_pos (hsync.mpr hnear))
    refine ⟨hanswer, fun _ => ?_, fun hfar => absurd hnear hfar⟩
    rw [show o.session = _ from hsession]
    exact ⟨rfl, hswitching.completes (r := { r with health := .valid }) haccepts rfl rfl hpending⟩
  · have hout : ¬inSync s.config r.counter status transport = true := fun h => hnear (hsync.mp h)
    obtain ⟨hanswer, hsession⟩ := run_report hphase hreports.active hquiet haccepts htransport
      (if_neg hout)
    refine ⟨hanswer, fun h => absurd h hnear, fun _ => ?_⟩
    rw [show o.session = _ from hsession]
    have hstuck : Stuck transport unlock status
        { s with phase := .active { r with health := .deadlock } } :=
      .held rfl (by simp) htransport (Bool.eq_false_iff.mpr hout)
    exact ⟨rfl, fun t hrun => refusesUpgrade_of_invalid (stuck_of_continues hstuck hrun).valid⟩

end Report

section Example

def upgradeSeed : Key :=
  ⟨List.replicate 32 0x77, rfl⟩

def upgradingRecord (n : UInt64) : Record :=
  { signerRecord (.numeric n) .valid with pendingUpgrade := some .v3 }

def upgrading (n : UInt64) : Session :=
  { sampleSession with phase := .active (upgradingRecord n) }

def switchedStatus : ServerStatus where
  state := .active
  currentVersion := .v3
  upgradeVersion := none
  counterByte := 0
  failCount := 0
  maxFailCount := 5
  lookahead := 20
  chainDigest := Hmac.fold (hmac sampleDerived.transport.bytes (Counter.ofSeed upgradeSeed).data)

theorem reports_switchedStatus :
    Reports switchedStatus sampleDerived.transport (.ofSeed upgradeSeed) :=
  ⟨rfl, rfl, rfl, fun _ => rfl⟩

theorem unlockTransport_upgrading (n : UInt64) :
    (upgradingRecord n).keys.unlockTransport sampleUnlock = .ok sampleDerived.transport :=
  unlockTransport_signer (.numeric n) .valid

def reported (n : UInt64) : Outcome Unit Answer :=
  (upgrading n).run sampleHost
    (.applyStatus (sealedStatus sampleDerived.transport switchedStatus) sampleUnlock) ()

theorem upgrade_at_the_edge :
    ((reported 20).session.status = .valid ∧
      Completes sampleHost upgradeSeed (reported 20).session) ∧
    (reported 21).session.status = .deadlock ∧
      RefusesUpgrade sampleHost (reported 21).session := by
  obtain ⟨-, hnear, -⟩ := upgrade_survives_in_window (s := upgrading 20) (n := 20) rfl rfl .server
    reports_switchedStatus (unlockTransport_upgrading 20) (undisturbed_sampleHost _)
    accepts_sampleHost
  obtain ⟨-, -, hfar⟩ := upgrade_survives_in_window (s := upgrading 21) (n := 21) rfl rfl .server
    reports_switchedStatus (unlockTransport_upgrading 21) (undisturbed_sampleHost _)
    accepts_sampleHost
  have hin : 20 ≤ (effectiveLookahead {} switchedStatus).toNat := by decide
  have hout : ¬21 ≤ (effectiveLookahead {} switchedStatus).toNat := by decide
  obtain ⟨hstatus, hrefuses⟩ := hfar fun h => hout h.1
  exact ⟨hnear ⟨hin, fun h => absurd h (by decide)⟩, hstatus, hrefuses _ .start⟩

theorem honest_report_locks_out :
    (upgrading 21).status = .valid ∧ (upgrading 21).pendingUpgrade? = some .v3 ∧
    Switching 21 upgradeSeed (.ofSeed upgradeSeed) (.numeric 21) 21 ∧
    Reports switchedStatus sampleDerived.transport (.ofSeed upgradeSeed) ∧
    (reported 21).answer = .ok (.status switchedStatus) ∧
    (reported 21).session.status = .deadlock ∧
    RefusesUpgrade sampleHost (reported 21).session := by
  have hactive : switchedStatus.state = .active := rfl
  have hahead : effectiveLookahead (upgrading 21).config switchedStatus <
      distance (.numeric 21) switchedStatus := by decide
  have hfar : inSync (upgrading 21).config (.numeric 21) switchedStatus sampleDerived.transport =
      false := by
    rw [inSync]
    exact if_pos hahead
  obtain ⟨hanswer, hsession⟩ := run_report (s := upgrading 21) rfl hactive
    (undisturbed_sampleHost _) accepts_sampleHost (unlockTransport_upgrading 21)
    (if_neg (Bool.eq_false_iff.mp hfar))
  refine ⟨rfl, rfl, .server, reports_switchedStatus, hanswer, ?_, ?_⟩
  · rw [reported, hsession]
    rfl
  · rw [reported, hsession]
    exact refusesUpgrade_of_invalid rfl

end Example

end DeviceAuth.Session
