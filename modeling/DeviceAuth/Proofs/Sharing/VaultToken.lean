import DeviceAuth.Proofs.Session.Refusal
import DeviceAuth.Proofs.Session.Vault
import DeviceAuth.Proofs.Sharing.Unaltered

namespace DeviceAuth.Session

open Activation

variable {σ : Type} {host : Host σ} {s t : Session} {op : Operation} {w : σ} {token : Fixed 16}

structure Step (σ : Type) where
  before : Session
  op : Operation
  state : σ

def Step.outcome (host : Host σ) (e : Step σ) : Outcome σ Answer :=
  e.before.run host e.op e.state

inductive History (host : Host σ) : List (Step σ) → Session → Prop
  | created {setup config s} : Session.new setup config = .ok s → History host [] s
  | resumed {setup config stored s} :
      Session.resume setup config stored = .ok s → History host [] s
  | step {past s} (op : Operation) (w : σ) :
      History host past s → History host (past ++ [⟨s, op, w⟩]) (s.run host op w).session

def Rereads (host : Host σ) (s : Session) (op : Operation) (w : σ) : Prop :=
  op.refusal? = none ∧ op.access = .exclusive ∧
    ∃ lock, host.lock = some lock ∧ ((lock.acquire w).1 || s.stale) = true

-- The step signs a request for the vault key that is made online and shows possession, gives out
-- the token, and leaves the valid activation `r`.
inductive Grants (host : Host σ) (token : Fixed 16) (r : Record) : Step σ → Prop
  | signed {s request factors unlock nonce w g} :
      (s.run host (.signVault request factors unlock nonce token) w).answer =
        .ok (.vaultSignature g ⟨token⟩) →
      factors.possession = true → request.isOffline = false →
      (s.run host (.signVault request factors unlock nonce token) w).session.valid = .ok r →
      Grants host token r ⟨s, .signVault request factors unlock nonce token, w⟩

-- The step does nothing to the token: it signs no other request for the vault key, does not come to
-- the token, takes over no status and reads none again, and the activation does not end.
structure Spares (host : Host σ) (e : Step σ) : Prop where
  unsigned : ∀ request factors unlock nonce token a,
    e.op = .signVault request factors unlock nonce token → (e.outcome host).answer ≠ .ok a
  unspent : e.op.forgets e.before = false
  lasting : ∀ a, (e.outcome host).answer = .ok a → ¬Ends e.op a
  unread : ¬Rereads host e.before e.op e.state

inductive Carries (host : Host σ) (s : Session) (op : Operation) (w : σ) (o : Outcome σ Answer) :
    Prop
  | keptOut (why : Failure) :
      op.refusal? = some why → o.answer = .error why → o.session = s → Carries host s op w o
  | unread (why : Failure) :
      o.answer = .error why → o.session.vaultToken = none → Carries host s op w o
  | planned (t : Session) (stale : Bool) (w' : σ) :
      ¬Rereads host s op w ∧ t = { s with stale := t.stale } ∨ t.vaultToken = none →
      op.refusal? = none →
      o.answer = ((op.plan t).perform host.store s.storageName w').answer →
      o.session = { ((op.plan t).perform host.store s.storageName w').session with stale } →
      Carries host s op w o

theorem enter_cases (store : StoreActions σ) (lock : LockActions σ) (s : Session) (w : σ) :
    (((lock.acquire w).1 || s.stale) = false ∧
      s.enter store lock w = ⟨.ok (), s, false, (lock.acquire w).2⟩) ∨
    (((lock.acquire w).1 || s.stale) = true ∧
      (s.enter store lock w).session.vaultToken = none) := by
  cases hbehind : (lock.acquire w).1 || s.stale with
  | false =>
      refine .inl ⟨rfl, ?_⟩
      simp only [enter, hbehind]
      rfl
  | true =>
      refine .inr ⟨rfl, ?_⟩
      simp only [enter, hbehind, if_true, reload]
      split <;> rfl

theorem carries_exclusive (host : Host σ) (s : Session) (w : σ) (hrefusal : op.refusal? = none) :
    Carries host s op w (exclusive host op.plan s w) := by
  unfold exclusive
  cases hlock : host.lock with
  | none =>
      refine .planned s _ w (.inl ⟨?_, rfl⟩) hrefusal rfl rfl
      rintro ⟨-, -, lock, hsome, -⟩
      rw [hlock] at hsome
      cases hsome
  | some lock =>
      dsimp only
      rcases enter_cases host.store lock s w with ⟨hcurrent, henter⟩ | ⟨-, htoken⟩
      · rw [henter]
        refine .planned s _ _ (.inl ⟨?_, rfl⟩) hrefusal rfl rfl
        rintro ⟨-, -, lock', hsome, hbehind⟩
        rw [hlock] at hsome
        cases hsome
        rw [hcurrent] at hbehind
        cases hbehind
      · generalize s.enter host.store lock w = o at htoken ⊢
        obtain ⟨answer, t, modified, w'⟩ := o
        cases answer with
        | error why => exact .unread why rfl htoken
        | ok _ => exact .planned t _ w' (.inr htoken) hrefusal rfl rfl

theorem carries_run (host : Host σ) (s : Session) (op : Operation) (w : σ) :
    Carries host s op w (s.run host op w) := by
  cases hrefusal : op.refusal? with
  | some why =>
      simp only [run, hrefusal]
      exact .keptOut why hrefusal rfl rfl
  | none =>
      have hsame {t : Session} (haccess : op.access ≠ .exclusive)
          (ht : t = { s with stale := t.stale }) :
          ¬Rereads host s op w ∧ t = { s with stale := t.stale } ∨ t.vaultToken = none :=
        .inl ⟨fun h => haccess h.2.1, ht⟩
      simp only [run, hrefusal]
      cases haccess : op.access with
      | exclusive => exact carries_exclusive host s w hrefusal
      | unlocked => exact .planned s _ w (hsame (by simp [haccess]) rfl) hrefusal rfl rfl
      | overwriting =>
          unfold overwriting
          cases host.lock with
          | none => exact .planned s _ w (hsame (by simp [haccess]) rfl) hrefusal rfl rfl
          | some lock =>
              exact .planned { s with stale := _ } _ _ (hsame (by simp [haccess]) rfl) hrefusal rfl
                rfl

section Effects

variable {plan : Plan Answer} {store : StoreActions σ} {name : String} {answer : Except Failure Answer}
  {before after : Session} {change : Change} {a : Answer} {r r' : Record}

structure Keeps (t : Session) (op : Operation) (token : Fixed 16) (answer : Except Failure Answer)
    (after : Session) : Prop where
  held : t.vaultToken = some token
  unsigned : ∀ request factors unlock nonce token a,
    op = .signVault request factors unlock nonce token → answer ≠ .ok a
  unspent : op.forgets t = false
  lasting : ∀ a, answer = .ok a → ¬Ends op a
  unaltered : ∀ r, t.phase = .active r → ∃ r', after.phase = .active r' ∧ Unaltered r r'

inductive Held (t : Session) (token : Fixed 16) :
    Operation → Except Failure Answer → Session → Prop
  | issued {request factors unlock nonce g} {after : Session} {r : Record} :
      after.valid = .ok r →
      Held t token (.signVault request factors unlock nonce token)
        (.ok (.vaultSignature g ⟨token⟩)) after
  | kept {op : Operation} {answer : Except Failure Answer} {after : Session} :
      Keeps t op token answer after → Held t token op answer after

theorem held_of_failure {why : Failure} (hheld : t.vaultToken = some token → ∃ r, t.phase = .active r)
    (h : (t.left op).vaultToken = some token) : Held t token op (.error why) (t.left op) := by
  have hforgets : op.forgets t = false := by
    refine Bool.eq_false_iff.mpr fun hforgets => ?_
    rw [left, if_pos hforgets] at h
    cases h
  have htoken : t.vaultToken = some token := by
    rw [left, hforgets] at h
    exact h
  have habandons : op.abandons t = false := by
    obtain ⟨r, hr⟩ := hheld htoken
    cases op with
    | validate response unlock draws =>
        simp only [Operation.abandons, hasPendingActivation, hr]
    | deserialize blob => cases hforgets
    | _ => rfl
  refine .kept ⟨htoken, ?_, hforgets, ?_, fun r hr => ⟨r, ?_, .refl r⟩⟩
  · rintro _ _ _ _ _ _ _ ⟨⟩
  · rintro _ ⟨⟩
  · rw [left, habandons]
    exact hr

theorem lasting_of_healthAfter {encrypted : String} {unlock : UnlockKeys} {status : ServerStatus}
    {transport : Key} {health : Health} (h : t.healthAfter r status transport = some health) :
    ∀ a, (Except.ok (.status status) : Except Failure Answer) = .ok a →
      ¬Ends (.applyStatus encrypted unlock) a := by
  rintro _ ⟨⟩ hends
  cases hends with
  | reported hgone =>
      rw [healthAfter, hgone] at h
      cases h

theorem held_of_keep (h : Effect t op (.keep after a))
    (hheld : t.vaultToken = some token → ∃ r, t.phase = .active r)
    (htoken : after.vaultToken = some token) : Held t token op (.ok a) after := by
  cases h with
  | alreadyConfirmed _ | noBiometry _ _ | sameKey _ | givenKey _ _ =>
      refine .kept ⟨htoken, ?_, rfl, ?_, fun r hr => ⟨r, hr, .refl r⟩⟩
      · rintro _ _ _ _ _ _ ⟨⟩
      · rintro _ - ⟨⟩
  | sameHealth _ _ _ hhealth =>
      refine .kept ⟨htoken, ?_, rfl, lasting_of_healthAfter hhealth, fun r hr => ⟨r, hr, .refl r⟩⟩
      rintro _ _ _ _ _ _ ⟨⟩
  | started hp _ _ =>
      obtain ⟨r, hr⟩ := hheld htoken
      rcases hp with hp | ⟨pending, hp⟩ <;> rw [hr] at hp <;> cases hp
  | validated hp _ _ _ =>
      obtain ⟨r, hr⟩ := hheld htoken
      rw [hr] at hp
      cases hp
  | loaded _ => cases htoken
  | opened _ _ _ _ _ => cases htoken

theorem held_of_write (h : Effect t op (.write before change after a))
    (hheld : t.vaultToken = some token → ∃ r, t.phase = .active r)
    (htoken : after.vaultToken = some token) : Held t token op (.ok a) after := by
  have hkept {r' : Record} (hafter : after.phase = .active r') :
      ∀ r, t.phase = .active r → ∃ r', after.phase = .active r' ∧ Unaltered r r' :=
    fun r hr => ⟨r', hafter, unaltered_of_write h hr hafter⟩
  cases h with
  | confirmed hp =>
      obtain ⟨r, hr⟩ := hheld htoken
      rw [hr] at hp
      cases hp
  | discarded _ _ => cases htoken
  | reportedGone _ _ _ _ => cases htoken
  | cleared => cases htoken
  | biometryAdded _ _ _ _ _ _ _ _ _ => cases htoken
  | vaultSigned hr _ =>
      cases htoken
      exact .issued (valid_eq_ok.mpr ⟨rfl, (valid_eq_ok.mp hr).2⟩)
  | signed _ _ | passwordChanged _ _ _ | biometryRemoved _ | externalAdded _ _ _
  | externalRemoved _ _ _ _ | upgradeStarted _ _ _ | upgradeApplied _ _ _ _
  | upgradeFinished _ _ _ =>
      refine .kept ⟨htoken, ?_, rfl, ?_, hkept rfl⟩
      · rintro _ _ _ _ _ _ ⟨⟩
      · rintro _ - ⟨⟩
  | reported _ _ _ hhealth _ =>
      refine .kept ⟨htoken, ?_, rfl, lasting_of_healthAfter hhealth, hkept rfl⟩
      rintro _ _ _ _ _ _ ⟨⟩

theorem held_of_perform (hheld : t.vaultToken = some token → ∃ r, t.phase = .active r)
    (h : ((op.plan t).perform store name w).session.vaultToken = some token) :
    Held t token op ((op.plan t).perform store name w).answer
      ((op.plan t).perform store name w).session := by
  have heffect := plan_effect t op
  have hfails := plan_failsTo op t
  generalize op.plan t = plan at heffect hfails h ⊢
  cases plan with
  | refuse after why =>
      cases hfails
      exact held_of_failure hheld h
  | keep after a => exact held_of_keep heffect hheld h
  | write before change after a =>
      cases hfails
      rw [Plan.perform] at h ⊢
      split at h
      next => exact held_of_write heffect hheld h
      next => exact held_of_failure hheld h

end Effects

section Steps

variable {past : List (Step σ)} {request : VaultRequest} {a : Answer} {r : Record}

theorem vaultRefusal?_eq_none {request : HttpRequest} {factors : FactorSet}
    (h : vaultRefusal? request factors = none) :
    factors.possession = true ∧ request.isOffline = false := by
  unfold vaultRefusal? at h
  split at h
  next => cases h
  next hpossession =>
    split at h
    next => cases h
    next honline => exact ⟨by simpa using hpossession, Bool.eq_false_iff.mpr honline⟩

theorem grants_of_issued {request : HttpRequest} {factors : FactorSet} {unlock : UnlockKeys}
    {nonce : Fixed 16} {g : HttpSignature}
    (hrefusal : (Operation.signVault request factors unlock nonce token).refusal? = none)
    (hanswer : (s.run host (.signVault request factors unlock nonce token) w).answer =
      .ok (.vaultSignature g ⟨token⟩))
    (hvalid : (s.run host (.signVault request factors unlock nonce token) w).session.valid = .ok r) :
    Grants host token r ⟨s, .signVault request factors unlock nonce token, w⟩ := by
  obtain ⟨hpossession, honline⟩ := vaultRefusal?_eq_none hrefusal
  exact .signed hanswer hpossession honline hvalid

theorem spares_of_keptOut {why : Failure} (hrefusal : op.refusal? = some why)
    (hanswer : (s.run host op w).answer = .error why) : Spares host ⟨s, op, w⟩ where
  unsigned _ _ _ _ _ a _ hok := by
    rw [Step.outcome, hanswer] at hok
    cases hok
  unspent := by
    cases op with
    | signVault request factors unlock nonce token => rfl
    | _ => cases hrefusal
  lasting a hok := by
    rw [Step.outcome, hanswer] at hok
    cases hok
  unread h := by
    obtain ⟨hnone, -, -⟩ := h
    rw [hrefusal] at hnone
    cases hnone

theorem token_of_run (hheld : s.vaultToken = some token → ∃ r, s.phase = .active r)
    (h : (s.run host op w).session.vaultToken = some token) :
    (∃ r, Grants host token r ⟨s, op, w⟩) ∨
    s.vaultToken = some token ∧ Spares host ⟨s, op, w⟩ ∧
      ∀ r, s.phase = .active r →
        ∃ r', (s.run host op w).session.phase = .active r' ∧ Unaltered r r' := by
  cases carries_run host s op w with
  | keptOut why hrefusal hanswer hsession =>
      rw [hsession] at h ⊢
      exact .inr ⟨h, spares_of_keptOut hrefusal hanswer, fun r hr => ⟨r, hr, .refl r⟩⟩
  | unread why _ hnone =>
      rw [hnone] at h
      cases h
  | planned t stale w' hsame hrefusal hanswer hsession =>
      rw [hsession] at h
      have hheld' (hsome : t.vaultToken = some token) : ∃ r, t.phase = .active r := by
        rcases hsame with ⟨-, hsame⟩ | hnone
        · rw [hsame] at hsome ⊢
          exact hheld hsome
        · rw [hnone] at hsome
          cases hsome
      have hperformed := held_of_perform hheld' h
      generalize (op.plan t).perform host.store s.storageName w' = o
        at hanswer hsession hperformed
      obtain ⟨answer, after, modified, state⟩ := o
      dsimp only at hanswer hsession hperformed
      cases hperformed with
      | issued hafter =>
          have hvalid := (congrArg valid hsession).trans hafter
          exact .inl ⟨_, grants_of_issued hrefusal hanswer hvalid⟩
      | kept hkeeps =>
          obtain ⟨hsome, hunsigned, hunspent, hlasting, hunaltered⟩ := hkeeps
          rcases hsame with ⟨hunread, hsame⟩ | hnone
          · rw [hsame] at hsome hunspent hunaltered
            rw [hsession]
            refine .inr ⟨hsome, ⟨?_, hunspent, ?_, hunread⟩, hunaltered⟩
            · rw [Step.outcome, hanswer]
              exact hunsigned
            · rw [Step.outcome, hanswer]
              exact hlasting
          · rw [hnone] at hsome
            cases hsome

theorem vaultToken_new {setup : Setup} {config : Config} (h : Session.new setup config = .ok s) :
    s.vaultToken = none := by
  obtain ⟨masterKey, -, hs⟩ := bind_eq_ok.mp h
  cases hs
  rfl

theorem vaultToken_resume {setup : Setup} {config : Config}
    {stored : Except StoreFault (Option Bytes)}
    (h : Session.resume setup config stored = .ok s) : s.vaultToken = none := by
  obtain ⟨made, hmade, h⟩ := bind_eq_ok.mp h
  obtain ⟨blob, -, h⟩ := bind_eq_ok.mp h
  cases blob with
  | none =>
      cases h
      exact vaultToken_new hmade
  | some b =>
      obtain ⟨status, -, hs⟩ := bind_eq_ok.mp h
      cases hs
      have hnone := vaultToken_new hmade
      exact hnone

theorem exists_grant (h : History host past s) (htoken : s.vaultToken = some token) :
    ∃ earlier grant between r₀ r, past = earlier ++ grant :: between ∧
      Grants host token r₀ grant ∧ (∀ e ∈ between, Spares host e) ∧
      s.phase = .active r ∧ Unaltered r₀ r := by
  induction h generalizing token with
  | created hmade =>
      rw [vaultToken_new hmade] at htoken
      cases htoken
  | resumed hmade =>
      rw [vaultToken_resume hmade] at htoken
      cases htoken
  | @step past s op w _ ih =>
      have hheld (hsome : s.vaultToken = some token) : ∃ r, s.phase = .active r := by
        obtain ⟨-, -, -, -, r, -, -, -, hphase, -⟩ := ih hsome
        exact ⟨r, hphase⟩
      -- the last step has granted the token, or it has spared an older one
      rcases token_of_run hheld htoken with ⟨r, hgrant⟩ | ⟨hsome, hspares, hunaltered⟩
      · have hvalid : (s.run host op w).session.valid = .ok r := by
          cases hgrant with
          | signed _ _ _ hvalid => exact hvalid
        exact ⟨past, _, [], r, r, rfl, hgrant, by simp, valid_phase hvalid, .refl r⟩
      · obtain ⟨earlier, grant, between, r₀, r, rfl, hgrant, hbetween, hphase, hsince⟩ := ih hsome
        obtain ⟨r', hphase', hstep⟩ := hunaltered r hphase
        refine ⟨earlier, grant, between ++ [⟨s, op, w⟩], r₀, r', by simp, hgrant, ?_, hphase',
          hsince.trans hstep⟩
        intro e he
        rcases List.mem_append.mp he with he | he
        · exact hbetween e he
        · obtain rfl := List.mem_singleton.mp he
          exact hspares

theorem proves_eq_true {proof : Option VaultProof} :
    s.proves proof = true ↔ ∃ p, proof = some p ∧ s.vaultToken = some p.token := by
  unfold proves
  split
  next p token htoken =>
    rw [beq_iff_eq, htoken]
    constructor
    · rintro rfl
      exact ⟨p, rfl, rfl⟩
    · rintro ⟨_, ⟨⟩, ⟨⟩⟩
      rfl
  next hnone =>
    constructor
    · nofun
    · rintro ⟨p, rfl, htoken⟩
      exact absurd htoken (hnone p p.token rfl)

theorem proves_of_perform {store : StoreActions σ} {name : String}
    (hop : op.vaultRequest? = some request)
    (h : ((op.plan t).perform store name w).answer = .ok a) :
    ∃ p r, request.proof = some p ∧ t.vaultToken = some p.token ∧ t.valid = .ok r ∧
      ((op.plan t).perform store name w).session.vaultToken = none := by
  have heffect := plan_effect t op
  generalize op.plan t = plan at heffect h ⊢
  cases heffect with
  | opened a hrequest hvalid hproof _ =>
      obtain rfl := Option.some.inj (hop.symm.trans hrequest)
      obtain ⟨p, hp, htoken⟩ := proves_eq_true.mp hproof
      exact ⟨p, _, hp, htoken, hvalid, rfl⟩
  | biometryAdded hvalid hproof _ _ _ _ _ _ _ =>
      obtain rfl := Option.some.inj hop
      obtain ⟨p, hp, htoken⟩ := proves_eq_true.mp hproof
      refine ⟨p, _, hp, htoken, hvalid, ?_⟩
      rw [Plan.perform]
      split <;> rfl
  | refused _ _ | spent _ _ _ => cases h
  | _ => cases hop

theorem vault_opened (hop : op.vaultRequest? = some request)
    (h : (s.run host op w).answer = .ok a) :
    ∃ p r, request.proof = some p ∧ s.vaultToken = some p.token ∧ s.valid = .ok r ∧
      ¬Rereads host s op w ∧ (s.run host op w).session.vaultToken = none := by
  cases carries_run host s op w with
  | keptOut why _ hanswer _ =>
      rw [hanswer] at h
      cases h
  | unread why hanswer _ =>
      rw [hanswer] at h
      cases h
  | planned t stale w' hsame _ hanswer hsession =>
      rw [hanswer] at h
      obtain ⟨p, r, hp, htoken, hvalid, hspent⟩ := proves_of_perform hop h
      rcases hsame with ⟨hunread, hsame⟩ | hnone
      · rw [hsame] at htoken hvalid
        refine ⟨p, r, hp, htoken, hvalid, hunread, ?_⟩
        rw [hsession]
        exact hspent
      · rw [hnone] at htoken
        cases htoken

theorem vault_needs_fresh_proof (h : History host past s) :
    (∀ token, s.vaultToken = some token → ∃ r, s.phase = .active r) ∧
    ∀ op request w a, op.vaultRequest? = some request → (s.run host op w).answer = .ok a →
      ∃ proof earlier grant between r₀ r, request.proof = some proof ∧
        past = earlier ++ grant :: between ∧ Grants host proof.token r₀ grant ∧
        (∀ e ∈ between, Spares host e) ∧ s.valid = .ok r ∧ Unaltered r₀ r ∧
        ¬Rereads host s op w ∧ (s.run host op w).session.vaultToken = none := by
  refine ⟨fun token htoken => ?_, fun op request w a hop hanswer => ?_⟩
  · obtain ⟨-, -, -, -, r, -, -, -, hphase, -⟩ := exists_grant h htoken
    exact ⟨r, hphase⟩
  · obtain ⟨proof, r, hproof, htoken, hvalid, hunread, hspent⟩ := vault_opened hop hanswer
    obtain ⟨earlier, grant, between, r₀, r', hpast, hgrant, hbetween, hphase, hunaltered⟩ :=
      exists_grant h htoken
    obtain rfl : r' = r := by
      rw [valid_phase hvalid] at hphase
      cases hphase
      rfl
    exact ⟨proof, earlier, grant, between, r₀, r', hproof, hpast, hgrant, hbetween, hvalid,
      hunaltered, hunread, hspent⟩

section Example

theorem History.next {t : Session} (h : History host past s) (op : Operation) (w : σ)
    (hsession : (s.run host op w).session = t) : History host (past ++ [⟨s, op, w⟩]) t := by
  rw [← hsession]
  exact h.step op w

theorem History.signVault {past : List (Step Unit)} (h : History sampleHost past s)
    (hphase : s.phase = .active r)
    (hgranted : Granted sampleSession.externalKey sampleDevice sampleGrant sampleUnlock sampleDraws r)
    (hexternal : s.externalKey = sampleSession.externalKey) (token : Fixed 16) :
    ∃ e t, History sampleHost (past ++ [e]) t ∧ t.vaultToken = some token ∧
      t.valid = .ok { r with counter := r.counter.next } := by
  obtain ⟨g, hg⟩ := exists_signature_granted hgranted hexternal
  have hplan := plan_signVault token hphase hgranted.health hg
  have hrun := run_of_save (undisturbed_sampleHost s) accepts_sampleHost rfl rfl hplan
  exact ⟨_, _, h.next _ () hrun.2, rfl, valid_eq_ok.mpr ⟨rfl, hgranted.health⟩⟩

theorem exists_sampleHistory : ∃ (past : List (Step Unit)) (s : Session) (r : Record),
    History sampleHost past s ∧ s.vaultToken = some (.zero 16) ∧ s.valid = .ok r ∧
      Vaulted (sampleGrant.derived sampleDevice) sampleDevice sampleGrant.issuedRecovery
        sampleUnlock r := by
  obtain ⟨_, _, _, _, r, hstart, -, -, hvalidate, hgranted⟩ := exists_sampleExchange
  have hconfirm : Operation.plan .confirm { sampleSession with phase := .pendingCommit r } =
      Session.commit { sampleSession with phase := .pendingCommit r } r .done := rfl
  have hmade : History sampleHost [] sampleSession := .created new_sampleSetup
  have hstarted := hmade.next _ () (run_of_keep (undisturbed_sampleHost _) rfl rfl hstart).2
  have hpending := hstarted.next _ () (run_of_keep (undisturbed_sampleHost _) rfl rfl hvalidate).2
  have hactive := hpending.next _ ()
    (run_of_commit (undisturbed_sampleHost _) accepts_sampleHost rfl rfl hconfirm).2
  obtain ⟨e, s, hpast, htoken, hvalid⟩ := hactive.signVault rfl hgranted rfl (.zero 16)
  have hvaulted := hgranted.vaulted
  exact ⟨_, s, _, hpast, htoken, hvalid, hvaulted.transport, hvaulted.privateKey,
    hvaulted.unissued, hvaulted.issued⟩

theorem unlocked_after_grant : ∃ (past : List (Step Unit)) (s : Session) (request : VaultRequest)
    (r : Record), History sampleHost past s ∧
      (s.run sampleHost (.unlockVault request) ()).answer =
        .ok (.key (sampleGrant.derived sampleDevice).vault) ∧
      s.valid = .ok r ∧
      ∃ proof earlier grant between r₀, request.proof = some proof ∧
        past = earlier ++ grant :: between ∧ Grants sampleHost proof.token r₀ grant ∧
        Unaltered r₀ r := by
  obtain ⟨past, s, r, hpast, htoken, hvalid, hvaulted⟩ := exists_sampleHistory
  have hproof : s.proves (some ⟨.zero 16⟩) = true := proves_eq_true.mpr ⟨_, rfl, htoken⟩
  have hopens : Opens sampleHost s ()
      ⟨some ⟨.zero 16⟩, sealedVaultKey (sampleGrant.derived sampleDevice), sampleUnlock⟩
      (sampleGrant.derived sampleDevice).vault sampleDevice sampleGrant.issuedRecovery :=
    opens_of_vaulted (undisturbed_sampleHost s) hvalid hproof rfl hvaulted
  obtain ⟨proof, earlier, grant, between, r₀, r', hproof, hsplit, hgrant, -, hvalid', hunaltered,
    -, -⟩ := (vault_needs_fresh_proof hpast).2 _ _ () _ rfl hopens.unlocked
  obtain rfl : r' = r := Except.ok.inj (hvalid'.symm.trans hvalid)
  exact ⟨past, s, _, r', hpast, hopens.unlocked, hvalid, proof, earlier, grant, between, r₀, hproof,
    hsplit, hgrant, hunaltered⟩

end Example

end Steps

end DeviceAuth.Session
