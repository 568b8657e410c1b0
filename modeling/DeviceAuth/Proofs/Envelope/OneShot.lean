import DeviceAuth.Proofs.Envelope

namespace DeviceAuth

def Failure.OutOfOrder : Failure → Prop
  | .alreadyUsed => True
  | .state (.envelopeOrder _ _) => True
  | _ => False

namespace Envelope

instance : Inhabited Keys :=
  ⟨⟨Fixed.zero 16, Fixed.zero 16, Fixed.zero 16⟩⟩

inductive Leg where
  | request
  | response
  deriving DecidableEq

inductive Message where
  | cryptogram (c : Cryptogram)
  | text (plain : Bytes)

structure Side (σ κ : Type) where
  perform : σ → κ → Except Failure Message × σ
  leg : κ → Leg
  stage : σ → Stage
  move : σ → Stage → σ
  opened : Keys → Stage
  sealing : Leg
  moves : List (State × State)
  Uses : σ → κ → Message → Keys → Prop

structure Entry (σ κ : Type) where
  before : σ
  call : κ
  answer : Except Failure Message
  after : σ

namespace Side

variable {σ κ : Type} {S : Side σ κ} {s t : σ} {k : κ} {ks : List κ} {keys : Keys}
  {e : Entry σ κ} {es : List (Entry σ κ)} {answer : Except Failure Message}

def Due (S : Side σ κ) (s : σ) : Leg → Prop
  | .request => S.stage s = .fresh
  | .response => ∃ keys, S.stage s = S.opened keys

inductive Step (S : Side σ κ) (s : σ) (k : κ) : Except Failure Message → σ → Prop
  | opens {m keys} : S.leg k = .request → S.stage s = .fresh → S.Uses s k m keys →
      Step S s k (.ok m) (S.move s (S.opened keys))
  | closes {m keys} : S.leg k = .response → S.stage s = S.opened keys → S.Uses s k m keys →
      Step S s k (.ok m) (S.move s .consumed)
  | spoils {why} : S.Due s (S.leg k) → S.leg k ≠ S.sealing → ¬why.OutOfOrder →
      Step S s k (.error why) (S.move s .consumed)
  | refuses {why} : Step S s k (.error why) s

structure Lawful (S : Side σ κ) : Prop where
  step : ∀ s k, S.Step s k (S.perform s k).1 (S.perform s k).2
  stage_move : ∀ s x, S.stage (S.move s x) = x
  uses_of_move : ∀ {s x k m keys}, S.Uses (S.move s x) k m keys → S.Uses s k m keys
  opened_injective : ∀ {a b}, S.opened a = S.opened b → a = b
  opened_ne_fresh : ∀ keys, S.opened keys ≠ .fresh
  opened_ne_consumed : ∀ keys, S.opened keys ≠ .consumed
  opening : ∀ keys, (.fresh, (S.opened keys).state) ∈ S.moves
  closing : ∀ keys, ((S.opened keys).state, .consumed) ∈ S.moves
  spoiling : S.sealing = .response → (.fresh, .consumed) ∈ S.moves

def log (S : Side σ κ) : σ → List κ → List (Entry σ κ)
  | _, [] => []
  | s, k :: ks => ⟨s, k, (S.perform s k).1, (S.perform s k).2⟩ :: S.log (S.perform s k).2 ks

def served (S : Side σ κ) (leg : Leg) (e : Entry σ κ) : Bool :=
  S.leg e.call == leg && e.answer.isOk

def left (S : Side σ κ) (s : σ) : Leg → Nat
  | .request => if S.stage s = .fresh then 1 else 0
  | .response => if S.stage s = .consumed then 0 else 1

def Keyed (S : Side σ κ) (s : σ) (keys : Keys) (es : List (Entry σ κ)) : Prop :=
  ∀ e ∈ es, ∀ m, e.answer = .ok m → S.Uses s e.call m keys

inductive Trace (S : Side σ κ) : σ → List (Entry σ κ) → Prop
  | nil (s : σ) : Trace S s []
  | cons {s t : σ} {k : κ} {answer : Except Failure Message} {es : List (Entry σ κ)} :
      S.Step s k answer t → Trace S t es → Trace S s (⟨s, k, answer, t⟩ :: es)

theorem countP_log_le {p : Entry σ κ → Bool} (rest : σ → Nat)
    (h : ∀ s k, (p ⟨s, k, (S.perform s k).1, (S.perform s k).2⟩).toNat + rest (S.perform s k).2 ≤
      rest s) (s : σ) (ks : List κ) : (S.log s ks).countP p ≤ rest s := by
  induction ks generalizing s with
  | nil => exact Nat.zero_le _
  | cons k ks ih =>
      refine Nat.le_trans ?_ (h s k)
      rw [log, List.countP_cons, Nat.add_comm]
      refine Nat.add_le_add ?_ (ih _)
      cases p _ <;> simp

theorem Lawful.trace (hS : S.Lawful) (s : σ) (ks : List κ) : S.Trace s (S.log s ks) := by
  induction ks generalizing s with
  | nil => exact .nil s
  | cons k ks ih => exact .cons (hS.step s k) (ih _)

section Calls

variable (hS : S.Lawful)
include hS

theorem Step.left (h : S.Step s k answer t) (leg : Leg) :
    (S.served leg ⟨s, k, answer, t⟩).toNat + S.left t leg ≤ S.left s leg := by
  cases h with
  | opens hleg hs _ | closes hleg hs _ =>
      cases leg <;> simp [served, Side.left, hleg, hs, hS.stage_move, hS.opened_ne_fresh,
        hS.opened_ne_consumed, Except.isOk, Except.toBool]
  | spoils => cases leg <;> simp [served, Side.left, hS.stage_move, Except.isOk, Except.toBool]
  | refuses => simp [served, Except.isOk, Except.toBool]

theorem Step.left_le (h : S.Step s k answer t) (leg : Leg) : S.left t leg ≤ S.left s leg :=
  Nat.le_trans (Nat.le_add_left _ _) (h.left hS leg)

theorem Step.due_response (h : S.Step s k answer t) (hdue : S.Due t .response) :
    S.Due s .response ∨ S.served .request ⟨s, k, answer, t⟩ = true := by
  obtain ⟨keys, ht⟩ := hdue
  cases h with
  | opens hleg _ _ => simp [served, hleg, Except.isOk, Except.toBool]
  | closes | spoils =>
      exact absurd (ht.symm.trans (hS.stage_move _ _)) (hS.opened_ne_consumed keys)
  | refuses => exact .inl ⟨keys, ht⟩

theorem Trace.request_of_served (h : S.Trace s es) {earlier later : List (Entry σ κ)}
    (hes : es = earlier ++ e :: later) (he : S.served .response e = true) :
    S.Due s .response ∨ ∃ r ∈ earlier, S.served .request r = true := by
  -- A response that is due after the first call was due before it, or the call is the request.
  induction h generalizing earlier with
  | nil => simp at hes
  | cons hstep _ ih =>
      cases earlier with
      | nil =>
          obtain ⟨rfl, -⟩ := List.cons.inj hes
          left
          cases hstep with
          | opens hleg _ _ => simp [served, hleg] at he
          | closes _ hs _ => exact ⟨_, hs⟩
          | spoils | refuses => simp [served, Except.isOk, Except.toBool] at he
      | cons first earlier =>
          obtain ⟨rfl, htail⟩ := List.cons.inj hes
          rcases ih htail with hdue | ⟨r, hr, hserved⟩
          · rcases hstep.due_response hS hdue with hbefore | hserved
            · exact .inl hbefore
            · exact .inr ⟨_, List.mem_cons_self, hserved⟩
          · exact .inr ⟨r, List.mem_cons_of_mem _ hr, hserved⟩

theorem Step.of_consumed (h : S.Step s k answer t) (hs : S.stage s = .consumed) :
    t = s ∧ ∃ why, answer = .error why := by
  cases h with
  | opens _ hfresh _ => simp [hs] at hfresh
  | closes _ hopened _ => exact absurd (hopened.symm.trans hs) (hS.opened_ne_consumed _)
  | spoils hdue _ _ =>
      cases hleg : S.leg k with
      | request => simp [hleg, Due, hs] at hdue
      | response =>
          rw [hleg] at hdue
          obtain ⟨keys, hopened⟩ := hdue
          exact absurd (hopened.symm.trans hs) (hS.opened_ne_consumed keys)
  | refuses => exact ⟨rfl, _, rfl⟩

theorem Trace.keyed_of_consumed (h : S.Trace s es) (hs : S.stage s = .consumed) (t : σ)
    (keys : Keys) : S.Keyed t keys es := by
  induction h with
  | nil => exact List.forall_mem_nil _
  | cons hstep _ ih =>
      obtain ⟨rfl, why, rfl⟩ := hstep.of_consumed hS hs
      exact List.forall_mem_cons.mpr ⟨by simp, ih hs⟩

theorem Trace.keyed_of_opened (h : S.Trace s es) (hs : S.stage s = S.opened keys) :
    S.Keyed s keys es := by
  induction h with
  | nil => exact List.forall_mem_nil _
  | cons hstep htail ih =>
      cases hstep with
      | opens _ hfresh _ => exact absurd (hs.symm.trans hfresh) (hS.opened_ne_fresh keys)
      | closes _ hopened huses =>
          obtain rfl := hS.opened_injective (hs.symm.trans hopened)
          exact List.forall_mem_cons.mpr
            ⟨by simpa using huses, htail.keyed_of_consumed hS (hS.stage_move _ _) _ _⟩
      | spoils =>
          exact List.forall_mem_cons.mpr
            ⟨by simp, htail.keyed_of_consumed hS (hS.stage_move _ _) _ _⟩
      | refuses => exact List.forall_mem_cons.mpr ⟨by simp, ih hs⟩

theorem Trace.exists_keyed (h : S.Trace s es) (hs : S.stage s = .fresh) :
    ∃ keys, S.Keyed s keys es := by
  induction h with
  | nil => exact ⟨default, List.forall_mem_nil _⟩
  | cons hstep htail ih =>
      cases hstep with
      | @opens m keys _ _ huses =>
          have hrest := htail.keyed_of_opened hS (hS.stage_move _ _)
          exact ⟨keys, List.forall_mem_cons.mpr
            ⟨by simpa using huses, fun e he m hm => hS.uses_of_move (hrest e he m hm)⟩⟩
      | closes _ hopened _ => exact absurd (hopened.symm.trans hs) (hS.opened_ne_fresh _)
      | spoils =>
          exact ⟨default, List.forall_mem_cons.mpr
            ⟨by simp, htail.keyed_of_consumed hS (hS.stage_move _ _) _ _⟩⟩
      | refuses =>
          obtain ⟨keys, hkeys⟩ := ih hs
          exact ⟨keys, List.forall_mem_cons.mpr ⟨by simp, hkeys⟩⟩

theorem Step.moves (h : S.Step s k answer t) :
    t = s ∨ ((S.stage s).state, (S.stage t).state) ∈ S.moves := by
  cases h with
  | opens _ hs _ =>
      rw [hs, hS.stage_move]
      exact .inr (hS.opening _)
  | closes _ hs _ =>
      rw [hs, hS.stage_move]
      exact .inr (hS.closing _)
  | spoils hdue hleg _ =>
      right
      cases hk : S.leg k with
      | request =>
          rw [hk] at hdue
          have hs : S.stage s = .fresh := hdue
          rw [hs, hS.stage_move]
          exact hS.spoiling (by cases hseal : S.sealing <;> simp_all)
      | response =>
          rw [hk] at hdue
          obtain ⟨keys, hs⟩ := hdue
          rw [hs, hS.stage_move]
          exact hS.closing keys
  | refuses => exact .inl rfl

omit hS in
theorem Step.kept {why : Failure} (h : S.Step s k (.error why) t)
    (hwhy : S.leg k = S.sealing ∨ why.OutOfOrder) : t = s := by
  cases h with
  | spoils _ hleg horder => simp [hleg, horder] at hwhy
  | refuses => rfl

omit hS in
theorem Step.untimely (h : S.Step s k answer t) (hdue : ¬S.Due s (S.leg k)) :
    (∃ why, answer = .error why) ∧ t = s := by
  cases h with
  | opens hleg hs _ | closes hleg hs _ => simp [hleg, Due, hs] at hdue
  | spoils h _ _ => exact absurd h hdue
  | refuses => exact ⟨⟨_, rfl⟩, rfl⟩

omit hS in
theorem Trace.step (h : S.Trace s es) (he : e ∈ es) :
    S.Step e.before e.call e.answer e.after := by
  induction h with
  | nil => simp at he
  | cons hstep _ ih =>
      rcases List.mem_cons.mp he with rfl | he
      · exact hstep
      · exact ih he

end Calls

structure OneShot (S : Side σ κ) (s : σ) (ks : List κ) : Prop where
  once : ∀ leg, (S.log s ks).countP (S.served leg) ≤ 1
  inOrder : ∀ earlier e later, S.log s ks = earlier ++ e :: later →
    S.served .response e = true → ∃ r ∈ earlier, S.served .request r = true
  moves : ∀ e ∈ S.log s ks,
    e.after = e.before ∨ ((S.stage e.before).state, (S.stage e.after).state) ∈ S.moves
  final : ∀ e ∈ S.log s ks, S.stage e.before = .consumed → e.after = e.before
  kept : ∀ e ∈ S.log s ks, ∀ why, e.answer = .error why →
    S.leg e.call = S.sealing ∨ why.OutOfOrder → e.after = e.before
  untimely : ∀ e ∈ S.log s ks, ¬S.Due e.before (S.leg e.call) →
    (∃ why, e.answer = .error why) ∧ e.after = e.before
  sameKeys : ∃ keys, S.Keyed s keys (S.log s ks)

theorem Lawful.oneShot (hS : S.Lawful) (hs : S.stage s = .fresh) (ks : List κ) :
    S.OneShot s ks := by
  have htrace := hS.trace s ks
  have hdue : ¬S.Due s .response := fun ⟨keys, h⟩ => hS.opened_ne_fresh keys (h.symm.trans hs)
  exact {
    once := fun leg => by
      refine Nat.le_trans
        (countP_log_le (S.left · leg) (fun s k => (hS.step s k).left hS leg) s ks) ?_
      cases leg <;> simp [Side.left, hs]
    inOrder := fun earlier e later hlog he =>
      (htrace.request_of_served hS hlog he).resolve_left hdue
    moves := fun e he => (htrace.step he).moves hS
    final := fun e he hs => ((htrace.step he).of_consumed hS hs).1
    kept := fun e he why hwhy hkept => by
      have hstep := htrace.step he
      rw [hwhy] at hstep
      exact hstep.kept hkept
    untimely := fun e he => (htrace.step he).untimely
    sameKeys := htrace.exists_keyed hS hs }

end Side

theorem Failure.not_outOfOrder_of_lift {α : Type} {x : Except PrimitiveFault α} {why : Failure}
    (h : Failure.lift x = .error why) : ¬why.OutOfOrder := by
  cases x with
  | ok a => cases h
  | error fault =>
      cases h
      cases fault <;> simp [Failure.ofPrimitive, Failure.OutOfOrder]

theorem Keys.not_outOfOrder_of_openMessage {keys : Keys} {info : Bytes} {c : Cryptogram}
    {why : Failure} (h : keys.openMessage info c = .error why) : ¬why.OutOfOrder := by
  unfold openMessage at h
  split at h
  next => cases h; simp [Failure.OutOfOrder]
  split at h
  next => cases h; simp [Failure.OutOfOrder]
  split at h
  next => cases h
  next => cases h; simp [Failure.OutOfOrder]

namespace Encryptor

inductive Action where
  | request (ephemeral : P256.PrivateKey) (nonce : Fixed 16) (plain : Bytes)
  | response (c : Cryptogram)

inductive Uses (e : Encryptor) : Action → Message → Keys → Prop
  | request (ephemeral nonce plain) :
      Uses e (.request ephemeral nonce plain)
        (.cryptogram { (e.requestKeys ephemeral).sealMessage nonce e.info2 plain with
          ephemeralKey := some ephemeral.publicKey.compressed })
        (e.requestKeys ephemeral)
  | response {c keys plain} : keys.openMessage e.info2 c = .ok plain →
      Uses e (.response c) (.text plain) keys

def side : Side Encryptor Action where
  perform e
    | .request ephemeral nonce plain =>
        let r := e.encryptRequest ephemeral nonce plain
        (r.1.map .cryptogram, r.2)
    | .response c =>
        let r := e.decryptResponse c
        (r.1.map .text, r.2)
  leg
    | .request _ _ _ => .request
    | .response _ => .response
  stage := stage
  move e stage := { e with stage }
  opened := .encrypted
  sealing := .request
  moves := [(.fresh, .encrypted), (.encrypted, .consumed)]
  Uses := Uses

theorem encryptRequest_cases (e : Encryptor) (ephemeral : P256.PrivateKey) (nonce : Fixed 16)
    (plain : Bytes) :
    (∃ c e', e.encryptRequest ephemeral nonce plain = (.ok c, e')) ∨
      ∃ why, e.encryptRequest ephemeral nonce plain = (.error why, e) := by
  unfold encryptRequest
  split
  · exact .inr ⟨_, rfl⟩
  · exact .inr ⟨_, rfl⟩
  · exact .inl ⟨_, _, rfl⟩

theorem lawful_side : side.Lawful where
  step e k := by
    cases k with
    | request ephemeral nonce plain =>
        rcases e.encryptRequest_cases ephemeral nonce plain with ⟨c, e', h⟩ | ⟨why, h⟩
        · simp only [side, h]
          obtain ⟨hfresh, -, rfl, rfl⟩ := encryptRequest_eq_ok.mp h
          exact .opens rfl hfresh (.request ephemeral nonce plain)
        · simp only [side, h]
          exact .refuses
    | response c =>
        cases hstage : e.stage with
        | encrypted keys =>
            simp only [side, decryptResponse, hstage]
            cases h : keys.openMessage e.info2 c with
            | ok plain => exact .closes rfl hstage (.response h)
            | error why =>
                exact .spoils ⟨keys, hstage⟩ (by simp) (Keys.not_outOfOrder_of_openMessage h)
        | fresh | decrypted _ | consumed =>
            simp only [side, decryptResponse, hstage]
            exact .refuses
  stage_move _ _ := rfl
  uses_of_move h := by
    cases h with
    | request => exact .request _ _ _
    | response h => exact .response h
  opened_injective h := by simpa [side] using h
  opened_ne_fresh := by simp [side]
  opened_ne_consumed := by simp [side]
  opening := by simp [side, Stage.state]
  closing := by simp [side, Stage.state]
  spoiling := by simp [side]

end Encryptor

namespace Decryptor

inductive Action where
  | request (c : Cryptogram)
  | response (nonce : Fixed 16) (plain : Bytes)

inductive Uses (d : Decryptor) : Action → Message → Keys → Prop
  | request {c ephemeralKey keys plain} : c.ephemeralKey = some ephemeralKey →
      d.readRequest ephemeralKey c = .ok (keys, plain) → Uses d (.request c) (.text plain) keys
  | response (nonce plain keys) :
      Uses d (.response nonce plain) (.cryptogram (keys.sealMessage nonce d.info2 plain)) keys

def side : Side Decryptor Action where
  perform d
    | .request c =>
        let r := d.decryptRequest c
        (r.1.map .text, r.2)
    | .response nonce plain =>
        let r := d.encryptResponse nonce plain
        (r.1.map .cryptogram, r.2)
  leg
    | .request _ => .request
    | .response _ _ => .response
  stage := stage
  move d stage := { d with stage }
  opened := .decrypted
  sealing := .response
  moves := [(.fresh, .decrypted), (.decrypted, .consumed), (.fresh, .consumed)]
  Uses := Uses

theorem not_outOfOrder_of_readRequest {d : Decryptor} {ephemeralKey : Bytes} {c : Cryptogram}
    {why : Failure} (h : d.readRequest ephemeralKey c = .error why) : ¬why.OutOfOrder := by
  rcases bind_eq_error.mp h with h | ⟨peer, -, h⟩
  · exact Failure.not_outOfOrder_of_lift h
  · rcases bind_eq_error.mp h with h | ⟨plain, -, h⟩
    · exact Keys.not_outOfOrder_of_openMessage h
    · cases h

theorem step_request (d : Decryptor) (c : Cryptogram) :
    side.Step d (.request c) (side.perform d (.request c)).1 (side.perform d (.request c)).2 := by
  simp only [side, decryptRequest]
  cases hstage : d.stage with
  | fresh =>
      cases hkey : c.ephemeralKey with
      | none => exact .refuses
      | some ephemeralKey =>
          simp only [checkFresh]
          cases checkSize d.limit (c.body.length - 16) with
          | error why => exact .refuses
          | ok =>
              cases hread : d.readRequest ephemeralKey c with
              | error why =>
                  exact .spoils hstage (by simp) (not_outOfOrder_of_readRequest hread)
              | ok r => exact .opens rfl hstage (.request hkey hread)
  | encrypted _ | decrypted _ | consumed => exact .refuses

theorem step_response (d : Decryptor) (nonce : Fixed 16) (plain : Bytes) :
    side.Step d (.response nonce plain) (side.perform d (.response nonce plain)).1
      (side.perform d (.response nonce plain)).2 := by
  simp only [side, encryptResponse]
  cases checkSize d.limit plain.length with
  | error why => exact .refuses
  | ok =>
      cases hstage : d.stage with
      | decrypted keys => exact .closes rfl hstage (.response nonce plain keys)
      | fresh | encrypted _ | consumed => exact .refuses

theorem lawful_side : side.Lawful where
  step d k := by
    cases k with
    | request c => exact d.step_request c
    | response nonce plain => exact d.step_response nonce plain
  stage_move _ _ := rfl
  uses_of_move h := by
    cases h with
    | request hkey hread => exact .request hkey hread
    | response => exact .response _ _ _
  opened_injective h := by simpa [side] using h
  opened_ne_fresh := by simp [side]
  opened_ne_consumed := by simp [side]
  opening := by simp [side, Stage.state]
  closing := by simp [side, Stage.state]
  spoiling := by simp [side]

end Decryptor

theorem envelopes_one_shot (info1 info2 : Bytes) (limit : Nat) :
    (∀ peer ks, Encryptor.side.OneShot (.new peer info1 info2 limit) ks) ∧
      ∀ privateKey ks, Decryptor.side.OneShot (.new privateKey info1 info2 limit) ks :=
  ⟨fun _ ks => Encryptor.lawful_side.oneShot rfl ks,
    fun _ ks => Decryptor.lawful_side.oneShot rfl ks⟩

end Envelope

end DeviceAuth
