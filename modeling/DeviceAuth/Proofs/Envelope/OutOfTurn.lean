import DeviceAuth.Proofs.Envelope.Attempts

namespace DeviceAuth.Envelope

namespace Side

variable {σ κ : Type} {S : Side σ κ} {s t : σ} {k : κ} {e : Entry σ κ}
  {earlier later : List (Entry σ κ)} {answer : Except Failure Message}

inductive OutOfTurn (S : Side σ κ) (earlier : List (Entry σ κ)) (e : Entry σ κ) : Prop
  | late : S.stage e.before = .consumed → OutOfTurn S earlier e
  | early : S.leg e.call = .response → (∀ r ∈ earlier, S.served .request r = false) →
      OutOfTurn S earlier e

def Unopened (S : Side σ κ) (s : σ) : Prop :=
  S.stage s = .fresh ∨ S.stage s = .consumed

def Untimely (S : Side σ κ) (s : σ) (k : κ) : Prop :=
  S.stage s = .consumed ∨ S.leg k = .response ∧ S.stage s = .fresh

theorem Step.unopened (hS : S.Lawful) (h : S.Step s k answer t) (hs : S.Unopened s)
    (hunserved : S.served .request ⟨s, k, answer, t⟩ = false) : S.Unopened t := by
  cases h with
  | opens hleg _ _ => simp [served, hleg, Except.isOk, Except.toBool] at hunserved
  | closes | spoils => exact .inr (hS.stage_move _ _)
  | refuses => exact hs

theorem Trace.unopened (hS : S.Lawful) (h : S.Trace s (earlier ++ e :: later)) (hs : S.Unopened s)
    (hunserved : ∀ r ∈ earlier, S.served .request r = false) : S.Unopened e.before := by
  induction earlier generalizing s with
  | nil =>
      cases h
      exact hs
  | cons r earlier ih =>
      obtain ⟨hr, hearlier⟩ := List.forall_mem_cons.mp hunserved
      cases h with
      | cons hstep htail => exact ih htail (hstep.unopened hS hs hr) hearlier

theorem OutOfTurn.untimely (hS : S.Lawful) (hs : S.stage s = .fresh)
    (h : S.OutOfTurn earlier e) (htrace : S.Trace s (earlier ++ e :: later)) :
    S.Untimely e.before e.call := by
  cases h with
  | late hconsumed => exact .inl hconsumed
  | early hleg hunserved =>
      rcases htrace.unopened hS (.inl hs) hunserved with hfresh | hconsumed
      · exact .inr ⟨hleg, hfresh⟩
      · exact .inl hconsumed

theorem mem_log {ks : List κ} (h : e ∈ S.log s ks) :
    S.perform e.before e.call = (e.answer, e.after) := by
  induction ks generalizing s with
  | nil => cases h
  | cons k ks ih =>
      rcases List.mem_cons.mp h with rfl | h
      · rfl
      · exact ih h

theorem refused_of_outOfTurn (hS : S.Lawful) {why : σ → κ → Failure}
    (hrefused : ∀ s k, S.Untimely s k → S.perform s k = (.error (why s k), s))
    (hs : S.stage s = .fresh) {ks : List κ} (hlog : S.log s ks = earlier ++ e :: later)
    (h : S.OutOfTurn earlier e) :
    e.answer = .error (why e.before e.call) ∧ e.after = e.before := by
  have htrace : S.Trace s (earlier ++ e :: later) := hlog ▸ hS.trace s ks
  have hmem : e ∈ S.log s ks := by
    rw [hlog]
    exact List.mem_append_right _ List.mem_cons_self
  have hperform := hrefused _ _ (h.untimely hS hs htrace)
  rw [mem_log hmem] at hperform
  exact Prod.mk.inj hperform

end Side

namespace Encryptor

def Action.name : Action → Call
  | .request _ _ _ => .encryptRequest
  | .response _ => .decryptResponse

theorem perform_untimely (e : Encryptor) (k : Action) (h : side.Untimely e k) :
    side.perform e k = (.error (outOfOrder k.name e.stage), e) := by
  cases k with
  | request ephemeral nonce plain =>
      have hstage : e.stage = .consumed := by simpa [Side.Untimely, side] using h
      simp [side, encryptRequest, checkFresh, hstage, Action.name, Except.map]
  | response c =>
      have hstage : e.stage = .consumed ∨ e.stage = .fresh := by simpa [Side.Untimely, side] using h
      rcases hstage with hstage | hstage <;>
        simp [side, decryptResponse, hstage, Action.name, Except.map]

end Encryptor

namespace Decryptor

def refusal (d : Decryptor) : Action → Failure
  | .request _ => outOfOrder .decryptRequest d.stage
  | .response _ plain =>
      if plain.length ≤ d.limit then outOfOrder .encryptResponse d.stage
      else .input (.payloadSize plain.length d.limit)

theorem perform_untimely (d : Decryptor) (k : Action) (h : side.Untimely d k) :
    side.perform d k = (.error (d.refusal k), d) := by
  cases k with
  | request c =>
      have hstage : d.stage = .consumed := by simpa [Side.Untimely, side] using h
      simp [side, decryptRequest, checkFresh, hstage, refusal, Except.map]
  | response nonce plain =>
      have hstage : d.stage = .consumed ∨ d.stage = .fresh := by simpa [Side.Untimely, side] using h
      by_cases hsize : plain.length ≤ d.limit <;> rcases hstage with hstage | hstage <;>
        simp [side, encryptResponse, checkSize, hsize, hstage, refusal, Except.map]

end Decryptor

theorem out_of_turn_refused (info1 info2 : Bytes) (limit : Nat) :
    (∀ peer ks earlier e later,
      Encryptor.side.log (.new peer info1 info2 limit) ks = earlier ++ e :: later →
      Encryptor.side.OutOfTurn earlier e →
      e.answer = .error (outOfOrder e.call.name e.before.stage) ∧ e.after = e.before) ∧
    ∀ privateKey ks earlier e later,
      Decryptor.side.log (.new privateKey info1 info2 limit) ks = earlier ++ e :: later →
      Decryptor.side.OutOfTurn earlier e →
      e.answer = .error (e.before.refusal e.call) ∧ e.after = e.before :=
  ⟨fun _ _ _ _ _ => Side.refused_of_outOfTurn Encryptor.lawful_side Encryptor.perform_untimely rfl,
    fun _ _ _ _ _ => Side.refused_of_outOfTurn Decryptor.lawful_side Decryptor.perform_untimely rfl⟩

section Example

def longResponse : Entry Decryptor Decryptor.Action where
  before := .new leastKey [1] [] 16
  call := .response (Fixed.zero 16) (List.replicate 17 7)
  answer := .error (.input (.payloadSize 17 16))
  after := .new leastKey [1] [] 16

theorem early_responses_refused :
    (∃ e, Encryptor.side.log (.new leastKey.publicKey [1] [] 16) [.response keylessRequest] =
        [] ++ e :: [] ∧ Encryptor.side.OutOfTurn [] e ∧
        e.answer = .error (outOfOrder .decryptResponse .fresh) ∧ e.after = e.before) ∧
    ∃ e, Decryptor.side.log longResponse.before [longResponse.call, .response (Fixed.zero 16) []] =
        [longResponse] ++ e :: [] ∧ Decryptor.side.OutOfTurn [longResponse] e ∧
        e.answer = .error (outOfOrder .encryptResponse .fresh) ∧ e.after = e.before := by
  have hrefused := out_of_turn_refused [1] [] 16
  have hunserved : ∀ r ∈ [longResponse], Decryptor.side.served .request r = false :=
    List.forall_mem_singleton.mpr rfl
  refine ⟨⟨_, rfl, ?_⟩, _, rfl, ?_⟩
  · exact ⟨.early rfl (List.forall_mem_nil _), hrefused.1 leastKey.publicKey
      [.response keylessRequest] [] _ [] rfl (.early rfl (List.forall_mem_nil _))⟩
  · exact ⟨.early rfl hunserved, hrefused.2 leastKey
      [longResponse.call, .response (Fixed.zero 16) []] [longResponse] _ [] rfl
      (.early rfl hunserved)⟩

theorem long_response_judged_by_size :
    ((Decryptor.new leastKey [1] [] 16).state = .fresh) ∧
      ((Decryptor.new leastKey [1] [] 16).encryptResponse (Fixed.zero 16)
        (List.replicate 17 7)).1 = .error (.input (.payloadSize 17 16)) ∧
      ∀ fault, ((Decryptor.new leastKey [1] [] 16).encryptResponse (Fixed.zero 16)
        (List.replicate 17 7)).1 ≠ .error (.state fault) := by
  have hanswer : ((Decryptor.new leastKey [1] [] 16).encryptResponse (Fixed.zero 16)
      (List.replicate 17 7)).1 = .error (.input (.payloadSize 17 16)) := rfl
  refine ⟨rfl, hanswer, fun fault h => ?_⟩
  rw [hanswer] at h
  cases h

end Example

end DeviceAuth.Envelope
