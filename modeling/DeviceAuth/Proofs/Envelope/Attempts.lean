import DeviceAuth.Proofs.Envelope.OneShot
import DeviceAuth.Proofs.Envelope.Tampering

namespace DeviceAuth.Envelope

inductive TurnedAway (limit : Nat) (c : Cryptogram) : Failure → Prop
  | keyless : c.ephemeralKey = none → TurnedAway limit c (.format .noEphemeralKey)
  | long : c.ephemeralKey ≠ none → limit < c.body.length - 16 →
      TurnedAway limit c (.input (.payloadSize (c.body.length - 16) limit))

namespace Decryptor

variable {d : Decryptor} {c : Cryptogram} {why : Failure}

def tries (d : Decryptor) : Action → Bool
  | .request c => d.stage = .fresh && c.ephemeralKey.isSome && c.body.length - 16 ≤ d.limit
  | .response _ _ => false

def attempt (entry : Entry Decryptor Action) : Bool :=
  entry.before.tries entry.call

theorem decryptRequest_of_turnedAway (hfresh : d.stage = .fresh) (h : TurnedAway d.limit c why) :
    d.decryptRequest c = (.error why, d) := by
  cases h with
  | keyless hkey => rw [decryptRequest, hfresh, hkey]; rfl
  | long hkey hlong =>
      obtain ⟨ephemeralKey, hkey⟩ := Option.ne_none_iff_exists'.mp hkey
      rw [decryptRequest, hfresh, hkey, checkSize, if_neg (Nat.not_le_of_lt hlong)]
      rfl

theorem tries_or_turnedAway (hfresh : d.stage = .fresh) (c : Cryptogram) :
    d.tries (.request c) = true ∨ ∃ why, TurnedAway d.limit c why := by
  by_cases hkey : c.ephemeralKey = none
  · exact .inr ⟨_, .keyless hkey⟩
  by_cases hsize : c.body.length - 16 ≤ d.limit
  · left
    simp [tries, hfresh, hsize, Option.isSome_iff_ne_none, hkey]
  · exact .inr ⟨_, .long hkey (Nat.lt_of_not_le hsize)⟩

theorem decryptRequest_of_tries (h : d.tries (.request c) = true) :
    (∃ plain keys, d.decryptRequest c = (.ok plain, { d with stage := .decrypted keys })) ∨
      ∃ why, d.decryptRequest c = (.error why, { d with stage := .consumed }) := by
  simp only [tries, Bool.and_eq_true, decide_eq_true_eq] at h
  obtain ⟨⟨hfresh, hkey⟩, hsize⟩ := h
  obtain ⟨ephemeralKey, hkey⟩ := Option.isSome_iff_exists.mp hkey
  rw [decryptRequest, hfresh, hkey, checkSize_eq_ok.mpr hsize]
  dsimp only [checkFresh]
  cases d.readRequest ephemeralKey c with
  | ok r => exact .inl ⟨r.2, r.1, rfl⟩
  | error why => exact .inr ⟨why, rfl⟩

theorem tries_left (d : Decryptor) (k : Action) :
    (d.tries k).toNat + side.left (side.perform d k).2 .request ≤ side.left d .request := by
  cases htries : d.tries k with
  | false =>
      rw [Bool.toNat_false, Nat.zero_add]
      exact (lawful_side.step d k).left_le lawful_side .request
  | true =>
      cases k with
      | request c =>
          have hfresh : d.stage = .fresh := by
            simp only [tries, Bool.and_eq_true, decide_eq_true_eq] at htries
            exact htries.1.1
          rcases decryptRequest_of_tries htries with ⟨plain, keys, h⟩ | ⟨why, h⟩ <;>
            simp [side, Side.left, h, hfresh]
      | response nonce plain => cases htries

end Decryptor

namespace Encryptor

variable {e : Encryptor} {keys : Keys}

def tries (e : Encryptor) : Action → Bool
  | .request _ _ _ => false
  | .response _ => e.state = .encrypted

def attempt (entry : Entry Encryptor Action) : Bool :=
  entry.before.tries entry.call

theorem decryptResponse_of_encrypted (h : e.stage = .encrypted keys) (c : Cryptogram) :
    e.decryptResponse c = (keys.openMessage e.info2 c, { e with stage := .consumed }) := by
  rw [decryptResponse, h]

theorem tries_left (e : Encryptor) (k : Action) :
    (e.tries k).toNat + side.left (side.perform e k).2 .response ≤ side.left e .response := by
  cases htries : e.tries k with
  | false =>
      rw [Bool.toNat_false, Nat.zero_add]
      exact (lawful_side.step e k).left_le lawful_side .response
  | true =>
      cases k with
      | request => cases htries
      | response c =>
          cases hstage : e.stage with
          | encrypted keys => simp [side, Side.left, decryptResponse_of_encrypted hstage, hstage]
          | fresh | decrypted _ | consumed => simp [tries, state, hstage, Stage.state] at htries

end Encryptor

theorem failed_attempt_consumes {d : Decryptor} {e : Encryptor} {keys : Keys}
    (hd : d.stage = .fresh) (he : e.stage = .encrypted keys) :
    (∀ c why, (d.decryptRequest c).1 = .error why →
      (d.decryptRequest c).2.state = .consumed ∨
        TurnedAway d.limit c why ∧ (d.decryptRequest c).2 = d) ∧
    (∀ c why, TurnedAway d.limit c why → d.decryptRequest c = (.error why, d)) ∧
    (∀ c why, (e.decryptResponse c).1 = .error why →
      (e.decryptResponse c).2.state = .consumed) ∧
    (∀ ks, (Decryptor.side.log d ks).countP Decryptor.attempt ≤ 1) ∧
    ∀ ks, (Encryptor.side.log e ks).countP Encryptor.attempt ≤ 1 := by
  refine ⟨fun c why herror => ?_, fun c why => Decryptor.decryptRequest_of_turnedAway hd,
    fun c why _ => ?_, fun ks => ?_, fun ks => ?_⟩
  · rcases Decryptor.tries_or_turnedAway hd c with htries | ⟨other, haway⟩
    · left
      rcases Decryptor.decryptRequest_of_tries htries with ⟨plain, keys, h⟩ | ⟨other, h⟩
      · rw [h] at herror
        cases herror
      · rw [h]
        rfl
    · right
      have h := Decryptor.decryptRequest_of_turnedAway hd haway
      rw [h] at herror ⊢
      cases herror
      exact ⟨haway, rfl⟩
  · rw [Encryptor.decryptResponse_of_encrypted he]
    rfl
  · refine Nat.le_trans (Side.countP_log_le (Decryptor.side.left · .request) Decryptor.tries_left d ks) ?_
    simp [Side.left, Decryptor.side, hd]
  · refine Nat.le_trans (Side.countP_log_le (Encryptor.side.left · .response) Encryptor.tries_left e ks) ?_
    simp [Side.left, Encryptor.side, he]

def codelessRequest : Cryptogram :=
  sampleRequest { sampleMessage [] with mac := [] }

theorem codeless_request_consumes :
    ((sampleServer .fresh).stage = .fresh ∧
      (sampleClient (.encrypted sampleKeys)).stage = .encrypted sampleKeys) ∧
    (∃ why, ((sampleServer .fresh).decryptRequest codelessRequest).1 = .error why) ∧
    ((sampleServer .fresh).decryptRequest codelessRequest).2.state = .consumed := by
  have hlength : codelessRequest.body.length = 16 :=
    Keys.length_sealMessage sampleKeys (Fixed.zero 16) [] []
  have hcode : (sampleKeys.mac codelessRequest.body []).bytes ≠ codelessRequest.mac := by
    intro h
    have hempty := congrArg List.length h
    rw [Fixed.length_eq] at hempty
    cases hempty
  have hsize : checkSize (sampleServer .fresh).limit (codelessRequest.body.length - 16) = .ok () := by
    rw [hlength]
    rfl
  obtain ⟨why, hwhy⟩ := Keys.openMessage_of_mac_ne hcode
  have herror : ((sampleServer .fresh).decryptRequest codelessRequest).1 = .error why := by
    rw [Decryptor.decryptRequest_answer (matching_sample .fresh .fresh) rfl rfl, hsize]
    exact hwhy
  have hresult := (failed_attempt_consumes (d := sampleServer .fresh)
    (e := sampleClient (.encrypted sampleKeys)) rfl rfl).1 codelessRequest why herror
  refine ⟨⟨rfl, rfl⟩, ⟨why, herror⟩, hresult.resolve_right ?_⟩
  rintro ⟨haway, -⟩
  cases haway with
  | keyless hkey => cases hkey
  | long _ hlong =>
      rw [hlength] at hlong
      exact Nat.not_lt_zero _ hlong

def keylessRequest : Cryptogram :=
  { ephemeralKey := none
    body := List.replicate 16 0
    mac := List.replicate 32 0
    nonce := List.replicate 16 0 }

theorem keyless_request_leaves_fresh :
    (sampleServer .fresh).stage = .fresh ∧
      ((sampleServer .fresh).decryptRequest keylessRequest).1 = .error (.format .noEphemeralKey) ∧
      ((sampleServer .fresh).decryptRequest keylessRequest).2.state ≠ .consumed := by
  have hanswer : (sampleServer .fresh).decryptRequest keylessRequest =
      (.error (.format .noEphemeralKey), sampleServer .fresh) :=
    Decryptor.decryptRequest_of_turnedAway rfl (.keyless rfl)
  rw [hanswer]
  exact ⟨rfl, rfl, by decide⟩

end DeviceAuth.Envelope
