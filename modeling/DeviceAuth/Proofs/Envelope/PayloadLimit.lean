import DeviceAuth.Proofs.Envelope.Attempts

namespace DeviceAuth.Envelope

variable {e : Encryptor} {d : Decryptor} {keys : Keys} {info plain : Bytes} {c : Cryptogram}

def RefusedForSize {α : Type} (answer : Except Failure α) : Prop :=
  ∃ size limit, answer = .error (.input (.payloadSize size limit))

theorem not_refusedForSize_checkFresh (call : Call) (stage : Stage) :
    ¬RefusedForSize (checkFresh call stage) := by
  rintro ⟨size, limit, h⟩
  cases stage <;> cases h

namespace Keys

theorem length_of_openMessage (h : keys.openMessage info c = .ok plain) :
    c.body.length = 16 * (plain.length / 16 + 1) := by
  unfold openMessage at h
  split at h
  next => cases h
  split at h
  next => cases h
  split at h
  next plain' hplain =>
    cases h
    exact Cbc.length_of_decryptPadded hplain
  next => cases h

theorem not_refusedForSize_openMessage (keys : Keys) (info : Bytes) (c : Cryptogram) :
    ¬RefusedForSize (keys.openMessage info c) := by
  rintro ⟨size, limit, h⟩
  unfold openMessage at h
  split at h
  next => cases h
  split at h
  next => cases h
  split at h <;> cases h

end Keys

namespace Encryptor

theorem exists_encryptRequest_iff (e : Encryptor) (ephemeral : P256.PrivateKey) (nonce : Fixed 16)
    (plain : Bytes) :
    (∃ c, (e.encryptRequest ephemeral nonce plain).1 = .ok c) ↔
      e.stage = .fresh ∧ plain.length ≤ e.limit := by
  constructor
  · rintro ⟨c, h⟩
    obtain ⟨hfresh, hsize, -⟩ := encryptRequest_eq_ok.mp (Prod.ext h rfl)
    exact ⟨hfresh, hsize⟩
  · rintro ⟨hfresh, hsize⟩
    exact ⟨_, congrArg Prod.fst (encryptRequest_eq hfresh hsize ephemeral nonce)⟩

theorem decryptResponse_sealMessage (h : e.stage = .encrypted keys) (nonce : Fixed 16)
    (plain : Bytes) : (e.decryptResponse (keys.sealMessage nonce e.info2 plain)).1 = .ok plain := by
  rw [decryptResponse_of_encrypted h]
  exact keys.openMessage_sealMessage nonce e.info2 plain none

theorem exists_decryptResponse_iff (e : Encryptor) (plain : Bytes) :
    (∃ c, (e.decryptResponse c).1 = .ok plain) ↔ ∃ keys, e.stage = .encrypted keys := by
  constructor
  · rintro ⟨c, h⟩
    unfold decryptResponse at h
    split at h
    next keys hstage => exact ⟨keys, hstage⟩
    next => cases h
  · rintro ⟨keys, hstage⟩
    exact ⟨_, decryptResponse_sealMessage hstage (Fixed.zero 16) plain⟩

theorem not_refusedForSize_decryptResponse (e : Encryptor) (c : Cryptogram) :
    ¬RefusedForSize (e.decryptResponse c).1 := by
  unfold decryptResponse
  split
  next keys hstage => exact keys.not_refusedForSize_openMessage e.info2 c
  next =>
    rintro ⟨size, limit, h⟩
    cases h

end Encryptor

namespace Decryptor

theorem exists_encryptResponse_iff (d : Decryptor) (nonce : Fixed 16) (plain : Bytes) :
    (∃ c, (d.encryptResponse nonce plain).1 = .ok c) ↔
      (∃ keys, d.stage = .decrypted keys) ∧ plain.length ≤ d.limit := by
  by_cases hsize : plain.length ≤ d.limit
  · cases hstage : d.stage <;> simp [encryptResponse, checkSize, hstage, hsize]
  · simp [encryptResponse, checkSize, hsize]

theorem exists_keys_of_decryptRequest (h : (d.decryptRequest c).1 = .ok plain) :
    ∃ keys : Keys, keys.openMessage d.info2 c = .ok plain := by
  obtain ⟨hfresh, hsize⟩ := fresh_of_decryptRequest h
  unfold decryptRequest at h
  rw [hfresh, checkSize_eq_ok.mpr hsize] at h
  dsimp only [checkFresh] at h
  split at h
  next => cases h
  next => cases h
  next ephemeralKey _ _ =>
    split at h
    next => cases h
    next keys text hread =>
      cases h
      obtain ⟨peer, -, hread⟩ := bind_eq_ok.mp hread
      obtain ⟨text', hopened, hresult⟩ := bind_eq_ok.mp hread
      cases hresult
      exact ⟨_, hopened⟩

theorem exists_decryptRequest_iff (d : Decryptor) (plain : Bytes) :
    (∃ c, (d.decryptRequest c).1 = .ok plain) ↔
      d.stage = .fresh ∧ plain.length / 16 ≤ d.limit / 16 := by
  constructor
  · rintro ⟨c, h⟩
    obtain ⟨hfresh, hsize⟩ := fresh_of_decryptRequest h
    obtain ⟨keys, hopened⟩ := exists_keys_of_decryptRequest h
    rw [keys.length_of_openMessage hopened] at hsize
    exact ⟨hfresh, by omega⟩
  · rintro ⟨hfresh, hsize⟩
    have hread := decryptRequest_eq (e := .new d.privateKey.publicKey d.info1 d.info2 d.limit)
      (by simp only [Encryptor.new]) rfl rfl hfresh hsize d.privateKey (Fixed.zero 16)
    exact ⟨_, congrArg Prod.fst hread⟩

-- Only the last block may lie beyond the limit, and does unless the limit is the longest text of
-- its body.
theorem within_limit_iff (d : Decryptor) :
    (∀ c plain, (d.decryptRequest c).1 = .ok plain → plain.length ≤ d.limit) ↔
      (d.stage = .fresh → d.limit % 16 = 15) := by
  constructor
  · intro hall hfresh
    let longest := List.replicate (16 * (d.limit / 16) + 15) (0 : UInt8)
    have hlength : longest.length = 16 * (d.limit / 16) + 15 := List.length_replicate
    obtain ⟨c, hread⟩ := (d.exists_decryptRequest_iff longest).mpr ⟨hfresh, by omega⟩
    have hwithin := hall c longest hread
    omega
  · intro hlimit c plain hread
    obtain ⟨hfresh, hsize⟩ := (d.exists_decryptRequest_iff plain).mp ⟨c, hread⟩
    have hlast := hlimit hfresh
    omega

theorem not_refusedForSize_readRequest (d : Decryptor) (ephemeralKey : Bytes) (c : Cryptogram) :
    ¬RefusedForSize (d.readRequest ephemeralKey c) := by
  rintro ⟨size, limit, h⟩
  rcases bind_eq_error.mp h with hkey | ⟨peer, -, h⟩
  · cases hread : P256.PublicKey.ofBytes ephemeralKey with
    | ok peer =>
        rw [hread] at hkey
        cases hkey
    | error fault =>
        obtain ⟨cause, rfl⟩ := P256.PublicKey.exists_of_ofBytes_error hread
        rw [hread] at hkey
        cases hkey
  · rcases bind_eq_error.mp h with hopened | ⟨plain, -, h⟩
    · exact Keys.not_refusedForSize_openMessage _ _ _ ⟨size, limit, hopened⟩
    · cases h

theorem not_refusedForSize_decryptRequest (hsize : c.body.length - 16 ≤ d.limit) :
    ¬RefusedForSize (d.decryptRequest c).1 := by
  rintro ⟨size, limit, h⟩
  unfold decryptRequest at h
  rw [checkSize_eq_ok.mpr hsize] at h
  split at h
  next hfresh =>
    cases h
    exact not_refusedForSize_checkFresh _ _ ⟨size, limit, hfresh⟩
  next => cases h
  next ephemeralKey _ _ =>
    dsimp only at h
    split at h
    next hread =>
      cases h
      exact d.not_refusedForSize_readRequest ephemeralKey c ⟨size, limit, hread⟩
    next => cases h

end Decryptor

structure Limited (e : Encryptor) (d : Decryptor) : Prop where
  requestSealed : ∀ ephemeral nonce plain,
    (∃ c, (e.encryptRequest ephemeral nonce plain).1 = .ok c) ↔
      e.stage = .fresh ∧ plain.length ≤ e.limit
  responseSealed : ∀ nonce plain, (∃ c, (d.encryptResponse nonce plain).1 = .ok c) ↔
    (∃ keys, d.stage = .decrypted keys) ∧ plain.length ≤ d.limit
  requestRead : ∀ plain, (∃ c, (d.decryptRequest c).1 = .ok plain) ↔
    d.stage = .fresh ∧ plain.length / 16 ≤ d.limit / 16
  requestWithin : (∀ c plain, (d.decryptRequest c).1 = .ok plain → plain.length ≤ d.limit) ↔
    (d.stage = .fresh → d.limit % 16 = 15)
  responseRead : ∀ plain, (∃ c, (e.decryptResponse c).1 = .ok plain) ↔
    ∃ keys, e.stage = .encrypted keys
  notRefused : ∀ (keys : Keys) info c plain, keys.openMessage info c = .ok plain →
    plain.length ≤ d.limit →
    ¬RefusedForSize (d.decryptRequest c).1 ∧ ¬RefusedForSize (e.decryptResponse c).1

theorem limit_kept_up_to_a_block (e : Encryptor) (d : Decryptor) : Limited e d where
  requestSealed := e.exists_encryptRequest_iff
  responseSealed := d.exists_encryptResponse_iff
  requestRead := d.exists_decryptRequest_iff
  requestWithin := d.within_limit_iff
  responseRead := e.exists_decryptResponse_iff
  notRefused keys info c plain hopened hsize := by
    have hbody := keys.length_of_openMessage hopened
    exact ⟨d.not_refusedForSize_decryptRequest (by omega), e.not_refusedForSize_decryptResponse c⟩

section Example

def longText : Bytes :=
  List.replicate 31 7

theorem texts_beyond_limit_read :
    (sampleServer .fresh).limit < longText.length ∧
      ((sampleServer .fresh).decryptRequest (sampleRequest (sampleMessage longText))).1 =
        .ok longText ∧
      (sampleClient (.encrypted sampleKeys)).limit < longText.length ∧
      ((sampleClient (.encrypted sampleKeys)).decryptResponse (sampleMessage longText)).1 =
        .ok longText := by
  have hrequest := sampleServer_decryptRequest (show longText.length / 16 ≤ 1 by decide)
  have hresponse := Encryptor.decryptResponse_sealMessage
    (e := sampleClient (.encrypted sampleKeys)) rfl (Fixed.zero 16) longText
  exact ⟨by decide, congrArg Prod.fst hrequest, by decide, hresponse⟩

end Example

end DeviceAuth.Envelope
