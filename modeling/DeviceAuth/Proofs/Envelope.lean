import DeviceAuth.Envelope
import DeviceAuth.Proofs.Cbc
import DeviceAuth.Proofs.Except
import DeviceAuth.Proofs.P256.Key

namespace DeviceAuth.Envelope

namespace Keys

theorem openMessage_sealMessage (k : Keys) (nonce : Fixed 16) (info plain : Bytes)
    (ephemeralKey : Option Bytes) :
    k.openMessage info { k.sealMessage nonce info plain with ephemeralKey } = .ok plain := by
  unfold openMessage sealMessage
  dsimp only
  rw [if_neg (by simp [nonce.length_eq]), if_neg (by simp), Cbc.decryptPadded_encryptPadded]

theorem length_sealMessage (k : Keys) (nonce : Fixed 16) (info plain : Bytes) :
    (k.sealMessage nonce info plain).body.length = 16 * (plain.length / 16 + 1) :=
  Cbc.length_encryptPadded _ _ plain

end Keys

theorem checkSize_eq_ok {limit size : Nat} : checkSize limit size = .ok () ↔ size ≤ limit := by
  simp [checkSize]

variable {e : Encryptor} {d : Decryptor} {keys : Keys} {plain : Bytes}

theorem Encryptor.encryptRequest_eq (hfresh : e.stage = .fresh) (hsize : plain.length ≤ e.limit)
    (ephemeral : P256.PrivateKey) (nonce : Fixed 16) :
    e.encryptRequest ephemeral nonce plain =
      (.ok { (e.requestKeys ephemeral).sealMessage nonce e.info2 plain with
          ephemeralKey := some ephemeral.publicKey.compressed },
        { e with stage := .encrypted (e.requestKeys ephemeral) }) := by
  rw [encryptRequest, hfresh, checkSize_eq_ok.mpr hsize]
  rfl

theorem Encryptor.encryptRequest_eq_ok {ephemeral : P256.PrivateKey} {nonce : Fixed 16}
    {c : Cryptogram} {e' : Encryptor} :
    e.encryptRequest ephemeral nonce plain = (.ok c, e') ↔
      e.stage = .fresh ∧ plain.length ≤ e.limit ∧
      c = { (e.requestKeys ephemeral).sealMessage nonce e.info2 plain with
        ephemeralKey := some ephemeral.publicKey.compressed } ∧
      e' = { e with stage := .encrypted (e.requestKeys ephemeral) } := by
  constructor
  · intro h
    have hfresh : e.stage = .fresh := by
      cases hstage : e.stage <;> simp [encryptRequest, hstage, checkFresh] at h ⊢
    have hsize : plain.length ≤ e.limit := by
      by_contra hlong
      simp [encryptRequest, hfresh, checkFresh, checkSize, hlong] at h
    rw [encryptRequest_eq hfresh hsize] at h
    cases h
    exact ⟨hfresh, hsize, rfl, rfl⟩
  · rintro ⟨hfresh, hsize, rfl, rfl⟩
    exact encryptRequest_eq hfresh hsize ephemeral nonce

theorem Decryptor.readRequest_eq (hpeer : e.peer = d.privateKey.publicKey)
    (hinfo : e.info1 = d.info1) (ephemeral : P256.PrivateKey) (c : Cryptogram) :
    d.readRequest ephemeral.publicKey.compressed c =
      ((e.requestKeys ephemeral).openMessage d.info2 c).map fun plain =>
        (e.requestKeys ephemeral, plain) := by
  have hkeys : Keys.derive (d.privateKey.agree ephemeral.publicKey) d.info1
      ephemeral.publicKey.compressed = e.requestKeys ephemeral := by
    rw [Encryptor.requestKeys, P256.PrivateKey.agree_publicKey, hpeer, hinfo]
  rw [readRequest, P256.PublicKey.ofBytes_compressed, ← hkeys]
  rfl

theorem Decryptor.decryptRequest_eq (hpeer : e.peer = d.privateKey.publicKey)
    (hfirst : e.info1 = d.info1) (hsecond : e.info2 = d.info2) (hfresh : d.stage = .fresh)
    (hsize : plain.length / 16 ≤ d.limit / 16) (ephemeral : P256.PrivateKey) (nonce : Fixed 16) :
    d.decryptRequest { (e.requestKeys ephemeral).sealMessage nonce e.info2 plain with
        ephemeralKey := some ephemeral.publicKey.compressed } =
      (.ok plain, { d with stage := .decrypted (e.requestKeys ephemeral) }) := by
  have hbody : ((e.requestKeys ephemeral).sealMessage nonce e.info2 plain).body.length - 16 ≤
      d.limit := by
    rw [Keys.length_sealMessage]
    omega
  rw [decryptRequest, hfresh]
  dsimp only [checkFresh]
  rw [checkSize_eq_ok.mpr hbody, readRequest_eq hpeer hfirst, ← hsecond, Keys.openMessage_sealMessage]
  rfl

theorem decryptRequest_encryptRequest (hpeer : e.peer = d.privateKey.publicKey)
    (hfirst : e.info1 = d.info1) (hsecond : e.info2 = d.info2) (he : e.stage = .fresh)
    (hd : d.stage = .fresh) (hclient : plain.length ≤ e.limit) (hserver : plain.length ≤ d.limit)
    (ephemeral : P256.PrivateKey) (nonce : Fixed 16) :
    ∃ c keys, e.encryptRequest ephemeral nonce plain = (.ok c, { e with stage := .encrypted keys }) ∧
      d.decryptRequest c = (.ok plain, { d with stage := .decrypted keys }) :=
  ⟨_, _, Encryptor.encryptRequest_eq he hclient ephemeral nonce,
    Decryptor.decryptRequest_eq hpeer hfirst hsecond hd (Nat.div_le_div_right hserver) ephemeral
      nonce⟩

theorem decryptResponse_encryptResponse (hinfo : e.info2 = d.info2)
    (he : e.stage = .encrypted keys) (hd : d.stage = .decrypted keys)
    (hsize : plain.length ≤ d.limit) (nonce : Fixed 16) :
    ∃ c, d.encryptResponse nonce plain = (.ok c, { d with stage := .consumed }) ∧
      e.decryptResponse c = (.ok plain, { e with stage := .consumed }) := by
  refine ⟨keys.sealMessage nonce d.info2 plain, ?_, ?_⟩
  · rw [Decryptor.encryptResponse, checkSize_eq_ok.mpr hsize, hd]
  · have hopened := Keys.openMessage_sealMessage keys nonce d.info2 plain none
    rw [Encryptor.decryptResponse, he, hinfo]
    exact congrArg (·, _) hopened

end DeviceAuth.Envelope
