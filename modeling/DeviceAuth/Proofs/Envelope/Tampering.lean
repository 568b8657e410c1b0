import DeviceAuth.Proofs.Envelope.RoundTrip

namespace DeviceAuth.Envelope

variable {e e' : Encryptor} {d d' : Decryptor} {keys : Keys} {info plain : Bytes}
  {c c' : Cryptogram} {sent received : Fixed 16} {ephemeral : P256.PrivateKey}
  {answer : Except Failure Bytes}

namespace Keys

-- The text behind `data` when it is sent with one nonce and read with another.
def renonced (k : Keys) (sent received : Fixed 16) (data : Bytes) : Bytes :=
  Cbc.remasked (k.initialVector sent.bytes) (k.initialVector received.bytes) data

theorem mac_sealMessage (k : Keys) (nonce : Fixed 16) (info plain : Bytes) :
    (k.sealMessage nonce info plain).mac =
      (k.mac (k.sealMessage nonce info plain).body info).bytes :=
  rfl

theorem openMessage_of_nonce_length (h : c.nonce.length ≠ 16) :
    keys.openMessage info c = .error (.format .envelopeNonce) :=
  if_pos h

theorem openMessage_of_mac_ne (h : (keys.mac c.body info).bytes ≠ c.mac) :
    ∃ why, keys.openMessage info c = .error why := by
  by_cases hnonce : c.nonce.length = 16
  · exact ⟨.mac, by rw [openMessage, if_neg (not_not.mpr hnonce), if_pos h]⟩
  · exact ⟨_, openMessage_of_nonce_length hnonce⟩

theorem openMessage_renonced
    (hbody : c.body = (keys.sealMessage sent info plain).body)
    (hmac : c.mac = (keys.sealMessage sent info plain).mac) (hnonce : c.nonce = received.bytes) :
    keys.openMessage info c =
      match Cbc.unpad? (keys.renonced sent received (Cbc.pad plain)) with
      | some text => .ok text
      | none => .error (.crypto .envelopeBody) := by
  rw [openMessage, hnonce, hbody, hmac, sealMessage]
  dsimp only
  rw [if_neg (by simp [received.length_eq]), if_neg (by simp),
    Cbc.decryptPadded_encryptPadded_other, renonced]
  cases Cbc.unpad? _ <;> rfl

theorem openMessage_renonced_of_long
    (hbody : c.body = (keys.sealMessage sent info plain).body)
    (hmac : c.mac = (keys.sealMessage sent info plain).mac) (hnonce : c.nonce = received.bytes)
    (hlong : 16 ≤ plain.length) :
    keys.openMessage info c = .ok (keys.renonced sent received plain) := by
  rw [openMessage_renonced hbody hmac hnonce, renonced, Cbc.remasked_pad _ _ hlong, Cbc.unpad?_pad]
  rfl

end Keys

structure Altered (keys : Keys) (info plain : Bytes) (sent : Fixed 16) (c c' : Cryptogram)
    (answer : Except Failure Bytes) : Prop where
  otherBody : c'.body ≠ c.body → keys.mac c'.body info ≠ keys.mac c.body info →
    ∃ why, answer = .error why
  shapeless : c'.nonce.length ≠ 16 → ∃ why, answer = .error why
  otherNonce : ∀ received : Fixed 16, c'.body = c.body → c'.nonce = received.bytes →
    answer = match Cbc.unpad? (keys.renonced sent received (Cbc.pad plain)) with
      | some text => .ok text
      | none => .error (.crypto .envelopeBody)
  longText : ∀ received : Fixed 16, c'.body = c.body → c'.nonce = received.bytes →
    16 ≤ plain.length → answer = .ok (keys.renonced sent received plain)

theorem Keys.altered (hbody : c.body = (keys.sealMessage sent info plain).body)
    (hmac : c.mac = (keys.sealMessage sent info plain).mac) (hsame : c'.mac = c.mac) :
    Altered keys info plain sent c c' (keys.openMessage info c') where
  otherBody _ hdiffers := by
    have hcode : (keys.mac c.body info).bytes = c'.mac := by
      rw [hsame, hmac, mac_sealMessage, hbody]
    exact openMessage_of_mac_ne fun h => hdiffers (Fixed.ext_bytes (h.trans hcode.symm))
  shapeless h := ⟨_, openMessage_of_nonce_length h⟩
  otherNonce received hkept hnonce :=
    openMessage_renonced (hkept.trans hbody) (hsame.trans hmac) hnonce
  longText received hkept hnonce hlong :=
    openMessage_renonced_of_long (hkept.trans hbody) (hsame.trans hmac) hnonce hlong

structure Matching (e : Encryptor) (d : Decryptor) : Prop where
  peer : e.peer = d.privateKey.publicKey
  info1 : e.info1 = d.info1
  info2 : e.info2 = d.info2

theorem Decryptor.fresh_of_decryptRequest (h : (d.decryptRequest c).1 = .ok plain) :
    d.stage = .fresh ∧ c.body.length - 16 ≤ d.limit := by
  unfold decryptRequest at h
  cases hstage : d.stage with
  | fresh =>
      refine ⟨rfl, ?_⟩
      by_contra hlong
      cases hkey : c.ephemeralKey <;>
        simp [hstage, hkey, checkFresh, checkSize, hlong] at h
  | encrypted _ | decrypted _ | consumed => simp [hstage, checkFresh] at h

theorem Decryptor.decryptRequest_answer (hmatch : Matching e d) (hfresh : d.stage = .fresh)
    (hkey : c.ephemeralKey = some ephemeral.publicKey.compressed) :
    (d.decryptRequest c).1 = (checkSize d.limit (c.body.length - 16)).bind fun _ =>
      (e.requestKeys ephemeral).openMessage e.info2 c := by
  rw [decryptRequest, hfresh, hkey]
  dsimp only [checkFresh]
  cases checkSize d.limit (c.body.length - 16) with
  | error why => rfl
  | ok =>
      dsimp only
      rw [readRequest_eq hmatch.peer hmatch.info1, hmatch.info2]
      cases (e.requestKeys ephemeral).openMessage d.info2 c <;> rfl

theorem Matching.request_altered (hmatch : Matching e d)
    (hsent : e.encryptRequest ephemeral sent plain = (.ok c, e'))
    (haccepts : (d.decryptRequest c).1 = .ok plain) (hkey : c'.ephemeralKey = c.ephemeralKey)
    (hmac : c'.mac = c.mac) :
    Altered (e.requestKeys ephemeral) e.info2 plain sent c c' (d.decryptRequest c').1 := by
  obtain ⟨hfresh, hlimit⟩ := Decryptor.fresh_of_decryptRequest haccepts
  obtain ⟨-, -, hc, -⟩ := Encryptor.encryptRequest_eq_ok.mp hsent
  have hephemeral : c'.ephemeralKey = some ephemeral.publicKey.compressed := by rw [hkey, hc]
  rw [Decryptor.decryptRequest_answer hmatch hfresh hephemeral]
  by_cases hsize : c'.body.length - 16 ≤ d.limit
  · rw [checkSize_eq_ok.mpr hsize]
    exact Keys.altered (by rw [hc]) (by rw [hc]) hmac
  · have hother : c'.body ≠ c.body := fun hkept => hsize (hkept ▸ hlimit)
    rw [checkSize, if_neg hsize]
    exact ⟨fun _ _ => ⟨_, rfl⟩, fun _ => ⟨_, rfl⟩, fun _ hkept => absurd hkept hother,
      fun _ hkept => absurd hkept hother⟩

theorem response_altered (hinfo : e.info2 = d.info2) (he : e.stage = .encrypted keys)
    (hd : d.stage = .decrypted keys) (hsent : d.encryptResponse sent plain = (.ok c, d'))
    (hmac : c'.mac = c.mac) :
    Altered keys d.info2 plain sent c c' (e.decryptResponse c').1 := by
  have hc : c = keys.sealMessage sent d.info2 plain := by
    cases hsize : checkSize d.limit plain.length <;>
      simp [Decryptor.encryptResponse, hsize, hd] at hsent
    exact hsent.1.symm
  rw [Encryptor.decryptResponse, he, hinfo]
  exact Keys.altered (by rw [hc]) (by rw [hc]) hmac

theorem tampering_detected_up_to_nonce (hmatch : Matching e d) :
    (∀ ephemeral sent plain c e', e.encryptRequest ephemeral sent plain = (.ok c, e') →
      (d.decryptRequest c).1 = .ok plain → ∀ c', c'.ephemeralKey = c.ephemeralKey →
      c'.mac = c.mac →
      Altered (e.requestKeys ephemeral) e.info2 plain sent c c' (d.decryptRequest c').1) ∧
    ∀ keys, e.stage = .encrypted keys → d.stage = .decrypted keys →
      ∀ sent plain c d', d.encryptResponse sent plain = (.ok c, d') → ∀ c', c'.mac = c.mac →
      Altered keys d.info2 plain sent c c' (e.decryptResponse c').1 :=
  ⟨fun _ _ _ _ _ hsent haccepts _ hkey hmac => hmatch.request_altered hsent haccepts hkey hmac,
    fun _ he hd _ _ _ _ hsent _ hmac => response_altered hmatch.info2 he hd hsent hmac⟩

section Example

def sampleClient (stage : Stage) : Encryptor :=
  { peer := leastKey.publicKey, info1 := [1], info2 := [], limit := 16, stage }

def sampleServer (stage : Stage) : Decryptor :=
  { privateKey := leastKey, info1 := [1], info2 := [], limit := 16, stage }

def sampleKeys : Keys :=
  (sampleClient .fresh).requestKeys leastKey

def sampleMessage (plain : Bytes) : Cryptogram :=
  sampleKeys.sealMessage (Fixed.zero 16) [] plain

def sampleRequest (c : Cryptogram) : Cryptogram :=
  { c with ephemeralKey := some leastKey.publicKey.compressed }

-- By `rfl` the public key would be multiplied out.
theorem matching_sample (x y : Stage) : Matching (sampleClient x) (sampleServer y) where
  peer := by simp only [sampleClient, sampleServer]
  info1 := rfl
  info2 := rfl

theorem sampleClient_encryptRequest (h : plain.length ≤ 16) :
    (sampleClient .fresh).encryptRequest leastKey (Fixed.zero 16) plain =
      (.ok (sampleRequest (sampleMessage plain)), sampleClient (.encrypted sampleKeys)) :=
  Encryptor.encryptRequest_eq_ok.mpr ⟨rfl, h, rfl, by simp only [sampleClient, sampleKeys]⟩

theorem sampleServer_decryptRequest (h : plain.length / 16 ≤ 1) :
    (sampleServer .fresh).decryptRequest (sampleRequest (sampleMessage plain)) =
      (.ok plain, sampleServer (.decrypted sampleKeys)) :=
  Decryptor.decryptRequest_eq (matching_sample .fresh .fresh).peer rfl rfl rfl h leastKey
    (Fixed.zero 16)

theorem missing_body_refused :
    (∃ why, ((sampleServer .fresh).decryptRequest
      (sampleRequest { sampleMessage [] with body := [] })).1 = .error why) ∧
    ∃ why, ((sampleClient (.encrypted sampleKeys)).decryptResponse
      { sampleMessage [] with body := [] }).1 = .error why := by
  have hlength : (sampleMessage []).body.length = 16 :=
    Keys.length_sealMessage sampleKeys (Fixed.zero 16) [] []
  have hbody : [] ≠ (sampleMessage []).body := by
    intro h
    simp [← h] at hlength
  have hcode : sampleKeys.mac [] [] ≠ sampleKeys.mac (sampleMessage []).body [] := by
    decide +kernel
  have hrequest := (tampering_detected_up_to_nonce (matching_sample .fresh .fresh)).1 leastKey
    (Fixed.zero 16) [] _ _ (sampleClient_encryptRequest (by decide))
    (congrArg Prod.fst (sampleServer_decryptRequest (by decide)))
    (sampleRequest { sampleMessage [] with body := [] }) rfl rfl
  have hresponse := (tampering_detected_up_to_nonce
    (matching_sample (.encrypted sampleKeys) (.decrypted sampleKeys))).2 sampleKeys rfl rfl
    (Fixed.zero 16) [] (sampleMessage []) _ rfl { sampleMessage [] with body := [] } rfl
  exact ⟨hrequest.otherBody hbody hcode, hresponse.otherBody hbody hcode⟩

def sampleText : Bytes :=
  List.replicate 16 7

def otherNonce : Fixed 16 :=
  Fixed.bigEndian 16 1

theorem other_nonce_unnoticed :
    (sampleClient .fresh).encryptRequest leastKey (Fixed.zero 16) sampleText =
        (.ok (sampleRequest (sampleMessage sampleText)), sampleClient (.encrypted sampleKeys)) ∧
      hmac sampleKeys.vector.bytes otherNonce.bytes ≠
        hmac sampleKeys.vector.bytes (sampleMessage sampleText).nonce ∧
      ∃ text, text ≠ sampleText ∧ ((sampleServer .fresh).decryptRequest
        (sampleRequest { sampleMessage sampleText with nonce := otherNonce.bytes })).1 =
          .ok text := by
  have hsent := sampleClient_encryptRequest (show sampleText.length ≤ 16 by decide)
  have hread : Altered sampleKeys [] sampleText (Fixed.zero 16)
      (sampleRequest (sampleMessage sampleText))
      (sampleRequest { sampleMessage sampleText with nonce := otherNonce.bytes })
      ((sampleServer .fresh).decryptRequest
        (sampleRequest { sampleMessage sampleText with nonce := otherNonce.bytes })).1 :=
    (matching_sample .fresh .fresh).request_altered hsent
      (congrArg Prod.fst (sampleServer_decryptRequest (by decide))) rfl rfl
  refine ⟨hsent, by decide +kernel, sampleKeys.renonced (Fixed.zero 16) otherNonce sampleText,
    by decide +kernel, ?_⟩
  exact hread.longText otherNonce rfl rfl (by decide)

end Example

end DeviceAuth.Envelope
