import DeviceAuth.Proofs.Envelope

namespace DeviceAuth.Envelope

variable {info1 info2 : Bytes} {limit : Nat}

theorem Encryptor.ofBytes_eq_ok {b : Bytes} {peer : P256.PublicKey}
    (h : P256.PublicKey.ofBytes b = .ok peer) :
    ofBytes b info1 info2 limit = .ok (new peer info1 info2 limit) :=
  bind_eq_ok.mpr ⟨peer, lift_eq_ok.mpr h, rfl⟩

theorem Decryptor.ofBytes_bytes (k : P256.PrivateKey) :
    ofBytes k.bytes info1 info2 limit = .ok (new k info1 info2 limit) :=
  bind_eq_ok.mpr ⟨k, lift_eq_ok.mpr k.ofBytes_bytes, rfl⟩

structure Exchange where
  ephemeral : P256.PrivateKey
  requestNonce : Fixed 16
  responseNonce : Fixed 16
  request : Bytes
  response : Bytes

def Exchange.Delivers (x : Exchange) (e : Encryptor) (d : Decryptor) : Prop :=
  ∃ sent answer e₁ e₂ d₁ d₂,
    e.encryptRequest x.ephemeral x.requestNonce x.request = (.ok sent, e₁) ∧
    sent.body.length = 16 * (x.request.length / 16 + 1) ∧
    d.decryptRequest sent = (.ok x.request, d₁) ∧
    d₁.encryptResponse x.responseNonce x.response = (.ok answer, d₂) ∧
    e₁.decryptResponse answer = (.ok x.response, e₂) ∧
    e₂.state = .consumed ∧ d₂.state = .consumed

variable {x : Exchange}

theorem Exchange.delivers {e : Encryptor} {d : Decryptor} (hagree : e.peer = d.privateKey.publicKey)
    (hfirst : e.info1 = d.info1) (hsecond : e.info2 = d.info2) (he : e.stage = .fresh)
    (hd : d.stage = .fresh) (hclient : x.request.length ≤ e.limit)
    (hserver : x.request.length ≤ d.limit) (hanswer : x.response.length ≤ d.limit) :
    x.Delivers e d := by
  obtain ⟨sent, keys, hsent, hread⟩ := decryptRequest_encryptRequest hagree hfirst hsecond he hd
    hclient hserver x.ephemeral x.requestNonce
  obtain ⟨answer, hanswered, hreturned⟩ := decryptResponse_encryptResponse
    (e := { e with stage := .encrypted keys }) (d := { d with stage := .decrypted keys })
    hsecond rfl rfl hanswer x.responseNonce
  have hbody : sent.body.length = 16 * (x.request.length / 16 + 1) := by
    obtain ⟨-, -, hc, -⟩ := Encryptor.encryptRequest_eq_ok.mp hsent
    rw [hc]
    exact Keys.length_sealMessage (e.requestKeys x.ephemeral) x.requestNonce e.info2 x.request
  exact ⟨sent, answer, _, _, _, _, hsent, hbody, hread, hanswered, hreturned, rfl, rfl⟩

theorem exchange_delivers (k : P256.PrivateKey) {peer : Bytes}
    (hpeer : peer = k.publicKey.compressed ∨ peer = k.publicKey.uncompressed)
    (info1 info2 : Bytes) (hrequest : x.request.length ≤ limit)
    (hresponse : x.response.length ≤ limit) :
    ∃ e d, Encryptor.ofBytes peer info1 info2 limit = .ok e ∧
      Decryptor.ofBytes k.bytes info1 info2 limit = .ok d ∧ x.Delivers e d := by
  have hkey : P256.PublicKey.ofBytes peer = .ok k.publicKey := by
    rcases hpeer with rfl | rfl
    · exact k.publicKey.ofBytes_compressed
    · exact k.publicKey.ofBytes_uncompressed
  refine ⟨_, _, Encryptor.ofBytes_eq_ok hkey, Decryptor.ofBytes_bytes k, ?_⟩
  apply Exchange.delivers <;> simp_all [Encryptor.new, Decryptor.new]

section Example

def leastKey : P256.PrivateKey :=
  ⟨1, Nat.one_pos, P256.one_lt_order⟩

def sampleExchange : Exchange where
  ephemeral := leastKey
  requestNonce := Fixed.zero 16
  responseNonce := Fixed.zero 16
  request := []
  response := List.replicate 16 7

theorem sample_delivered :
    sampleExchange.request.length ≤ 16 ∧ sampleExchange.response.length ≤ 16 ∧
      ∃ e d, Encryptor.ofBytes leastKey.publicKey.uncompressed [1] [] 16 = .ok e ∧
        Decryptor.ofBytes leastKey.bytes [1] [] 16 = .ok d ∧ sampleExchange.Delivers e d :=
  ⟨by decide, by decide, exchange_delivers leastKey (.inr rfl) [1] [] (by decide) (by decide)⟩

end Example

end DeviceAuth.Envelope
