import DeviceAuth.Proofs.Envelope
import DeviceAuth.Proofs.FactorSignature
import DeviceAuth.Proofs.P256.Signature
import DeviceAuth.Proofs.Session.Validation

namespace DeviceAuth

namespace FactorSignature

theorem hold_chosen (keys : DerivedKeys) (factors : FactorSet) :
    (ProtectedKeys.chosen keys factors).Hold factors := by
  intro f hf
  cases f <;> simp_all [FactorSet.contains, FactorKeys.get, ProtectedKeys.chosen]

theorem exists_compute (keys : DerivedKeys) {factors : FactorSet}
    (hallowed : factors.allowed = true) (counter : Counter) (data : Bytes) :
    ∃ text, compute factors (ProtectedKeys.chosen keys factors) counter data = .ok text :=
  exists_compute_iff.mpr ⟨hallowed, hold_chosen keys factors⟩

end FactorSignature

namespace Session

open Activation

section Run

variable {σ α : Type} {host : Host σ} {s t : Session} {w : σ} {a : α}

theorem Plan.session_of_write {store : StoreActions σ} {key : String} {before after : Session}
    {change : Change} {P : Session → Prop} (hbefore : P before) (hafter : P after) :
    P ((Plan.write before change after a).perform store key w).session := by
  rw [Plan.perform]
  split
  · exact hafter
  · exact hbefore

-- No other session has changed the status since this one read it.
def Undisturbed (host : Host σ) (s : Session) (w : σ) : Prop :=
  ∀ lock, host.lock = some lock → (lock.acquire w).1 = false ∧ s.stale = false

theorem exclusive_undisturbed (plan : Session → Plan α) (hquiet : Undisturbed host s w) :
    ∃ w', (exclusive host plan s w).answer =
        ((plan s).perform host.store s.storageName w').answer ∧
      (exclusive host plan s w).session =
        ((plan s).perform host.store s.storageName w').session := by
  unfold exclusive
  cases hl : host.lock with
  | none => exact ⟨w, rfl, rfl⟩
  | some lock =>
      obtain ⟨hsame, hfresh⟩ := hquiet lock hl
      have henter : s.enter host.store lock w = ⟨.ok (), s, false, (lock.acquire w).2⟩ := by
        simp only [enter, hsame, hfresh]
        rfl
      dsimp only
      rw [henter]
      exact ⟨(lock.acquire w).2, rfl, rfl⟩

theorem exclusive_of_keep {plan : Session → Plan α} (hquiet : Undisturbed host s w)
    (h : plan s = .keep t a) :
    (exclusive host plan s w).answer = .ok a ∧ (exclusive host plan s w).session = t := by
  obtain ⟨w', hanswer, hsession⟩ := exclusive_undisturbed plan hquiet
  rw [hanswer, hsession, h]
  exact ⟨rfl, rfl⟩

theorem run_undisturbed {op : Operation} (hquiet : Undisturbed host s w)
    (haccess : op.access ≠ .overwriting) :
    (op.refusal? ≠ none ∧ (s.run host op w).session = s) ∨
    ∃ w', (s.run host op w).session = ((op.plan s).perform host.store s.storageName w').session := by
  unfold run
  split
  next hrefusal => exact .inl ⟨by simp [hrefusal], rfl⟩
  next =>
    split
    next =>
      obtain ⟨w', -, hsession⟩ := exclusive_undisturbed op.plan hquiet
      exact .inr ⟨w', hsession⟩
    next hover => exact absurd hover haccess
    next => exact .inr ⟨w, rfl⟩

theorem run_of_keep {op : Operation} {answer : Answer} (hquiet : Undisturbed host s w)
    (hrefusal : op.refusal? = none) (haccess : op.access = .exclusive)
    (h : op.plan s = .keep t answer) :
    (s.run host op w).answer = .ok answer ∧ (s.run host op w).session = t := by
  simp only [run, hrefusal, haccess]
  exact exclusive_of_keep hquiet h

def StoreActions.Accepts (store : StoreActions σ) : Prop :=
  ∀ name blob w, (store.save name blob w).1 = .ok ()

theorem run_of_refuse {op : Operation} {why : Failure} (hquiet : Undisturbed host s w)
    (hrefusal : op.refusal? = none) (haccess : op.access = .exclusive)
    (h : op.plan s = .refuse t why) :
    (s.run host op w).answer = .error why ∧ (s.run host op w).session = t := by
  obtain ⟨w', hanswer, hsession⟩ := exclusive_undisturbed op.plan hquiet
  simp only [run, hrefusal, haccess]
  rw [hanswer, hsession, h]
  exact ⟨rfl, rfl⟩

theorem run_of_save {op : Operation} {before : Session} {status : StoredStatus} {answer : Answer}
    (hquiet : Undisturbed host s w) (haccepts : host.store.Accepts)
    (hrefusal : op.refusal? = none) (haccess : op.access = .exclusive)
    (h : op.plan s = .write before (.save status) t answer) :
    (s.run host op w).answer = .ok answer ∧ (s.run host op w).session = t := by
  obtain ⟨w', hanswer, hsession⟩ := exclusive_undisturbed op.plan hquiet
  have hsaved := haccepts s.storageName status.encode w'
  simp only [run, hrefusal, haccess]
  rw [hanswer, hsession, h, Plan.perform, Change.apply]
  split
  next => exact ⟨rfl, rfl⟩
  next why _ hrefused =>
    rw [hrefused] at hsaved
    cases hsaved

theorem run_of_commit {op : Operation} {r : Record} {answer : Answer}
    (hquiet : Undisturbed host s w) (haccepts : host.store.Accepts)
    (hrefusal : op.refusal? = none) (haccess : op.access = .exclusive)
    (h : op.plan s = s.commit r answer) :
    (s.run host op w).answer = .ok answer ∧
      (s.run host op w).session = { s with phase := .active r } :=
  run_of_save hquiet haccepts hrefusal haccess h

end Run

theorem derive_bytes (secret : Key) :
    DerivedKeys.derive secret.bytes = .ok (.ofSecret secret.bytes) := by
  have hlength := secret.length_eq
  rw [DerivedKeys.derive, if_neg]
  intro hempty
  rw [List.isEmpty_iff.mp hempty] at hlength
  cases hlength

structure Grant where
  key : P256.PrivateKey
  id : String
  seed : Option Key
  recovery : Option Recovery
  named : id ≠ ""
  short : (Text.utf8 id).length < 2 ^ 32
  issued : ∀ r, recovery = some r → r.check = .ok ()

namespace Grant

variable (g : Grant)

def response (signature : Bytes) : Response where
  activationId := g.id
  serverKey := g.key.publicKey.compressed
  counterSeed := g.seed
  signature := signature
  recovery := g.recovery

def signedData : Bytes :=
  (g.response []).signedData

def counter : Counter :=
  match g.seed with
  | some seed => .chain seed 0
  | none => .numeric 0

def issuedRecovery : Option Recovery :=
  g.recovery.filter fun r => !r.isEmpty

def derived (device : P256.PrivateKey) : DerivedKeys :=
  .ofSecret (g.key.agree device.publicKey).bytes

theorem derive_secret (device : P256.PrivateKey) :
    DerivedKeys.derive (g.key.agree device.publicKey).bytes = .ok (g.derived device) :=
  derive_bytes _

theorem decode_response {signature : Bytes} (h : Framing.Fits signature) :
    Response.decode (g.response signature).encode = .ok (g.response signature) := by
  refine Response.decode_encode ?_ g.named
  have hkey : Framing.Fits g.key.publicKey.compressed := by
    rw [Framing.Fits, length_compressed]
    decide
  have hseed : Framing.Fits (g.response signature).seedBytes := by
    rw [Response.seedBytes_eq, Framing.Fits, response]
    cases g.seed with
    | none => exact Nat.two_pow_pos 32
    | some seed =>
        rw [Option.map_some, Option.getD_some, seed.length_eq]
        decide
  have hrecovery : ∀ c ∈ (g.response signature).recoveryParts, Framing.Fits c := by
    have hissued := g.issued
    unfold Response.recoveryParts response
    dsimp only
    cases hr : g.recovery with
    | none => simp
    | some r =>
        obtain ⟨hc, hp⟩ := Recovery.fits_of_check (hissued r hr)
        simp [hc, hp]
  simp only [Response.parts, Response.signedParts, List.mem_append, List.mem_cons,
    List.not_mem_nil, or_false]
  rintro c ((((rfl | rfl | rfl) | rfl)) | hc)
  · exact g.short
  · exact hkey
  · exact hseed
  · exact h
  · exact hrecovery c hc

theorem length_recoveryParts_le (signature : Bytes) :
    (Framing.join (g.response signature).recoveryParts).length ≤ 43 := by
  have hissued := g.issued
  unfold Response.recoveryParts response
  dsimp only
  cases hr : g.recovery with
  | none => simp
  | some r =>
      obtain ⟨⟨hcode, hc⟩, hpuk, hp⟩ := Recovery.short_of_check (hissued r hr)
      have hcodeLength := Text.length_utf8_ofList hcode
      have hpukLength := Text.length_utf8_ofList hpuk
      rw [String.ofList_toList] at hcodeLength hpukLength
      simp only [Framing.join_cons, Framing.join_nil, List.length_append, Bytes.length_bigEndian,
        List.length_nil, hcodeLength, hpukLength]
      omega

theorem length_encode_le {signature : Bytes} (h : signature.length ≤ 74) :
    (g.response signature).encode.length ≤ (Text.utf8 g.id).length + 198 := by
  have hrecovery := g.length_recoveryParts_le signature
  have hseed : (g.response signature).seedBytes.length ≤ 32 := by
    rw [Response.seedBytes_eq, response]
    cases g.seed with
    | none => exact Nat.zero_le 32
    | some seed => exact Nat.le_of_eq seed.length_eq
  have hparts : (g.response signature).encode = Framing.join [Text.utf8 g.id,
      g.key.publicKey.compressed, (g.response signature).seedBytes, signature] ++
      Framing.join (g.response signature).recoveryParts := by
    rw [Response.encode, Framing.join, List.flatMap_append]
    rfl
  simp only [hparts, Framing.join_cons, Framing.join_nil, List.length_append,
    Bytes.length_bigEndian, List.length_nil, length_compressed]
  omega

theorem issuedRecovery_response (signature : Bytes) :
    Session.issuedRecovery (g.response signature) = .ok g.issuedRecovery := by
  have hissued := g.issued
  unfold Session.issuedRecovery issuedRecovery response
  dsimp only
  cases hr : g.recovery with
  | none => rfl
  | some r =>
      dsimp only
      cases hempty : r.isEmpty with
      | true => simp [Option.filter, hempty]
      | false => simp [Option.filter, hempty, hissued r hr, Except.map]

end Grant

structure Equipped (unlock : UnlockKeys) : Prop where
  possession : ∃ key, unlock.possession = some key ∧ key.isZero = false
  password : ∃ password, unlock.password = some password
  biometry : ∀ key, unlock.biometry = some key → key.isZero = false

theorem usable_of_not_zero {f : Factor} {key : Key} (h : key.isZero = false) :
    UnlockKeys.usable f (some key) = .ok key := by
  simp [UnlockKeys.usable, h]

theorem Equipped.exists_lock {unlock : UnlockKeys} (h : Equipped unlock) (keys : DerivedKeys)
    (external : Option Key) (salt : Fixed 16) :
    ∃ p, ProtectedKeys.lock keys unlock external salt = .ok p := by
  obtain ⟨possession, hpossession, hzero⟩ := h.possession
  obtain ⟨password, hpassword⟩ := h.password
  have hrequired : unlock.requirePossession = .ok possession := by
    rw [UnlockKeys.requirePossession, hpossession, usable_of_not_zero hzero]
  have hknown : unlock.requirePassword = .ok password := by
    rw [UnlockKeys.requirePassword, hpassword]
  refine ProtectedKeys.exists_lock hrequired hknown keys external salt ?_
  cases hb : unlock.biometry with
  | none => exact .inl rfl
  | some key =>
      refine .inr ⟨key, ?_⟩
      rw [UnlockKeys.requireBiometry, hb, usable_of_not_zero (h.biometry key hb)]

section Protocol

variable {s : Session} {master device ephemeral : P256.PrivateKey} {code : Option ActivationCode}
  {limit : Nat}

-- The code, if there is one with a signature, is one that the master key has signed.
def Genuine (master : P256.PrivateKey) (code : Option ActivationCode) : Prop :=
  ∀ c signature, code = some c → c.signature = some signature →
    master.sign (Text.utf8 c.text) = .ok signature

def Idle (s : Session) : Prop :=
  s.phase = .empty ∨ ∃ pending, s.phase = .started pending

theorem checkCode_eq_ok (hmaster : s.masterKey = master.publicKey) (hcode : Genuine master code) :
    s.checkCode (code.map ActivationCode.offered) = .ok () := by
  rcases code with _ | ⟨payload, _ | signature⟩
  · rfl
  · rfl
  · have hverify := P256.PrivateKey.verify_sign (hcode ⟨payload, some signature⟩ signature rfl rfl)
    rw [← hmaster] at hverify
    exact mapError_eq_ok.mpr hverify

def asked (code : Option ActivationCode) (device : P256.PrivateKey) : Request :=
  ⟨code.map ActivationCode.text, device.publicKey.compressed⟩

theorem fits_asked : Framing.Fits (Text.utf8 ((asked code device).code.getD "")) ∧
    Framing.Fits (asked code device).deviceKey := by
  refine ⟨?_, ?_⟩
  · cases code with
    | none => exact Nat.two_pow_pos 32
    | some c =>
        rw [asked, Option.map_some, Option.getD_some, Framing.Fits,
          ActivationCode.length_utf8_text]
        decide
  · rw [asked, Framing.Fits, length_compressed]
    decide

theorem decode_asked : Request.decode (asked code device).encode = .ok (asked code device) := by
  refine Request.decode_encode ?_ fits_asked.1 fits_asked.2
  cases code with
  | none => simp [asked]
  | some c => simpa [asked] using c.text_ne_empty

theorem length_asked_le (code : Option ActivationCode) (device : P256.PrivateKey) :
    (asked code device).encode.length ≤ 64 := by
  have hcode : (Text.utf8 ((asked code device).code.getD "")).length ≤ 23 := by
    cases code with
    | none => exact Nat.zero_le 23
    | some c =>
        rw [asked, Option.map_some, Option.getD_some, ActivationCode.length_utf8_text]
  simp only [Request.encode, Framing.join_cons, Framing.join_nil, List.length_append,
    Bytes.length_bigEndian, List.length_nil, asked, length_compressed] at hcode ⊢
  omega

def awaiting (s : Session) (device : P256.PrivateKey) (keys : Envelope.Keys) : Session :=
  let encryptor := { s.applicationEncryptor activationInfo with stage := .encrypted keys }
  { s with phase := .started ⟨device, encryptor⟩ }

def serverEnd (s : Session) (master : P256.PrivateKey) (limit : Nat) : Envelope.Decryptor :=
  .new master (Text.utf8 "/pa/activation") (sha256 (Text.utf8 s.setup.applicationSecret)).bytes limit

theorem plan_start (device ephemeral : P256.PrivateKey) (nonce : Fixed 16)
    (hmaster : s.masterKey = master.publicKey) (hcode : Genuine master code)
    (hidle : Idle s) (hclient : (asked code device).encode.length ≤ s.payloadLimit)
    (hserver : (asked code device).encode.length ≤ limit) :
    ∃ c keys, Operation.plan (.start (code.map ActivationCode.offered) device ephemeral nonce) s =
        .keep (s.awaiting device keys) (.cryptogram c) ∧
      (s.serverEnd master limit).decryptRequest c = (.ok (asked code device).encode,
        { s.serverEnd master limit with stage := .decrypted keys }) := by
  obtain ⟨c, keys, hsent, hread⟩ := Envelope.decryptRequest_encryptRequest
    (e := s.applicationEncryptor activationInfo) (d := s.serverEnd master limit)
    hmaster rfl rfl rfl rfl hclient hserver ephemeral nonce
  refine ⟨c, keys, ?_, hread⟩
  have hasked : ⟨(code.map ActivationCode.offered).map OfferedCode.text, device.publicKey.compressed⟩ =
      asked code device := by
    rw [asked, Option.map_map]
    rfl
  have hrequest : s.request (code.map ActivationCode.offered) device ephemeral nonce =
      .ok (.keep (s.awaiting device keys) c) := by
    refine bind_eq_ok.mpr ⟨(), checkCode_eq_ok hmaster hcode, ?_⟩
    dsimp only
    rw [hasked, hsent]
    rfl
  have hstart : s.start (code.map ActivationCode.offered) device ephemeral nonce =
      .keep (s.awaiting device keys) c := by
    unfold start
    rcases hidle with hempty | ⟨pending, hstarted⟩
    · rw [hempty, hrequest]
      rfl
    · rw [hstarted, hrequest]
      rfl
  rw [Operation.plan, hstart]
  rfl

theorem exists_reply (s : Session) (master : P256.PrivateKey) (keys : Envelope.Keys)
    (nonce : Fixed 16) {plain : Bytes} (hsize : plain.length ≤ limit) :
    ∃ c, ({ s.serverEnd master limit with stage := .decrypted keys }.encryptResponse nonce plain).1 =
        .ok c ∧
      ({ s.applicationEncryptor activationInfo with stage := .encrypted keys }.decryptResponse c).1 =
        .ok plain := by
  obtain ⟨c, hsent, hread⟩ := Envelope.decryptResponse_encryptResponse
    (e := { s.applicationEncryptor activationInfo with stage := .encrypted keys })
    (d := { s.serverEnd master limit with stage := .decrypted keys }) rfl rfl rfl hsize nonce
  exact ⟨c, by rw [hsent], by rw [hread]⟩

theorem signature_online {r : Record} {request : HttpRequest} {factors : FactorSet}
    {unlock : UnlockKeys} (nonce : Fixed 16) {external : Option Key} {keys : FactorKeys}
    {text : String} (hrequest : request.check = .ok ()) (honline : request.offlineNonce = none)
    (hallowed : factors.allowed = true) (hexternal : s.signingKey r factors = .ok external)
    (hkeys : r.keys.unlock factors unlock external = .ok keys)
    (htext : FactorSignature.compute factors keys r.counter
      (request.normalizedData (Base64.encode nonce.bytes) (s.applicationSecret request)) = .ok text) :
    s.signature r request factors unlock nonce = .ok ⟨r.version.name, r.id,
      s.applicationKey request, Base64.encode nonce.bytes, factors.typeName, text⟩ := by
  have hnonce : requestNonce request nonce = .ok (Base64.encode nonce.bytes) := by
    rw [requestNonce, honline]
  refine bind_eq_ok.mpr ⟨(), hrequest, bind_eq_ok.mpr ⟨(), if_pos hallowed, ?_⟩⟩
  simp only [HttpRequest.isOffline, honline, Option.isSome_none, Bool.false_and]
  refine bind_eq_ok.mpr ⟨_, hnonce, bind_eq_ok.mpr ⟨_, hexternal, ?_⟩⟩
  exact bind_eq_ok.mpr ⟨_, hkeys, bind_eq_ok.mpr ⟨text, htext, rfl⟩⟩

structure Granted (external : Option Key) (device : P256.PrivateKey) (g : Grant)
    (unlock : UnlockKeys) (draws : ValidationDraws) (r : Record) : Prop where
  id : r.id = g.id
  serverKey : r.serverKey = g.key.publicKey.compressed
  deviceKey : r.deviceKey = device.publicKey.compressed
  counter : r.counter = g.counter
  health : r.health = .valid
  layered : r.external = external.isSome
  locked : ProtectedKeys.lock (g.derived device) unlock external draws.salt = .ok r.keys
  privateKey : r.sealedPrivateKey = Gcm.sealed (g.derived device).vault draws.keyNonce device.bytes
  recovery : r.sealedRecovery =
    g.issuedRecovery.map (sealRecovery (g.derived device).vault draws.recoveryNonce)

namespace Granted

variable {external : Option Key} {g : Grant} {unlock : UnlockKeys} {draws : ValidationDraws}
  {r : Record} (h : Granted external device g unlock draws r)
include h

theorem fingerprint : r.fingerprint = FactorSignature.decimal
    (sha256 (device.publicKey.compressed ++ Text.utf8 g.id ++ g.key.publicKey.compressed)) := by
  rw [Record.fingerprint, h.id, h.serverKey, h.deviceKey]

theorem externalKeyFor (hs : s.externalKey = external) : s.externalKeyFor r = .ok external := by
  rw [Session.externalKeyFor, h.layered, hs]
  cases external <;> rfl

theorem exists_signature (hs : s.externalKey = external) {request : HttpRequest}
    {factors : FactorSet} (nonce : Fixed 16) (hrequest : request.check = .ok ())
    (honline : request.offlineNonce = none) (hallowed : factors.allowed = true)
    (hbiometry : factors.biometry = true → unlock.biometry ≠ none)
    (hmore : factors ≠ .possessionOnly) (counter : Counter) :
    ∃ signature, s.signature { r with counter } request factors unlock nonce = .ok signature := by
  have hkeys := ProtectedKeys.unlock_of_lock h.locked hallowed hbiometry
  have hexternal : s.signingKey { r with counter } factors = .ok external := by
    rw [signingKey, if_neg hmore]
    exact h.externalKeyFor hs
  obtain ⟨text, htext⟩ := FactorSignature.exists_compute (g.derived device) hallowed counter
    (request.normalizedData (Base64.encode nonce.bytes) (s.applicationSecret request))
  exact ⟨_, signature_online nonce hrequest honline hallowed hexternal hkeys htext⟩

theorem openPrivateKey : openPrivateKey r (g.derived device).vault = .ok device := by
  rw [Session.openPrivateKey, h.privateKey, Gcm.opened_sealed]
  exact lift_eq_ok.mpr (P256.PrivateKey.ofBytes_bytes device)

theorem openRecovery {recovery : Recovery} (hr : g.issuedRecovery = some recovery) :
    ∃ b, r.sealedRecovery = some b ∧
      openRecovery (g.derived device).vault b = .ok recovery := by
  refine ⟨_, by rw [h.recovery, hr, Option.map_some], ?_⟩
  have hcheck := g.issued recovery (Option.filter_eq_some_iff.mp hr).1
  obtain ⟨hcode, hpuk⟩ := Recovery.fits_of_check hcheck
  have hsplit : Framing.split (Framing.join [Text.utf8 recovery.code, Text.utf8 recovery.puk]) =
      .ok [Text.utf8 recovery.code, Text.utf8 recovery.puk] :=
    Framing.split_join (by simp [hcode, hpuk])
  obtain ⟨⟨hacode, -⟩, hapuk, -⟩ := Recovery.short_of_check hcheck
  refine bind_eq_ok.mpr ⟨_, ?_, bind_eq_ok.mpr ⟨_, mapError_eq_ok.mpr hsplit, ?_⟩⟩
  · rw [sealRecovery, Gcm.opened_sealed]
    rfl
  · dsimp only
    rw [Text.lossy_utf8 hacode, Text.lossy_utf8 hapuk]
    rfl

end Granted

theorem granted_of_recordOf {pending : Pending} {g : Grant} {signature : Bytes}
    {unlock : UnlockKeys} {draws : ValidationDraws} {r : Record}
    (h : s.recordOf pending (g.response signature) unlock draws = .ok r) :
    Granted s.externalKey pending.privateKey g unlock draws r := by
  obtain ⟨-, recovery, serverKey, p, hrecovery, hserver, hlock, rfl⟩ := recordOf_eq_ok.mp h
  obtain rfl := Except.ok.inj ((g.issuedRecovery_response signature).symm.trans hrecovery)
  obtain rfl := Except.ok.inj ((P256.PublicKey.ofBytes_compressed _).symm.trans hserver)
  have hderived : DerivedKeys.ofSecret (pending.privateKey.agree g.key.publicKey).bytes =
      g.derived pending.privateKey := by
    rw [Grant.derived, P256.PrivateKey.agree_publicKey]
  rw [hderived] at hlock ⊢
  exact ⟨rfl, rfl, rfl, rfl, rfl, rfl, hlock, rfl, rfl⟩

theorem exists_record (pending : Pending) {g : Grant} {signature : Bytes} {unlock : UnlockKeys}
    (hmaster : s.masterKey = master.publicKey)
    (hsign : master.sign g.signedData = .ok signature) (hunlock : Equipped unlock)
    (draws : ValidationDraws) :
    ∃ r, s.recordOf pending (g.response signature) unlock draws = .ok r ∧
      Granted s.externalKey pending.privateKey g unlock draws r := by
  obtain ⟨p, hlock⟩ := hunlock.exists_lock
    (.ofSecret (pending.privateKey.agree g.key.publicKey).bytes) s.externalKey draws.salt
  have hverify := P256.PrivateKey.verify_sign hsign
  rw [← hmaster] at hverify
  have hrecord := recordOf_eq_ok.mpr ⟨hverify, g.issuedRecovery, g.key.publicKey, p,
    g.issuedRecovery_response signature, P256.PublicKey.ofBytes_compressed _, hlock, rfl⟩
  exact ⟨_, hrecord, granted_of_recordOf hrecord⟩

theorem plan_validate (device : P256.PrivateKey) {g : Grant} {signature : Bytes}
    {unlock : UnlockKeys} {keys : Envelope.Keys} {reply : Cryptogram}
    (hmaster : s.masterKey = master.publicKey)
    (hsign : master.sign g.signedData = .ok signature) (hunlock : Equipped unlock)
    (hread : ({ s.applicationEncryptor activationInfo with
      stage := .encrypted keys }.decryptResponse reply).1 = .ok (g.response signature).encode)
    (draws : ValidationDraws) :
    ∃ r, Operation.plan (.validate reply unlock draws) (s.awaiting device keys) =
        .keep { s with phase := .pendingCommit r } (.activated ⟨r.id, r.fingerprint⟩) ∧
      Granted s.externalKey device g unlock draws r := by
  have hfits : Framing.Fits signature :=
    Nat.lt_of_le_of_lt (P256.PrivateKey.length_sign_le hsign) (by decide)
  obtain ⟨r, hr, hgranted⟩ := exists_record (s := s.awaiting device keys)
    ⟨device, { s.applicationEncryptor activationInfo with stage := .encrypted keys }⟩
    hmaster hsign hunlock draws
  refine ⟨r, ?_, hgranted⟩
  refine congrArg (fun plan => (Plan.orRefuse { s with phase := .empty } plan).map Answer.activated)
    (?_ : _ = Except.ok (Plan.keep { s with phase := .pendingCommit r } _))
  refine bind_eq_ok.mpr ⟨_, hread, bind_eq_ok.mpr ⟨_, ?_, bind_eq_ok.mpr ⟨r, hr, rfl⟩⟩⟩
  exact mapError_eq_ok.mpr (g.decode_response hfits)

end Protocol

end Session

end DeviceAuth
