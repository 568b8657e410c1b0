import DeviceAuth.Proofs.Session.Exchange

namespace DeviceAuth.Session

open Activation

variable {σ : Type}

theorem activation_agrees (host : Host σ) {s : Session} {w w' : σ}
    {master : P256.PrivateKey} (device ephemeral : P256.PrivateKey) {code : Option ActivationCode}
    (nonce replyNonce : Fixed 16) {limit : Nat} {g : Grant} {signature : Bytes}
    {unlock : UnlockKeys} (draws : ValidationDraws)
    (hmaster : s.masterKey = master.publicKey) (hcode : Genuine master code) (hidle : Idle s)
    (hclient : (asked code device).encode.length ≤ s.payloadLimit)
    (hserver : (asked code device).encode.length ≤ limit)
    (hsign : master.sign g.signedData = .ok signature)
    (hsize : (g.response signature).encode.length ≤ limit) (hunlock : Equipped unlock)
    (hstart : Undisturbed host s w)
    (hwait : Undisturbed host
      (s.run host (.start (code.map ActivationCode.offered) device ephemeral nonce) w).session w') :
    ∃ request plain d reply r keys external,
      (s.run host (.start (code.map ActivationCode.offered) device ephemeral nonce) w).answer =
        .ok (.cryptogram request) ∧
      (Envelope.Decryptor.new master (Text.utf8 "/pa/activation")
        (sha256 (Text.utf8 s.setup.applicationSecret)).bytes limit).decryptRequest request =
          (.ok plain, d) ∧
      Request.decode plain = .ok (asked code device) ∧
      P256.PublicKey.ofBytes device.publicKey.compressed = .ok device.publicKey ∧
      (d.encryptResponse replyNonce (g.response signature).encode).1 = .ok reply ∧
      let started := (s.run host (.start (code.map ActivationCode.offered) device ephemeral nonce) w).session
      let validated := started.run host (.validate reply unlock draws) w'
      validated.answer = .ok (.activated ⟨g.id, FactorSignature.decimal
        (sha256 (device.publicKey.compressed ++ Text.utf8 g.id ++
          g.key.publicKey.compressed))⟩) ∧
      validated.session.phase = .pendingCommit r ∧
      r.id = g.id ∧ r.serverKey = g.key.publicKey.compressed ∧
      r.deviceKey = device.publicKey.compressed ∧ r.counter = g.counter ∧
      DerivedKeys.derive (g.key.agree device.publicKey).bytes = .ok keys ∧
      validated.session.externalKeyFor r = .ok external ∧
      (∀ factors : FactorSet, factors.allowed = true →
        (factors.biometry = true → unlock.biometry ≠ none) →
        r.keys.unlock factors unlock external = .ok (ProtectedKeys.chosen keys factors)) ∧
      r.keys.unlockTransport unlock = .ok keys.transport ∧
      openPrivateKey r keys.vault = .ok device ∧
      (g.issuedRecovery = none → r.sealedRecovery = none) ∧
      (∀ recovery, g.issuedRecovery = some recovery → ∃ b, r.sealedRecovery = some b ∧
        openRecovery keys.vault b = .ok recovery) := by
  obtain ⟨request, exchangeKeys, hplan, hread⟩ := plan_start device ephemeral nonce hmaster hcode
    hidle hclient hserver
  obtain ⟨hanswer, hsession⟩ := run_of_keep hstart rfl rfl hplan
  obtain ⟨reply, hreply, hopened⟩ := exists_reply s master exchangeKeys replyNonce hsize
  obtain ⟨r, hvalidate, hgranted⟩ := plan_validate device hmaster hsign hunlock hopened draws
  rw [hsession] at hwait
  obtain ⟨hactivated, hpending⟩ := run_of_keep hwait rfl rfl hvalidate
  refine ⟨request, _, _, reply, r, g.derived device, s.externalKey, hanswer, hread, decode_asked,
    P256.PublicKey.ofBytes_compressed _, hreply, ?_⟩
  dsimp only
  rw [hsession]
  refine ⟨?_, by rw [hpending], hgranted.id, hgranted.serverKey, hgranted.deviceKey,
    hgranted.counter, ?_, ?_, ?_, ?_, hgranted.openPrivateKey, fun hnone => ?_,
    fun _ => hgranted.openRecovery⟩
  · rw [hactivated, hgranted.id, hgranted.fingerprint]
  · exact g.derive_secret device
  · rw [hpending]
    exact hgranted.externalKeyFor rfl
  · intro factors hallowed hbiometry
    exact ProtectedKeys.unlock_of_lock hgranted.locked hallowed hbiometry
  · exact ProtectedKeys.unlockTransport_of_lock hgranted.locked
  · rw [hgranted.recovery, hnone, Option.map_none]

section Example

def sampleMaster : P256.PrivateKey :=
  ⟨1, Nat.one_pos, P256.one_lt_order⟩

def filledKey (b : UInt8) : Key :=
  ⟨List.replicate 32 b, List.length_replicate⟩

def sampleSetup : Setup where
  applicationKey := "key"
  applicationSecret := "secret"
  masterKey := "A2sX0fLhLEJH+Lzm5WOkQPJ3A32BLeszoPShOUXYmMKW"
  externalKey := some (filledKey 5)

def sampleSession : Session where
  setup := sampleSetup
  config := {}
  masterKey := sampleMaster.publicKey
  externalKey := sampleSetup.externalKey
  phase := .empty
  vaultToken := none
  stale := false

theorem new_sampleSetup : Session.new sampleSetup {} = .ok sampleSession := by
  have hcheck : sampleSetup.check = .ok sampleMaster.publicKey := by decide +kernel
  exact bind_eq_ok.mpr ⟨_, hcheck, rfl⟩

def sampleGrant : Grant where
  key := ⟨4, by decide, by decide⟩
  id := "activation"
  seed := some (.zero 32)
  recovery := some ⟨"", ""⟩
  named := by decide
  short := by decide +kernel
  issued := by
    rintro r ⟨⟩
    rfl

def sampleUnlock : UnlockKeys where
  possession := some (filledKey 6)
  biometry := some (filledKey 7)
  password := some ⟨[1, 2, 3, 4], by decide⟩

def sampleHost : Host Unit where
  store := ⟨fun _ w => (.ok none, w), fun _ _ w => (.ok (), w), fun _ w => (.ok (), w)⟩
  lock := none

theorem exists_of_isOk {ε α : Type} {x : Except ε α} (h : x.isOk = true) : ∃ a, x = .ok a := by
  cases x with
  | error why => cases h
  | ok a => exact ⟨a, rfl⟩

theorem sign_sampleCode :
    (sampleMaster.sign (Text.utf8 (ActivationCode.text ⟨.zero 10, none⟩))).isOk = true := by
  decide +kernel

theorem sign_sampleGrant : (sampleMaster.sign sampleGrant.signedData).isOk = true := by
  decide +kernel

theorem equipped_sampleUnlock : Equipped sampleUnlock where
  possession := ⟨_, rfl, by decide⟩
  password := ⟨_, rfl⟩
  biometry := by
    rintro key ⟨⟩
    decide

theorem undisturbed_sampleHost (s : Session) : Undisturbed sampleHost s () := by
  rintro lock ⟨⟩

theorem agrees_sample : ∃ (codeSignature : Bytes) (reply : Cryptogram) (r : Record)
    (keys : DerivedKeys) (external : Option Key),
    let code : ActivationCode := ⟨.zero 10, some codeSignature⟩
    let started := (sampleSession.run sampleHost (.start (some code.offered) ⟨2, by decide, by decide⟩
      ⟨3, by decide, by decide⟩ (.zero 16)) ()).session
    let validated := started.run sampleHost
      (.validate reply sampleUnlock ⟨.zero 16, .zero 12, .zero 12⟩) ()
    validated.session.phase = .pendingCommit r ∧ r.counter = .chain (.zero 32) 0 ∧
      validated.session.externalKeyFor r = .ok external ∧
      r.keys.unlock ⟨true, true, true⟩ sampleUnlock external =
        .ok ⟨some keys.possession, some keys.knowledge, some keys.biometry⟩ := by
  obtain ⟨codeSignature, hcode⟩ := exists_of_isOk sign_sampleCode
  obtain ⟨signature, hsign⟩ := exists_of_isOk sign_sampleGrant
  have hgenuine : Genuine sampleMaster (some ⟨.zero 10, some codeSignature⟩) := by
    rintro c signature ⟨⟩ ⟨⟩
    exact hcode
  have hmaster : sampleSession.masterKey = sampleMaster.publicKey := by rw [sampleSession]
  have hrequest := length_asked_le (some ⟨.zero 10, some codeSignature⟩)
    ⟨2, by decide, by decide⟩
  have hsize := sampleGrant.length_encode_le (P256.PrivateKey.length_sign_le hsign)
  have hid : (Text.utf8 sampleGrant.id).length = 10 := by decide +kernel
  obtain ⟨_, _, _, reply, r, keys, external, -, -, -, -, -, -, hphase, -, -, -, hcounter, -,
    hexternal, hunlock, -⟩ := activation_agrees sampleHost (s := sampleSession) (w := ())
    ⟨2, by decide, by decide⟩ ⟨3, by decide, by decide⟩ (.zero 16) (.zero 16)
    ⟨.zero 16, .zero 12, .zero 12⟩ hmaster hgenuine (.inl rfl)
    (Nat.le_trans hrequest (by decide : 64 ≤ sampleSession.payloadLimit))
    (Nat.le_trans hrequest (by decide : 64 ≤ 1024)) hsign (by omega) equipped_sampleUnlock
    (undisturbed_sampleHost _) (undisturbed_sampleHost _)
  exact ⟨codeSignature, reply, r, keys, external, hphase, hcounter, hexternal,
    hunlock ⟨true, true, true⟩ rfl fun _ h => by cases h⟩

def sampleDevice : P256.PrivateKey :=
  ⟨2, by decide, by decide⟩

def sampleEphemeral : P256.PrivateKey :=
  ⟨3, by decide, by decide⟩

def sampleDraws : ValidationDraws :=
  ⟨.zero 16, .zero 12, .zero 12⟩

theorem exists_exchange {g : Grant} {signature : Bytes}
    (hsign : sampleMaster.sign g.signedData = .ok signature)
    (hid : (Text.utf8 g.id).length ≤ 800) :
    ∃ (c : Cryptogram) (keys : Envelope.Keys) (reply : Cryptogram) (r : Record),
      Operation.plan (.start none sampleDevice sampleEphemeral (.zero 16)) sampleSession =
          .keep (sampleSession.awaiting sampleDevice keys) (.cryptogram c) ∧
        ({ sampleSession.applicationEncryptor activationInfo with
          stage := .encrypted keys }.decryptResponse reply).1 =
            .ok (g.response signature).encode ∧
        Operation.plan (.validate reply sampleUnlock sampleDraws)
            (sampleSession.awaiting sampleDevice keys) =
          .keep { sampleSession with phase := .pendingCommit r }
            (.activated ⟨r.id, r.fingerprint⟩) ∧
        Granted sampleSession.externalKey sampleDevice g sampleUnlock sampleDraws r := by
  have hmaster : sampleSession.masterKey = sampleMaster.publicKey := by rw [sampleSession]
  have hrequest := length_asked_le none sampleDevice
  have hsize := g.length_encode_le (P256.PrivateKey.length_sign_le hsign)
  have hgenuine : Genuine sampleMaster none := by
    rintro _ _ ⟨⟩
  obtain ⟨c, keys, hstart, -⟩ := plan_start sampleDevice sampleEphemeral (.zero 16) hmaster hgenuine
    (.inl rfl) (Nat.le_trans hrequest (by decide : 64 ≤ sampleSession.payloadLimit)) hrequest
  obtain ⟨reply, -, hopened⟩ := exists_reply sampleSession sampleMaster keys (.zero 16)
    (by omega : (g.response signature).encode.length ≤ 1024)
  obtain ⟨r, hvalidate, hgranted⟩ := plan_validate sampleDevice hmaster hsign equipped_sampleUnlock
    hopened sampleDraws
  exact ⟨c, keys, reply, r, hstart, hopened, hvalidate, hgranted⟩

theorem exists_sampleExchange : ∃ (c : Cryptogram) (keys : Envelope.Keys) (signature : Bytes)
    (reply : Cryptogram) (r : Record),
    Operation.plan (.start none sampleDevice sampleEphemeral (.zero 16)) sampleSession =
        .keep (sampleSession.awaiting sampleDevice keys) (.cryptogram c) ∧
      sampleMaster.sign sampleGrant.signedData = .ok signature ∧
      ({ sampleSession.applicationEncryptor activationInfo with
        stage := .encrypted keys }.decryptResponse reply).1 =
          .ok (sampleGrant.response signature).encode ∧
      Operation.plan (.validate reply sampleUnlock sampleDraws)
          (sampleSession.awaiting sampleDevice keys) =
        .keep { sampleSession with phase := .pendingCommit r } (.activated ⟨r.id, r.fingerprint⟩) ∧
      Granted sampleSession.externalKey sampleDevice sampleGrant sampleUnlock sampleDraws r := by
  obtain ⟨signature, hsign⟩ := exists_of_isOk sign_sampleGrant
  obtain ⟨c, keys, reply, r, hstart, hopened, hvalidate, hgranted⟩ :=
    exists_exchange hsign (by decide +kernel)
  exact ⟨c, keys, signature, reply, r, hstart, hsign, hopened, hvalidate, hgranted⟩

end Example

end DeviceAuth.Session
