import DeviceAuth.Proofs.Session.Window

namespace DeviceAuth.Session

open Activation

variable {s : Session} {r : Record} {unlock : UnlockKeys} {possession transport : Key}

theorem unlockTransport_of_sealed (hgiven : unlock.possession = some possession)
    (hstrong : possession.isZero = false)
    (hsealed : r.keys.transport = ProtectedKeys.sealKey possession transport) :
    r.keys.unlockTransport unlock = .ok transport := by
  have hrequired : unlock.requirePossession = .ok possession :=
    ProtectedKeys.usable_eq_ok.mpr ⟨hgiven, hstrong⟩
  refine bind_eq_ok.mpr ⟨possession, hrequired, ?_⟩
  rw [hsealed]
  exact ProtectedKeys.openKey_sealKey possession transport

theorem decodeStatus_sealedStatus (hphase : s.phase = .active r)
    (htransport : r.keys.unlockTransport unlock = .ok transport) (status : ServerStatus) :
    s.decodeStatus (sealedStatus transport status) unlock = .ok status :=
  bind_eq_ok.mpr ⟨r, committed_eq_ok.mpr hphase,
    bind_eq_ok.mpr ⟨transport, htransport, readStatus_sealedStatus transport status⟩⟩

theorem server_status_survives_transport :
    (∀ (s : Session) (r : Record) (unlock : UnlockKeys) (possession transport : Key),
      s.phase = .active r → unlock.possession = some possession → possession.isZero = false →
      r.keys.transport = ProtectedKeys.sealKey possession transport →
      ∀ status, s.decodeStatus (sealedStatus transport status) unlock = .ok status) ∧
    ∀ b, ((∃ status, ServerStatus.decode b = .ok status) ↔ ServerStatus.Readable b) ∧
      ∀ status, ServerStatus.decode b = .ok status → ∀ i : Nat, status.encode[i]? =
        if i = 3 then some 0xd1 else if 7 ≤ i ∧ i ≤ 11 then some 0 else b[i]? := by
  refine ⟨fun s r unlock possession transport hphase hgiven hstrong hsealed status => ?_,
    fun b => ⟨ServerStatus.exists_decode_iff, fun status hstatus i => ?_⟩⟩
  · exact decodeStatus_sealedStatus hphase (unlockTransport_of_sealed hgiven hstrong hsealed) status
  · obtain ⟨format, gap, -, rfl⟩ := ServerStatus.decode_eq_ok.mp hstatus
    exact ServerStatus.getElem?_encode format gap status i

section Example

def offeredStatus : ServerStatus where
  state := .pendingCommit
  currentVersion := .v2
  upgradeVersion := some .v3
  counterByte := 7
  failCount := 5
  maxFailCount := 5
  lookahead := 0
  chainDigest := ⟨List.replicate 16 0xab, rfl⟩

def laterBlock : Bytes :=
  offeredStatus.block 0xdf ⟨[1, 2, 3, 4, 5], rfl⟩

theorem offer_read_when_blocked :
    (signer (.numeric 7) .blocked).decodeStatus
        (sealedStatus sampleDerived.transport offeredStatus) sampleUnlock = .ok offeredStatus ∧
      ServerStatus.Readable laterBlock ∧ ServerStatus.decode laterBlock = .ok offeredStatus ∧
      offeredStatus.encode[3]? = some 0xd1 ∧ offeredStatus.encode[9]? = some 0 ∧
      offeredStatus.encode[31]? = laterBlock[31]? := by
  obtain ⟨hread, hblocks⟩ := server_status_survives_transport
  obtain ⟨hreadable, hencoded⟩ := hblocks laterBlock
  have hdecoded : ServerStatus.decode laterBlock = .ok offeredStatus :=
    ServerStatus.decode_block rfl _ _
  refine ⟨?_, hreadable.mp ⟨_, hdecoded⟩, hdecoded, hencoded _ hdecoded 3, hencoded _ hdecoded 9,
    hencoded _ hdecoded 31⟩
  exact hread _ _ _ (filledKey 6) _ rfl rfl (by decide) rfl _

end Example

end DeviceAuth.Session
