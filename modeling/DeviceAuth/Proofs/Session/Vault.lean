import DeviceAuth.Proofs.Base64
import DeviceAuth.Proofs.Session.Agreement

namespace DeviceAuth

namespace ProtectedKeys

theorem unlockTransport_congr {p q : ProtectedKeys} {unlock unlock' : UnlockKeys}
    (hkeys : q.transport = p.transport) (hunlock : unlock'.possession = unlock.possession) :
    q.unlockTransport unlock' = p.unlockTransport unlock := by
  rw [unlockTransport, unlockTransport, UnlockKeys.requirePossession, UnlockKeys.requirePossession,
    hkeys, hunlock]

end ProtectedKeys

namespace Session

open Activation

def sealedVaultKey (keys : DerivedKeys) : String :=
  Base64.encode
    (Cbc.encryptPadded (Aes.Schedule.ofLong keys.transport) (.zero 16) keys.vault.bytes)

structure Vaulted (keys : DerivedKeys) (device : P256.PrivateKey) (recovery : Option Recovery)
    (unlock : UnlockKeys) (r : Record) : Prop where
  transport : r.keys.unlockTransport unlock = .ok keys.transport
  privateKey : openPrivateKey r keys.vault = .ok device
  unissued : recovery = none → r.sealedRecovery = none
  issued : ∀ x, recovery = some x →
    ∃ b, r.sealedRecovery = some b ∧ openRecovery keys.vault b = .ok x

variable {σ α : Type} {host : Host σ} {s : Session} {w : σ} {r : Record} {keys : DerivedKeys}
  {device : P256.PrivateKey} {recovery : Option Recovery} {request : VaultRequest}

theorem Granted.vaulted {external : Option Key} {g : Grant} {unlock : UnlockKeys}
    {draws : ValidationDraws} (h : Granted external device g unlock draws r) :
    Vaulted (g.derived device) device g.issuedRecovery unlock r where
  transport := ProtectedKeys.unlockTransport_of_lock h.locked
  privateKey := h.openPrivateKey
  unissued hnone := by rw [h.recovery, hnone, Option.map_none]
  issued _ := h.openRecovery

theorem Vaulted.openVaultKey {unlock : UnlockKeys} (h : Vaulted keys device recovery unlock r) :
    openVaultKey r (sealedVaultKey keys) unlock = .ok keys.vault := by
  refine bind_eq_ok.mpr ⟨_, h.transport, ?_⟩
  refine bind_eq_ok.mpr ⟨_, mapError_eq_ok.mpr (Base64.decode_encode _), ?_⟩
  refine bind_eq_ok.mpr ⟨keys.vault.bytes, lift_eq_ok.mpr (mapError_eq_ok.mpr ?_), ?_⟩
  · exact Cbc.decryptPadded_encryptPadded _ _ _
  · rw [Fixed.ofBytes?_bytes]
    exact bind_eq_ok.mpr ⟨device, h.privateKey, rfl⟩

theorem ok_bind {ε β : Type} (a : α) (f : α → Except ε β) : (Except.ok a >>= f) = f a :=
  rfl

section Plans

variable (hvalid : s.valid = .ok r) (hproof : s.proves request.proof = true)
  (hgiven : request.encryptedKey = sealedVaultKey keys)
  (h : Vaulted keys device recovery request.unlock r)

include hvalid hproof hgiven h

theorem withVault_of_vaulted {use : Session → Record → Key → Except Failure (Plan α)} :
    s.withVault request use =
      .orRefuse { s with vaultToken := none } (use { s with vaultToken := none } r keys.vault) := by
  have hkey : Session.openVaultKey r request.encryptedKey request.unlock = .ok keys.vault := by
    rw [hgiven]
    exact h.openVaultKey
  rw [withVault, hvalid]
  dsimp only
  rw [if_pos hproof, hkey]
  rfl

theorem plan_unlockVault : Operation.plan (.unlockVault request) s =
    .keep { s with vaultToken := none } (.key keys.vault) := by
  rw [Operation.plan, unlockVault, withVault_of_vaulted hvalid hproof hgiven h]
  rfl

theorem plan_deriveVault (index : UInt64) : Operation.plan (.deriveVault request index) s =
    .keep { s with vaultToken := none } (.key (KeyDerivation.subkey keys.vault.bytes index)) := by
  rw [Operation.plan, deriveVault, withVault_of_vaulted hvalid hproof hgiven h]
  rfl

theorem plan_signDevice (data : Bytes) : Operation.plan (.signDevice request data) s =
    .orRefuse { s with vaultToken := none }
      ((Failure.lift (device.sign data)).map fun signature =>
        .keep { s with vaultToken := none } (.bytes signature)) := by
  rw [Operation.plan, signDevice, withVault_of_vaulted hvalid hproof hgiven h, h.privateKey,
    ok_bind]
  cases Failure.lift (device.sign data) with
  | error why => rfl
  | ok signature => rfl

theorem plan_recovery {x : Recovery} (hx : recovery = some x) :
    Operation.plan (.recovery request) s = .keep { s with vaultToken := none } (.recovery x) := by
  obtain ⟨b, hb, hopened⟩ := h.issued x hx
  rw [Operation.plan, Session.recovery, hvalid]
  dsimp only
  rw [hb]
  dsimp only
  rw [withVault_of_vaulted hvalid hproof hgiven h, hopened]
  rfl

omit hproof hgiven in
theorem plan_recovery_unissued (hnone : recovery = none) : Operation.plan (.recovery request) s =
    .refuse { s with vaultToken := none } (.state .noRecoveryData) := by
  rw [Operation.plan, Session.recovery, hvalid]
  dsimp only
  rw [h.unissued hnone]
  rfl

end Plans

structure Opens (host : Host σ) (s : Session) (w : σ) (request : VaultRequest) (vaultKey : Key)
    (device : P256.PrivateKey) (recovery : Option Recovery) : Prop where
  unlocked : (s.run host (.unlockVault request) w).answer = .ok (.key vaultKey)
  derived : ∀ index, (s.run host (.deriveVault request index) w).answer =
    .ok (.key (KeyDerivation.subkey vaultKey.bytes index))
  signed : ∀ data, (s.run host (.signDevice request data) w).answer =
    (Failure.lift (device.sign data)).map .bytes
  accepted : ∀ data signature,
    (s.run host (.signDevice request data) w).answer = .ok (.bytes signature) →
      device.publicKey.verify data signature = .ok ()
  recovered : ∀ x, recovery = some x →
    (s.run host (.recovery request) w).answer = .ok (.recovery x)
  unissued : recovery = none →
    (s.run host (.recovery request) w).answer = .error (.state .noRecoveryData)

theorem opens_of_vaulted (hquiet : Undisturbed host s w) (hvalid : s.valid = .ok r)
    (hproof : s.proves request.proof = true) (hgiven : request.encryptedKey = sealedVaultKey keys)
    (h : Vaulted keys device recovery request.unlock r) :
    Opens host s w request keys.vault device recovery := by
  have hsigned (data : Bytes) : (s.run host (.signDevice request data) w).answer =
      (Failure.lift (device.sign data)).map .bytes := by
    have hplan := plan_signDevice hvalid hproof hgiven h data
    cases hs : Failure.lift (device.sign data) with
    | error why =>
        rw [hs] at hplan
        exact (run_of_refuse hquiet rfl rfl hplan).1
    | ok signature =>
        rw [hs] at hplan
        exact (run_of_keep hquiet rfl rfl hplan).1
  refine ⟨?_, fun index => ?_, hsigned, fun data signature hanswer => ?_, fun x hx => ?_,
    fun hnone => ?_⟩
  · exact (run_of_keep hquiet rfl rfl (plan_unlockVault hvalid hproof hgiven h)).1
  · exact (run_of_keep hquiet rfl rfl (plan_deriveVault hvalid hproof hgiven h index)).1
  · rw [hsigned] at hanswer
    obtain ⟨_, hs, hsame⟩ := map_eq_ok.mp hanswer
    cases hsame
    exact P256.PrivateKey.verify_sign (lift_eq_ok.mp hs)
  · exact (run_of_keep hquiet rfl rfl (plan_recovery hvalid hproof hgiven h hx)).1
  · exact (run_of_refuse hquiet rfl rfl (plan_recovery_unissued hvalid h hnone)).1

end Session

end DeviceAuth
