import DeviceAuth.Session.Activate
import DeviceAuth.Session.Factors
import DeviceAuth.Session.Report
import DeviceAuth.Session.Upgrade
import DeviceAuth.Session.Vault

namespace DeviceAuth.Session

inductive Operation where
  | start (code : Option OfferedCode) (device ephemeral : P256.PrivateKey) (nonce : Fixed 16)
  | validate (response : Cryptogram) (unlock : UnlockKeys) (draws : ValidationDraws)
  | confirm
  | remove
  | reset
  | deserialize (blob : Bytes)
  | sign (request : HttpRequest) (factors : FactorSet) (unlock : UnlockKeys) (nonce : Fixed 16)
  | signVault (request : HttpRequest) (factors : FactorSet) (unlock : UnlockKeys)
      (nonce token : Fixed 16)
  | applyStatus (encrypted : String) (unlock : UnlockKeys)
  | changePassword (old new : Password) (salt : Fixed 16)
  | removeBiometry
  | setExternal (key : Key)
  | addExternal (key : Key)
  | removeExternal
  | upgradeStart
  | upgradeApply (seed : Bytes)
  | upgradeFinish
  | unlockVault (request : VaultRequest)
  | deriveVault (request : VaultRequest) (index : UInt64)
  | signDevice (request : VaultRequest) (data : Bytes)
  | recovery (request : VaultRequest)
  | addBiometry (request : VaultRequest)
  deriving DecidableEq

inductive Answer where
  | done
  | cryptogram (c : Cryptogram)
  | activated (a : Activated)
  | signature (s : HttpSignature)
  | vaultSignature (s : HttpSignature) (proof : VaultProof)
  | status (s : ServerStatus)
  | key (k : Key)
  | bytes (b : Bytes)
  | recovery (r : Recovery)
  deriving DecidableEq

namespace Operation

def plan (op : Operation) (s : Session) : Plan Answer :=
  match op with
  | .start code device ephemeral nonce => (s.start code device ephemeral nonce).map .cryptogram
  | .validate response unlock draws => (s.validate response unlock draws).map .activated
  | .confirm => s.confirm.map fun _ => .done
  | .remove => s.remove.map fun _ => .done
  | .reset => s.reset.map fun _ => .done
  | .deserialize blob => (s.deserialize blob).map fun _ => .done
  | .sign request factors unlock nonce => (s.sign request factors unlock nonce).map .signature
  | .signVault request factors unlock nonce token =>
      (s.signVault request factors unlock nonce token).map fun a => .vaultSignature a.1 a.2
  | .applyStatus encrypted unlock => (s.applyStatus encrypted unlock).map .status
  | .changePassword old new salt => (s.changePassword old new salt).map fun _ => .done
  | .removeBiometry => s.removeBiometry.map fun _ => .done
  | .setExternal key => (s.setExternal key).map fun _ => .done
  | .addExternal key => (s.addExternal key).map fun _ => .done
  | .removeExternal => s.removeExternal.map fun _ => .done
  | .upgradeStart => s.upgradeStart.map fun _ => .done
  | .upgradeApply seed => (s.upgradeApply seed).map fun _ => .done
  | .upgradeFinish => s.upgradeFinish.map fun _ => .done
  | .unlockVault request => (s.unlockVault request).map .key
  | .deriveVault request index => (s.deriveVault request index).map .key
  | .signDevice request data => (s.signDevice request data).map .bytes
  | .recovery request => (s.recovery request).map .recovery
  | .addBiometry request => (s.addBiometry request).map fun _ => .done

-- A refusal that needs neither the session nor the lock.
def refusal? : Operation → Option Failure
  | .signVault request factors _ _ _ => vaultRefusal? request factors
  | _ => none

-- How an operation uses a lock: it takes the lock and catches up with the store, it takes the lock
-- and replaces what is stored, or it works on memory alone.
inductive Access where
  | exclusive
  | overwriting
  | unlocked
  deriving DecidableEq, Repr

def access : Operation → Access
  | .reset => .overwriting
  | .deserialize _ | .setExternal _ => .unlocked
  | _ => .exclusive

end Operation

end DeviceAuth.Session
