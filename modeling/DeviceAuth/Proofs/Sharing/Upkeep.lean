import DeviceAuth.Proofs.Base64
import DeviceAuth.Proofs.Sharing.Signing

namespace DeviceAuth

open Activation Session

namespace Secrets

variable {held : Secrets} {cached : Option Key} {op : Session.Operation}
  {answer : Except Failure Answer}

def changed (held : Secrets) : Session.Operation → Secrets
  | .changePassword _ new _ => { held with password := new }
  | .addBiometry request => { held with biometry := request.unlock.biometry }
  | .addExternal key => { held with external := some key }
  | .removeExternal => { held with external := none }
  | _ => held

def after (held : Secrets) (op : Session.Operation) : Except Failure Answer → Secrets
  | .ok _ => held.changed op
  | .error _ => held

def Admits (held : Secrets) (cached : Option Key) : Prop :=
  ∀ e, held.external = some e → cached = none ∨ cached = some e

theorem Admits.after (h : held.Admits cached)
    (hadded : ∀ key, op = .addExternal key → cached = none ∨ cached = some key) :
    (held.after op answer).Admits cached := by
  cases answer with
  | error why => exact h
  | ok a =>
      intro e he
      cases op with
      | addExternal added =>
          cases he
          exact hadded _ rfl
      | removeExternal => cases he
      | _ => exact h e he

end Secrets

namespace Session

structure Unaltered (r₀ r : Record) : Prop where
  id : r.id = r₀.id
  serverKey : r.serverKey = r₀.serverKey
  deviceKey : r.deviceKey = r₀.deviceKey
  possession : r.keys.possession = r₀.keys.possession
  transport : r.keys.transport = r₀.keys.transport
  privateKey : r.sealedPrivateKey = r₀.sealedPrivateKey
  recovery : r.sealedRecovery = r₀.sealedRecovery

def Rooted (keys : DerivedKeys) (r : Record) : Prop :=
  ∃ device serverKey, openPrivateKey r keys.vault = .ok device ∧
    P256.PublicKey.ofBytes r.serverKey = .ok serverKey ∧
    DerivedKeys.ofSecret (device.agree serverKey).bytes = keys

theorem Rooted.of_unaltered {keys : DerivedKeys} {r₀ r : Record} (h : Rooted keys r₀)
    (hr : Unaltered r₀ r) : Rooted keys r := by
  obtain ⟨device, serverKey, hdevice, hserver, hkeys⟩ := h
  refine ⟨device, serverKey, ?_, hr.serverKey ▸ hserver, hkeys⟩
  rw [openPrivateKey, hr.privateKey]
  exact hdevice

structure Guarded (keys : DerivedKeys) (held : Secrets) (r₀ r : Record) : Prop where
  locked : ProtectedKeys.LockedBy keys held r.keys
  external : r.external = held.external.isSome
  unaltered : Unaltered r₀ r

variable {keys : DerivedKeys} {held held' : Secrets} {r₀ r r' : Record}

theorem Guarded.moved (h : Guarded keys held r₀ r) (counter : Counter) (health : Health)
    (pendingUpgrade : Option Version) :
    Guarded keys held r₀ { r with counter, health, pendingUpgrade } := by
  have hu := h.unaltered
  exact ⟨h.locked, h.external, hu.id, hu.serverKey, hu.deviceKey, hu.possession, hu.transport,
    hu.privateKey, hu.recovery⟩

theorem Guarded.relocked (h : Guarded keys held r₀ r) {p : ProtectedKeys} {external : Bool}
    (hlocked : ProtectedKeys.LockedBy keys held' p) (hsame : held'.possession = held.possession)
    (hexternal : external = held'.external.isSome) :
    Guarded keys held' r₀ { r with keys := p, external := external } := by
  have hu := h.unaltered
  refine ⟨hlocked, hexternal, hu.id, hu.serverKey, hu.deviceKey, ?_, ?_, hu.privateKey,
    hu.recovery⟩
  · rw [← hu.possession, h.locked.possession, hlocked.possession, hsame]
  · rw [← hu.transport, h.locked.transport, hlocked.transport, hsame]

theorem external_of_admits {s : Session} {external : Option Key} (h : Guarded keys held r₀ r)
    (hadmits : held.Admits s.externalKey) (hgiven : s.externalKeyFor r = .ok external) :
    external = held.external := by
  unfold externalKeyFor at hgiven
  rw [h.external] at hgiven
  cases hheld : held.external with
  | none =>
      simp only [hheld, Option.isSome_none, Bool.false_eq_true, if_false] at hgiven
      exact (Except.ok.inj hgiven).symm
  | some e =>
      simp only [hheld, Option.isSome_some, if_true] at hgiven
      rcases hadmits e hheld with hnone | hsome
      · rw [hnone] at hgiven
        cases hgiven
      · rw [hsome] at hgiven
        exact (Except.ok.inj hgiven).symm

-- The operation ends nothing, and uses the secrets as they are.
def Operation.Careful (keys : DerivedKeys) (held : Secrets) (r : Record) : Operation → Prop
  | .remove | .reset | .deserialize _ => False
  | .applyStatus encrypted unlock => ∀ transport status,
      r.keys.unlockTransport unlock = .ok transport → readStatus transport encrypted = .ok status →
      status.state ≠ .removed
  | .changePassword old _ _ => old = held.password
  | .setExternal key => held.external = some key
  | .addBiometry request => ∀ key,
      openVaultKey r request.encryptedKey request.unlock = .ok key → key = keys.vault
  | _ => True

theorem careful_addBiometry {request : VaultRequest}
    (htransport : r.keys.unlockTransport request.unlock = .ok keys.transport)
    (hgiven : request.encryptedKey = Base64.encode
      (Cbc.encryptPadded (Aes.Schedule.ofLong keys.transport) (Fixed.zero 16) keys.vault.bytes)) :
    (Operation.addBiometry request).Careful keys held r := by
  intro key hopened
  obtain ⟨transport, hopen, hopened⟩ := bind_eq_ok.mp hopened
  obtain ⟨sealedKey, hdecode, hopened⟩ := bind_eq_ok.mp hopened
  obtain ⟨plain, hplain, hopened⟩ := bind_eq_ok.mp hopened
  obtain rfl := Except.ok.inj (htransport.symm.trans hopen)
  rw [hgiven, mapError_eq_ok, Base64.decode_encode] at hdecode
  obtain rfl := Except.ok.inj hdecode
  rw [lift_eq_ok, mapError_eq_ok, Cbc.decryptPadded_encryptPadded] at hplain
  obtain rfl := Except.ok.inj hplain
  rw [Fixed.ofBytes?_bytes] at hopened
  obtain ⟨_, -, hkey⟩ := bind_eq_ok.mp hopened
  exact (Except.ok.inj hkey).symm

theorem not_deserialize_of_careful {op : Operation} (h : op.Careful keys held r) (blob : Bytes) :
    op ≠ .deserialize blob := by
  rintro rfl
  exact h

theorem Plan.map_eq_keep {α β : Type} {plan : Plan α} {f : α → β} {t : Session} {b : β}
    (h : plan.map f = .keep t b) : ∃ a, plan = .keep t a ∧ f a = b := by
  cases plan with
  | keep s a =>
      cases h
      exact ⟨a, rfl, rfl⟩
  | _ => cases h

theorem addBiometry_ne_keep {request : VaultRequest} {s t : Session} {a : Unit} :
    s.addBiometry request ≠ .keep t a := by
  have hrefused (s : Session) (why : Failure) : Plan.refuse s why ≠ .keep t a := nofun
  unfold addBiometry withVault
  split
  next => exact hrefused _ _
  next =>
    split
    next => exact hrefused _ _
    next =>
      dsimp only
      split
      next =>
        refine Plan.orRefuse_bind (P := (· ≠ .keep t a)) (hrefused _) fun vaultKey _ => ?_
        refine Plan.orRefuse_bind (P := (· ≠ .keep t a)) (hrefused _) fun privateKey _ => ?_
        refine Plan.orRefuse_bind (P := (· ≠ .keep t a)) (hrefused _) fun serverKey _ => ?_
        refine Plan.orRefuse_guard (P := (· ≠ .keep t a)) (hrefused _) fun _ => ?_
        refine Plan.orRefuse_bind (P := (· ≠ .keep t a)) (hrefused _) fun external _ => ?_
        refine Plan.orRefuse_bind (P := (· ≠ .keep t a)) (hrefused _) fun locked _ => ?_
        exact nofun
      next => exact hrefused _ _

structure Upkept (p : Place) (keys : DerivedKeys) (held : Secrets) (r₀ : Record)
    (o : Outcome Site Answer) : Prop where
  stored : ∃ r, p.status o.state = .ok (.activated r) ∧ Guarded keys held r₀ r
  admits : held.Admits o.session.externalKey

section Step

variable {p : Place} {w' : Site} {s t : Session} {op : Operation} {o : Outcome Site Answer}

theorem upkept_of_refuse {after : Session} {why : Failure} (hc : Carried p w' (.refuse after why) o)
    (hstatus : p.status w' = .ok (.activated r)) (hguard : Guarded keys held r₀ r)
    (hadmits : held.Admits after.externalKey) : Upkept p keys (held.after op o.answer) r₀ o := by
  have hkey : o.session.externalKey = after.externalKey := hc.alike.externalKey
  rw [hc.of_refuse.1]
  exact ⟨⟨r, hc.of_refuse.2.trans hstatus, hguard⟩, hkey ▸ hadmits⟩

theorem upkept_of_keep {after : Session} {a : Answer} (hc : Carried p w' (.keep after a) o)
    (hstatus : p.status w' = .ok (.activated r)) (hguard : Guarded keys held r₀ r)
    (hadmits : held.Admits after.externalKey) (hsame : held.changed op = held) :
    Upkept p keys (held.after op o.answer) r₀ o := by
  have hkey : o.session.externalKey = after.externalKey := hc.alike.externalKey
  rw [hc.of_keep.1, Secrets.after, hsame]
  exact ⟨⟨r, hc.of_keep.2.trans hstatus, hguard⟩, hkey ▸ hadmits⟩

theorem upkept_of_write {before after : Session} {a : Answer}
    (hc : Carried p w' (.write before (.save (.activated r')) after a) o)
    (hs : (StoredStatus.activated r').Storable) (hstatus : p.status w' = .ok (.activated r))
    (hguard : Guarded keys held r₀ r) (hbefore : held.Admits before.externalKey)
    (hdone : Guarded keys (held.changed op) r₀ r')
    (hafter : (held.changed op).Admits after.externalKey) :
    Upkept p keys (held.after op o.answer) r₀ o := by
  rcases hc.of_write hs with ⟨why, ha, hkept, halike⟩ | ⟨ha, hsaved, halike⟩
  · rw [ha]
    exact ⟨⟨r, hkept.trans hstatus, hguard⟩, halike.externalKey ▸ hbefore⟩
  · rw [ha]
    exact ⟨⟨r', hsaved, hdone⟩, halike.externalKey ▸ hafter⟩

theorem guarded_of_passwordChanged {new : Password} {salt : Fixed 16} {external : Option Key}
    {q : ProtectedKeys} (hguard : Guarded keys held r₀ r) (hadmits : held.Admits s.externalKey)
    (hexternal : s.externalKeyFor r = .ok external)
    (hq : r.keys.changePassword held.password new external salt = .ok q) :
    Guarded keys { held with password := new } r₀ { r with keys := q } := by
  rw [external_of_admits hguard hadmits hexternal] at hq
  exact hguard.relocked (hguard.locked.changePassword hq) rfl hguard.external

theorem guarded_of_biometryAdded {request : VaultRequest} {unlockKey vaultKey : Key}
    {privateKey : P256.PrivateKey} {serverKey : P256.PublicKey} {external : Option Key}
    {locked : Bytes} (hguard : Guarded keys held r₀ r) (hrooted : Rooted keys r₀)
    (hadmits : held.Admits s.externalKey)
    (hunlock : request.unlock.requireBiometry = .ok unlockKey) (hvault : vaultKey = keys.vault)
    (hprivate : openPrivateKey r vaultKey = .ok privateKey)
    (hserver : P256.PublicKey.ofBytes r.serverKey = .ok serverKey)
    (hexternal : s.externalKeyFor r = .ok external)
    (hlocked : ProtectedKeys.lockBiometry
      (DerivedKeys.ofSecret (privateKey.agree serverKey).bytes).biometry unlockKey external =
        .ok locked) :
    Guarded keys { held with biometry := request.unlock.biometry } r₀
      { r with keys := { r.keys with biometry := some locked } } := by
  obtain ⟨device, known, hdevice, hknown, hkeys⟩ := hrooted.of_unaltered hguard.unaltered
  rw [hvault, hdevice] at hprivate
  rw [hknown] at hserver
  obtain rfl := Except.ok.inj hprivate
  obtain rfl := Except.ok.inj hserver
  rw [hkeys, external_of_admits hguard hadmits hexternal] at hlocked
  obtain ⟨hgiven, hnonzero⟩ := ProtectedKeys.usable_eq_ok.mp hunlock
  rw [hgiven]
  exact hguard.relocked (hguard.locked.addBiometry hnonzero hlocked) rfl hguard.external

theorem guarded_of_externalAdded {key : Key} {q : ProtectedKeys}
    (hguard : Guarded keys held r₀ r) (hunused : r.external = false)
    (hq : r.keys.addExternal key = (.ok (), q)) :
    Guarded keys { held with external := some key } r₀ { r with keys := q, external := true } := by
  have hnone : held.external = none := by
    have hexternal := hguard.external
    rw [hunused] at hexternal
    simpa using hexternal.symm
  exact hguard.relocked (hguard.locked.addExternal hnone hq) rfl rfl

theorem guarded_of_externalRemoved {key : Key} {q : ProtectedKeys}
    (hguard : Guarded keys held r₀ r) (hadmits : held.Admits s.externalKey)
    (hused : r.external = true) (hkey : s.externalKey = some key)
    (hq : r.keys.removeExternal key = (.ok (), q)) :
    Guarded keys { held with external := none } r₀ { r with keys := q, external := false } := by
  have hgiven : s.externalKeyFor r = .ok (some key) := by
    rw [externalKeyFor, hused, hkey]
    rfl
  have hheld := external_of_admits hguard hadmits hgiven
  exact hguard.relocked (hguard.locked.removeExternal hheld.symm hq) rfl rfl

theorem upkept_of_effect {plan : Plan Answer} (h : Effect t op plan) (hplan : op.plan t = plan)
    (hfaithful : plan.Faithful t) (hcareful : op.Careful keys held r) (hrooted : Rooted keys r₀)
    (hphase : op.access = .exclusive → t.phase = .active r) (hguard : Guarded keys held r₀ r)
    (hadmits : held.Admits t.externalKey) (hstatus : p.status w' = .ok (.activated r))
    (hc : Carried p w' plan o) : Upkept p keys (held.after op o.answer) r₀ o := by
  have hactive {r' : Record} (hexclusive : op.access = .exclusive) (hr' : t.phase = .active r') :
      r' = r := by
    rw [hphase hexclusive] at hr'
    cases hr'
    rfl
  cases h with
  | refused _ _ => exact upkept_of_refuse hc hstatus hguard hadmits
  | ended _ _ _ => exact upkept_of_refuse hc hstatus hguard hadmits
  | spent _ _ _ => exact upkept_of_refuse hc hstatus hguard hadmits
  | unreadable _ _ => exact absurd hcareful id
  | loaded _ => exact absurd hcareful id
  | discarded _ _ => exact absurd hcareful id
  | cleared => exact absurd hcareful id
  | reportedGone hp ht hs hgone =>
      rw [hactive rfl hp] at ht
      exact absurd hgone (hcareful _ _ ht hs)
  | alreadyConfirmed _ => exact upkept_of_keep hc hstatus hguard hadmits rfl
  | noBiometry _ _ => exact upkept_of_keep hc hstatus hguard hadmits rfl
  | sameHealth _ _ _ _ => exact upkept_of_keep hc hstatus hguard hadmits rfl
  | sameKey _ => exact upkept_of_keep hc hstatus hguard hadmits rfl
  | started _ _ _ => exact upkept_of_keep hc hstatus hguard hadmits rfl
  | validated _ _ _ _ => exact upkept_of_keep hc hstatus hguard hadmits rfl
  | @givenKey key _ _ =>
      have hkey : held.external = some key := hcareful
      exact upkept_of_keep hc hstatus hguard (fun e he => .inr (hkey.symm.trans he)) rfl
  | opened a hrequest _ _ _ =>
      have hsame : held.changed op = held := by
        cases op with
        | addBiometry request =>
            obtain ⟨_, hkeep, -⟩ := Plan.map_eq_keep hplan
            exact absurd hkeep addBiometry_ne_keep
        | _ => first | rfl | cases hrequest
      exact upkept_of_keep hc hstatus hguard hadmits hsame
  | confirmed hp =>
      rw [hphase rfl] at hp
      cases hp
  | signed hr _ =>
      obtain rfl := hactive rfl (valid_phase hr)
      exact upkept_of_write hc hfaithful.storable hstatus hguard hadmits
        (hguard.moved _ _ _) hadmits
  | vaultSigned hr _ =>
      obtain rfl := hactive rfl (valid_phase hr)
      exact upkept_of_write hc hfaithful.storable hstatus hguard hadmits
        (hguard.moved _ _ _) hadmits
  | reported hp _ _ _ _ =>
      obtain rfl := hactive rfl hp
      exact upkept_of_write hc hfaithful.storable hstatus hguard hadmits
        (hguard.moved _ _ _) hadmits
  | upgradeStarted hr _ _ =>
      obtain rfl := hactive rfl (valid_phase hr)
      exact upkept_of_write hc hfaithful.storable hstatus hguard hadmits
        (hguard.moved _ _ _) hadmits
  | upgradeApplied hr _ _ _ =>
      obtain rfl := hactive rfl (valid_phase hr)
      exact upkept_of_write hc hfaithful.storable hstatus hguard hadmits
        (hguard.moved _ _ _) hadmits
  | upgradeFinished hr _ _ =>
      obtain rfl := hactive rfl (valid_phase hr)
      exact upkept_of_write hc hfaithful.storable hstatus hguard hadmits
        (hguard.moved _ _ _) hadmits
  | passwordChanged hp hexternal hq =>
      obtain rfl := hactive rfl hp
      obtain rfl : _ = held.password := hcareful
      exact upkept_of_write hc hfaithful.storable hstatus hguard hadmits
        (guarded_of_passwordChanged hguard hadmits hexternal hq) hadmits
  | biometryRemoved hp =>
      obtain rfl := hactive rfl hp
      exact upkept_of_write hc hfaithful.storable hstatus hguard hadmits
        (hguard.relocked hguard.locked.removeBiometry rfl hguard.external) hadmits
  | externalAdded hp hunused hq =>
      obtain rfl := hactive rfl hp
      exact upkept_of_write hc hfaithful.storable hstatus hguard hadmits
        (guarded_of_externalAdded hguard hunused hq) fun _ he => .inr he
  | externalRemoved hp hused hkey hq =>
      obtain rfl := hactive rfl hp
      exact upkept_of_write hc hfaithful.storable hstatus hguard hadmits
        (guarded_of_externalRemoved hguard hadmits hused hkey hq) fun _ _ => .inl rfl
  | biometryAdded hr _ hunlock hvault hprivate hserver _ hexternal hlocked =>
      obtain rfl := hactive rfl (valid_phase hr)
      exact upkept_of_write hc hfaithful.storable hstatus hguard hadmits
        (guarded_of_biometryAdded hguard hrooted hadmits hunlock (hcareful _ hvault) hprivate
          hserver hexternal hlocked) hadmits

end Step

end Session

namespace World

variable {p : Place} {keys : DerivedKeys} {held held₀ : Secrets} {r r₀ : Record} {w w₀ : World}
  {name : String} {m : Member} {op : Session.Operation} {a : Action}

theorem upkept_perform (h : Coherent p True w) (hm : w.members.get? name = some m)
    (hcareful : op.Careful keys held r) (hrooted : Rooted keys r₀)
    (hstatus : p.status w.site = .ok (.activated r)) (hguard : Guarded keys held r₀ r)
    (hadmits : held.Admits m.session.externalKey) :
    Upkept p keys (held.after op (m.session.run m.host op w.site).answer) r₀
      (m.session.run m.host op w.site) := by
  have hop := not_deserialize_of_careful hcareful
  cases stored_run h hm hop hstatus with
  | keptOut why ha hkept halike =>
      rw [ha]
      exact ⟨⟨r, hkept, hguard⟩, halike.externalKey ▸ hadmits⟩
  | planned s w' hsound halike hbefore hphase hcarried =>
      exact upkept_of_effect (plan_effect s op) rfl (plan_faithful op hsound hop) hcareful hrooted
        hphase hguard (halike.externalKey ▸ hadmits) hbefore hcarried

structure Kept (p : Place) (keys : DerivedKeys) (held : Secrets) (r₀ : Record) (w : World) :
    Prop where
  coherent : Coherent p True w
  stored : ∃ r, p.status w.site = .ok (.activated r) ∧ Guarded keys held r₀ r
  admits : ∀ n m, w.members.get? n = some m → held.Admits m.session.externalKey

def heldAfter (w : World) (held : Secrets) : Action → Secrets
  | .perform name op =>
      match w.perform name op with
      | some (answer, _) => held.after op answer
      | none => held
  | _ => held

theorem heldAfter_perform (hm : w.members.get? name = some m) :
    w.heldAfter held (.perform name op) =
      held.after op (m.session.run m.host op w.site).answer := by
  rw [heldAfter, perform, hm]
  rfl

theorem heldAfter_of_answer {answer : Answer}
    (h : (w.perform name op).map Prod.fst = some (.ok answer)) :
    w.heldAfter held (.perform name op) = held.changed op := by
  obtain ⟨⟨_, after⟩, hperform, rfl⟩ := Option.map_eq_some_iff.mp h
  rw [heldAfter, hperform]
  rfl

theorem heldAfter_of_unchanged (h : held.changed op = held) :
    w.heldAfter held (.perform name op) = held := by
  rw [heldAfter]
  split
  next answer _ _ =>
    cases answer with
    | ok a => exact h
    | error why => rfl
  next => rfl

-- Each action uses the secrets as they are, and a session is only opened with the external key in
-- use or without one.
def Careful (p : Place) (keys : DerivedKeys) (held : Secrets) (w : World) : Action → Prop
  | .perform _ op => ∀ r, p.status w.site = .ok (.activated r) → op.Careful keys held r
  | .resume _ _ setup _ => setup.externalKey = none ∨ setup.externalKey = held.external
  | .create .. => False
  | _ => True

-- An external key is added when no other session has a different one.
def Settled (w : World) : Action → Prop
  | .perform name (.addExternal key) => ∀ n m, n ≠ name → w.members.get? n = some m →
      m.session.externalKey = none ∨ m.session.externalKey = some key
  | _ => True

theorem reads_of_careful (h : Careful p keys held w a) : a.reads := by
  cases a with
  | create name config setup => exact h
  | _ => trivial

theorem externalKey_resume {setup : Setup} {config : Config}
    {stored : Except StoreFault (Option Bytes)} {s : Session}
    (h : Session.resume setup config stored = .ok s) : s.externalKey = setup.externalKey := by
  obtain ⟨made, hmade, h⟩ := bind_eq_ok.mp h
  obtain ⟨_, -, hnew⟩ := bind_eq_ok.mp hmade
  cases hnew
  obtain ⟨blob, -, h⟩ := bind_eq_ok.mp h
  cases blob with
  | none =>
      cases h
      rfl
  | some b =>
      obtain ⟨_, -, hs⟩ := bind_eq_ok.mp h
      cases hs
      rfl

inductive Arrived (n : String) (s : Session) : Action → Prop
  | created {config : Config} {setup : Setup} :
      s.phase = .empty → Arrived n s (.create n config setup)
  | resumed {config : Config} {setup : Setup} {handle : Option String} {status : StoredStatus} :
      s.phase = .ofStored status → s.externalKey = setup.externalKey →
      Arrived n s (.resume n config setup handle)

theorem members_shareLock (w : World) (name source : String) :
    ((w.shareLock name source).getD w).members = w.members := by
  rw [shareLock]
  cases w.handles.get? source <;> rfl

theorem member_act (ha : ∀ name op, a ≠ .perform name op) {n : String}
    (hn : (w.act p a).members.get? n = some m) :
    w.members.get? n = some m ∨ Arrived n m.session a := by
  cases a with
  | share name source =>
      rw [act, members_shareLock] at hn
      exact .inl hn
  | create name config setup =>
      rw [act] at hn
      cases hmade : Session.new setup config with
      | error why =>
          rw [hmade] at hn
          exact .inl hn
      | ok s =>
          rw [hmade] at hn
          rcases get?_attach hn with ⟨rfl, rfl⟩ | ⟨-, hold⟩
          · exact .inr (.created (storageName_new hmade).2.1)
          · exact .inl hold
  | resume name config setup handle =>
      rw [act] at hn
      cases hopen : w.openSession config setup p.store with
      | error why =>
          rw [hopen] at hn
          exact .inl hn
      | ok s =>
          rw [hopen] at hn
          rcases get?_attach hn with ⟨rfl, rfl⟩ | ⟨-, hold⟩
          · obtain ⟨-, -, _, _, -, -, hphase⟩ := resume_eq_ok hopen
            exact .inr (.resumed hphase (externalKey_resume hopen))
          · exact .inl hold
  | perform name op => exact absurd rfl (ha name op)
  | close name =>
      change (w.members.erase name).get? n = some m at hn
      rw [Registry.get?_erase] at hn
      split at hn
      · cases hn
      · exact .inl hn
  | fail reads writes => exact .inl hn

theorem kept_perform (h : Kept p keys held r₀ w) (hrooted : Rooted keys r₀)
    (hcareful : Careful p keys held w (.perform name op))
    (hsettled : w.Settled (.perform name op)) :
    Kept p keys (w.heldAfter held (.perform name op)) r₀ (w.act p (.perform name op)) := by
  obtain ⟨r, hstatus, hguard⟩ := h.stored
  have hop := hcareful r hstatus
  have hafter : Coherent p True (w.act p (.perform name op)) :=
    coherent_perform h.coherent (not_deserialize_of_careful hop)
  cases hm : w.members.get? name with
  | none =>
      have hsame : w.heldAfter held (.perform name op) = held := by
        rw [heldAfter, perform, hm]
        rfl
      rw [hsame, act_perform_none hm]
      exact h
  | some m =>
      have hupkept := upkept_perform h.coherent hm hop hrooted hstatus hguard (h.admits name m hm)
      rw [heldAfter_perform hm]
      rw [act_perform hm] at hafter ⊢
      refine ⟨hafter, hupkept.stored, ?_⟩
      intro n m' hn
      rcases get?_attach hn with ⟨-, rfl⟩ | ⟨hne, hold⟩
      · exact hupkept.admits
      · refine (h.admits n m' hold).after ?_
        rintro key rfl
        exact hsettled n m' hne hold

theorem kept_act (h : Kept p keys held r₀ w) (hrooted : Rooted keys r₀) (hp : Permits p w a)
    (hcareful : Careful p keys held w a) (hsettled : w.Settled a) :
    Kept p keys (w.heldAfter held a) r₀ (w.act p a) := by
  by_cases ha : ∃ name op, a = .perform name op
  · obtain ⟨name, op, rfl⟩ := ha
    exact kept_perform h hrooted hcareful hsettled
  · have hnot (name : String) (op : Session.Operation) : a ≠ .perform name op :=
      fun he => ha ⟨name, op, he⟩
    have hreads := reads_of_careful hcareful
    have hheld : w.heldAfter held a = held := by
      cases a with
      | perform name op => exact absurd rfl (hnot name op)
      | _ => rfl
    rw [hheld]
    refine ⟨coherent_act h.coherent hp fun _ => hreads, ?_, ?_⟩
    · rw [status_act h.coherent hnot]
      exact h.stored
    · intro n m hn
      rcases member_act hnot hn with hold | harrived
      · exact h.admits n m hold
      · intro e he
        cases harrived with
        | created _ => exact absurd hcareful id
        | resumed _ hkey =>
            rw [hkey]
            exact hcareful.imp id fun hsame => hsame.trans he

def Considerate (p : Place) (keys : DerivedKeys) (held : Secrets) (w : World) (a : Action) : Prop :=
  Careful p keys held w a ∧ w.Settled a

-- A run of allowed actions, with the secrets that open the keys along it.
inductive Upkeep (p : Place) (allowed : Secrets → World → Action → Prop) (held₀ : Secrets)
    (w₀ : World) : Secrets → World → Prop
  | start : Upkeep p allowed held₀ w₀ held₀ w₀
  | act {held : Secrets} {w : World} {a : Action} :
      Upkeep p allowed held₀ w₀ held w → Permits p w a → allowed held w a →
      Upkeep p allowed held₀ w₀ (w.heldAfter held a) (w.act p a)

theorem kept_of_upkeep (h : Kept p keys held₀ r₀ w₀) (hrooted : Rooted keys r₀)
    (hrun : Upkeep p (Considerate p keys) held₀ w₀ held w) : Kept p keys held r₀ w := by
  induction hrun with
  | start => exact h
  | act _ hp hallowed ih =>
      obtain ⟨hcareful, hsettled⟩ := hallowed
      exact kept_act ih hrooted hp hcareful hsettled

def Accessible (p : Place) (keys : DerivedKeys) (held : Secrets) (r₀ : Record) (w : World) : Prop :=
  ∃ r, p.status w.site = .ok (.activated r) ∧ r.external = held.external.isSome ∧
    (∀ f, (f = .biometry → r.keys.biometry ≠ none) →
      r.keys.unlockFactor held.unlock held.external f = .ok (ProtectedKeys.factorKey keys f)) ∧
    (∀ factors : FactorSet, factors.allowed = true →
      (factors.biometry = true → r.keys.biometry ≠ none) →
      r.keys.unlock factors held.unlock held.external =
        .ok (ProtectedKeys.chosen keys factors)) ∧
    r.keys.unlockTransport held.unlock = .ok keys.transport ∧ Unaltered r₀ r

theorem Kept.accessible (h : Kept p keys held r₀ w) : Accessible p keys held r₀ w := by
  obtain ⟨r, hstatus, hguard⟩ := h.stored
  exact ⟨r, hstatus, hguard.external, fun _ => hguard.locked.unlockFactor,
    fun _ => hguard.locked.unlock, hguard.locked.unlockTransport, hguard.unaltered⟩

end World

end DeviceAuth
