import DeviceAuth.Proofs.Sharing.Upkeep

namespace DeviceAuth

open Activation

namespace Session

variable {s t before after : Session} {r : Record} {op : Operation} {plan : Plan Answer}

def Originated (s : Session) : Prop :=
  ∀ r, s.phase = .pendingCommit r →
    ∃ pending answered unlock draws, s.recordOf pending answered unlock draws = .ok r

theorem originated_of_idle (h : ∀ r, s.phase ≠ .pendingCommit r) : Originated s :=
  fun r hr => absurd hr (h r)

theorem Alike.recordOf (h : Alike s t) (pending : Pending) (answered : Response)
    (unlock : UnlockKeys) (draws : ValidationDraws) :
    t.recordOf pending answered unlock draws = s.recordOf pending answered unlock draws := by
  simp only [Session.recordOf, h.masterKey, h.externalKey]

theorem Originated.of_alike (h : Originated s) (halike : Alike s t) : Originated t := by
  intro r hr
  obtain ⟨pending, answered, unlock, draws, hrecord⟩ := h r (halike.pending r hr)
  exact ⟨pending, answered, unlock, draws, (halike.recordOf _ _ _ _).trans hrecord⟩

-- The keys of a pending activation do not depend on an external key that the session is given
-- later: it is refused then.
theorem originated_of_effect {σ : Type} {store : StoreActions σ} {key : String} {w : σ}
    (h : Effect s op plan) (hs : Originated s) : Originated (plan.perform store key w).session := by
  have hspent : Originated { s with vaultToken := none } :=
    hs.of_alike ⟨rfl, rfl, rfl, rfl, fun _ => id⟩
  cases h with
  | refused _ _ => exact hs
  | ended _ _ _ => exact originated_of_idle fun _ hr => by cases hr
  | spent _ _ _ => exact hspent
  | unreadable _ _ => exact originated_of_idle fun _ hr => by cases hr
  | alreadyConfirmed _ => exact hs
  | noBiometry _ _ => exact hs
  | sameHealth _ _ _ _ => exact hs
  | sameKey _ => exact hs
  | givenKey hnone hexternal =>
      refine originated_of_idle fun r hr => ?_
      obtain ⟨_, _, _, _, hrecord⟩ := hs r hr
      obtain ⟨-, _, _, _, -, -, -, rfl⟩ := recordOf_eq_ok.mp hrecord
      have hlayered := hexternal _ (record?_eq_some.mpr (.inl hr))
      simp [hnone] at hlayered
  | started _ _ _ => exact originated_of_idle fun _ hr => by cases hr
  | validated _ _ _ hrecord =>
      rintro _ ⟨⟩
      exact ⟨_, _, _, _, hrecord⟩
  | @loaded _ status _ => exact originated_of_idle fun _ hr => by cases status <;> cases hr
  | opened _ _ _ _ _ => exact hspent
  | biometryAdded _ _ _ _ _ _ _ _ _ =>
      exact Plan.session_of_write hspent (originated_of_idle fun _ hr => by cases hr)
  | _ => exact Plan.session_of_write hs (originated_of_idle fun _ hr => by cases hr)

theorem guarded_of_recordOf {pending : Pending} {answered : Response} {unlock : UnlockKeys}
    {draws : ValidationDraws} (h : s.recordOf pending answered unlock draws = .ok r) :
    ∃ serverKey keys held, P256.PublicKey.ofBytes answered.serverKey = .ok serverKey ∧
      DerivedKeys.derive (pending.privateKey.agree serverKey).bytes = .ok keys ∧
      held.unlock = unlock ∧ held.external = s.externalKey ∧ Rooted keys r ∧
      Guarded keys held r r := by
  obtain ⟨-, recovery, serverKey, locked, -, hserver, hlock, rfl⟩ := recordOf_eq_ok.mp h
  obtain ⟨held, hunlock, hexternal, hlocked⟩ := ProtectedKeys.lockedBy_lock hlock
  refine ⟨serverKey, _, held, hserver, derive_bytes _, hunlock, hexternal, ?_, ?_⟩
  · refine ⟨pending.privateKey, serverKey, ?_, hserver, rfl⟩
    rw [openPrivateKey, Gcm.opened_sealed]
    exact lift_eq_ok.mpr (P256.PrivateKey.ofBytes_bytes _)
  · exact ⟨hlocked, by rw [hexternal], ⟨rfl, rfl, rfl, rfl, rfl, rfl, rfl⟩⟩

end Session

namespace World

open Session

variable {p : Place} {keys : DerivedKeys} {held : Secrets} {r : Record} {w : World}
  {name : String} {m : Member} {op : Session.Operation} {a : Action}

theorem originated_run (h : Coherent p False w) (hm : w.members.get? name = some m)
    (hop : ∀ blob, op ≠ .deserialize blob) (horigin : Originated m.session) :
    Originated (m.session.run m.host op w.site).session := by
  cases (h.round hm hop).body with
  | keptOut why _ _ _ halike => exact horigin.of_alike halike
  | planned s w' _ halike _ _ hcarried =>
      exact (originated_of_effect (plan_effect s op) (horigin.of_alike halike)).of_alike
        hcarried.alike

theorem originated_of_reachable (h : Reachable p w) (hm : w.members.get? name = some m) :
    Originated m.session := by
  induction h generalizing name m with
  | start _ _ => cases hm
  | @act w a hreachable hp ih =>
      by_cases ha : ∃ n op, a = .perform n op
      · obtain ⟨n, op, rfl⟩ := ha
        cases hp with
        | perform hop =>
            cases hn : w.members.get? n with
            | none =>
                rw [act_perform_none hn] at hm
                exact ih hm
            | some before =>
                rw [act_perform hn] at hm
                rcases get?_attach hm with ⟨-, rfl⟩ | ⟨-, hold⟩
                · exact originated_run (coherent_of_reachable hreachable) hn hop (ih hn)
                · exact ih hold
      · rcases member_act (fun n op he => ha ⟨n, op, he⟩) hm with hold | harrived
        · exact ih hold
        · refine originated_of_idle fun r hr => ?_
          cases harrived with
          | created hphase =>
              rw [hphase] at hr
              cases hr
          | @resumed _ _ _ status hphase _ =>
              rw [hphase] at hr
              cases status <;> cases hr

theorem kept_of_confirm (h : Coherent p False w) (hm : w.members.get? name = some m)
    (hphase : m.session.phase = .pendingCommit r) (hw : w.Writes name .confirm)
    (hguard : Guarded keys held r r) (hexternal : held.external = m.session.externalKey)
    (hothers : ∀ n m', n ≠ name → w.members.get? n = some m' →
      held.Admits m'.session.externalKey) :
    Kept p keys held r (w.act p (.perform name .confirm)) := by
  have hcoherent := (confirm_writes h hw).1
  obtain ⟨m', hm', hmod⟩ := hw
  rw [hm] at hm'
  cases hm'
  obtain ⟨_, hpending, -, hstatus, -, hkey⟩ := run_confirm h hm hmod
  rw [hphase] at hpending
  cases hpending
  rw [act_perform hm] at hcoherent ⊢
  refine ⟨hcoherent, ⟨r, hstatus, hguard⟩, fun n m' hn => ?_⟩
  rcases get?_attach hn with ⟨-, rfl⟩ | ⟨hne, hold⟩
  · intro e he
    exact .inr (hkey.trans (hexternal.symm.trans he))
  · exact hothers n m' hne hold

end World

end DeviceAuth
