import DeviceAuth.Proofs.Sharing.Upkeep

namespace DeviceAuth

open Activation

namespace ProtectedKeys

variable {p q : ProtectedKeys}

theorem changePassword_keeps {old new : Password} {external : Option Key} {salt : Fixed 16}
    (h : p.changePassword old new external salt = .ok q) :
    q.possession = p.possession ∧ q.transport = p.transport := by
  obtain ⟨_, -, h⟩ := bind_eq_ok.mp h
  obtain ⟨_, -, h⟩ := bind_eq_ok.mp h
  cases h
  exact ⟨rfl, rfl⟩

theorem relayer_keeps {layer : Bytes → Except Failure Bytes} (h : relayer layer p = (.ok (), q)) :
    q.possession = p.possession ∧ q.transport = p.transport := by
  unfold relayer at h
  split at h
  next => cases h
  next =>
    dsimp only at h
    split at h
    next =>
      cases h
      exact ⟨rfl, rfl⟩
    next =>
      split at h
      next => cases h
      next =>
        cases h
        exact ⟨rfl, rfl⟩

end ProtectedKeys

namespace Session

variable {s before after : Session} {op : Operation} {change : Change} {a : Answer} {r r' : Record}

theorem Unaltered.refl (r : Record) : Unaltered r r :=
  ⟨rfl, rfl, rfl, rfl, rfl, rfl, rfl⟩

theorem Unaltered.trans {r₀ : Record} (h : Unaltered r₀ r) (h' : Unaltered r r') :
    Unaltered r₀ r' where
  id := h'.id.trans h.id
  serverKey := h'.serverKey.trans h.serverKey
  deviceKey := h'.deviceKey.trans h.deviceKey
  possession := h'.possession.trans h.possession
  transport := h'.transport.trans h.transport
  privateKey := h'.privateKey.trans h.privateKey
  recovery := h'.recovery.trans h.recovery

theorem phase_of_write (h : Effect s op (.write before change after a)) :
    after.phase = .ofStored change.status := by
  cases h <;> rfl

theorem exclusive_of_write (h : Effect s op (.write before change after a))
    (hstatus : change.status = .activated r') : op.access = .exclusive := by
  cases h <;> first | rfl | cases hstatus

theorem unaltered_of_write (h : Effect s op (.write before change after a))
    (hphase : s.phase = .active r) (hafter : after.phase = .active r') : Unaltered r r' := by
  have hactive {r₁ : Record} (hr₁ : s.phase = .active r₁) : r₁ = r := by
    rw [hphase] at hr₁
    cases hr₁
    rfl
  have hkeys {q : ProtectedKeys} (external : Bool)
      (hq : q.possession = r.keys.possession ∧ q.transport = r.keys.transport) :
      Unaltered r { r with keys := q, external := external } :=
    ⟨rfl, rfl, rfl, hq.1, hq.2, rfl, rfl⟩
  cases h with
  | confirmed hp =>
      rw [hphase] at hp
      cases hp
  | discarded _ _ => cases hafter
  | reportedGone _ _ _ _ => cases hafter
  | cleared => cases hafter
  | signed hr _ | vaultSigned hr _ | upgradeStarted hr _ _ | upgradeApplied hr _ _ _
  | upgradeFinished hr _ _ =>
      obtain rfl := hactive (valid_phase hr)
      cases hafter
      exact ⟨rfl, rfl, rfl, rfl, rfl, rfl, rfl⟩
  | reported hp _ _ _ _ =>
      obtain rfl := hactive hp
      cases hafter
      exact ⟨rfl, rfl, rfl, rfl, rfl, rfl, rfl⟩
  | passwordChanged hp _ hq =>
      obtain rfl := hactive hp
      cases hafter
      exact hkeys _ (ProtectedKeys.changePassword_keeps hq)
  | biometryRemoved hp =>
      obtain rfl := hactive hp
      cases hafter
      exact hkeys _ ⟨rfl, rfl⟩
  | externalAdded hp _ hq =>
      obtain rfl := hactive hp
      cases hafter
      exact hkeys _ (ProtectedKeys.relayer_keeps hq)
  | externalRemoved hp _ _ hq =>
      obtain rfl := hactive hp
      cases hafter
      exact hkeys _ (ProtectedKeys.relayer_keeps hq)
  | biometryAdded hr _ _ _ _ _ _ _ _ =>
      obtain rfl := hactive (valid_phase hr)
      cases hafter
      exact hkeys _ ⟨rfl, rfl⟩

end Session

namespace World

open Session Counter

variable {p : Place} {w w' : World} {name : String} {m : Member} {r r' : Record}
  {op : Session.Operation}

theorem unaltered_run (h : Coherent p True w) (hm : w.members.get? name = some m)
    (hop : ∀ blob, op ≠ .deserialize blob) (hstatus : p.status w.site = .ok (.activated r))
    (hafter : p.status (m.session.run m.host op w.site).state = .ok (.activated r')) :
    Unaltered r r' := by
  have hsame {site : Site} (hsite : p.status site = .ok (.activated r))
      (hsite' : p.status site = .ok (.activated r')) : Unaltered r r' := by
    rw [hsite] at hsite'
    cases hsite'
    exact .refl r
  cases stored_run h hm hop hstatus with
  | keptOut why _ hkept _ => exact hsame hkept hafter
  | planned s w' hsound _ hbefore hphase hcarried =>
      have heffect := plan_effect s op
      have hfaithful := plan_faithful op hsound hop
      generalize op.plan s = plan at heffect hfaithful hcarried
      cases plan with
      | refuse _ _ => exact hsame (hcarried.of_refuse.2.trans hbefore) hafter
      | keep _ _ => exact hsame (hcarried.of_keep.2.trans hbefore) hafter
      | write before change after a =>
          rcases hcarried.of_write hfaithful.storable with ⟨why, _, hkept, _⟩ | ⟨_, hsaved, _⟩
          · exact hsame (hkept.trans hbefore) hafter
          · have hwritten : change.status = .activated r' := Except.ok.inj (hsaved.symm.trans hafter)
            have hactive := phase_of_write heffect
            rw [hwritten] at hactive
            exact unaltered_of_write heffect (hphase (exclusive_of_write heffect hwritten)) hactive

theorem unaltered_act (h : Coherent p True w) {a : Action} (hp : Permits p w a)
    (hstatus : p.status w.site = .ok (.activated r))
    (hafter : p.status (w.act p a).site = .ok (.activated r')) : Unaltered r r' := by
  have hsame (hkept : p.status (w.act p a).site = p.status w.site) : Unaltered r r' := by
    rw [hkept, hstatus] at hafter
    cases hafter
    exact .refl r
  by_cases ha : ∃ name op, a = .perform name op
  · obtain ⟨name, op, rfl⟩ := ha
    cases hp with
    | perform hop =>
        cases hm : w.members.get? name with
        | none => exact hsame (by rw [act_perform_none hm])
        | some m =>
            rw [act_perform hm] at hafter
            exact unaltered_run h hm hop hstatus hafter
  · exact hsame (status_act h fun name op he => ha ⟨name, op, he⟩)

theorem unaltered_of_life (h : Coherent p True w) (hstatus : p.status w.site = .ok (.activated r))
    {events : List Event} (hlife : Life p w events w')
    (hafter : p.status w'.site = .ok (.activated r')) : Unaltered r r' := by
  induction hlife generalizing r' with
  | confirmed =>
      rw [hstatus] at hafter
      cases hafter
      exact .refl r
  | act hbefore hp _ _ ih =>
      obtain ⟨hcoherent, _, hmiddle, -⟩ := life_coherent h hstatus hbefore
      exact (ih hmiddle).trans (unaltered_act hcoherent hp hmiddle hafter)

end World

end DeviceAuth
