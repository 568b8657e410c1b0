import DeviceAuth.Proofs.Sharing.Confirmation

namespace DeviceAuth

open Activation Session

namespace World

variable {p : Place} {keys : DerivedKeys} {held held₀ : Secrets} {r : Record} {w w₀ : World}
  {name : String} {m : Member} {a : Action}

def Action.Solo (name : String) : Action → Prop
  | .create n _ _ | .resume n _ _ _ | .perform n _ | .close n => n = name
  | _ => True

theorem alone_of_lockless {read : Prop} (h : Coherent p read w)
    (hm : w.members.get? name = some m) (hlock : m.lock = none) : w.Alone name := by
  intro n hne
  cases hn : w.members.get? n with
  | none => rfl
  | some other =>
      obtain ⟨_, k, -, hk, -⟩ := h.apart n other name m hne hn hm
      rw [hlock] at hk
      cases hk

theorem alone_act (h : w.Alone name) (hsolo : a.Solo name) : (w.act p a).Alone name := by
  intro n hne
  refine Option.eq_none_iff_forall_ne_some.mpr fun m hn => ?_
  have hgone (hold : w.members.get? n = some m) : False := by
    rw [h n hne] at hold
    cases hold
  by_cases ha : ∃ other op, a = .perform other op
  · obtain ⟨other, op, rfl⟩ := ha
    obtain rfl : other = name := hsolo
    cases hother : w.members.get? other with
    | none =>
        rw [act_perform_none hother] at hn
        exact hgone hn
    | some before =>
        rw [act_perform hother] at hn
        rcases get?_attach hn with ⟨he, -⟩ | ⟨-, hold⟩
        · exact hne he
        · exact hgone hold
  · rcases member_act (fun other op he => ha ⟨other, op, he⟩) hn with hold | harrived
    · exact hgone hold
    · cases harrived with
      | created _ => exact hne hsolo
      | resumed _ _ => exact hne hsolo

theorem settled_of_alone (h : w.Alone name) (hsolo : a.Solo name) : w.Settled a := by
  cases a with
  | perform n op =>
      obtain rfl : n = name := hsolo
      cases op with
      | addExternal key =>
          intro n' m hne hm
          rw [h n' hne] at hm
          cases hm
      | _ => trivial
  | _ => trivial

theorem settled_of_solo (halone : w₀.Alone name)
    (hrun : Upkeep p (fun held w a => a.Solo name ∧ Careful p keys held w a) held₀ w₀ held w) :
    w.Alone name ∧ Upkeep p (Considerate p keys) held₀ w₀ held w := by
  induction hrun with
  | start => exact ⟨halone, .start⟩
  | act _ hp hallowed ih =>
      obtain ⟨hsolo, hcareful⟩ := hallowed
      obtain ⟨hstill, hsettled⟩ := ih
      exact ⟨alone_act hstill hsolo, hsettled.act hp ⟨hcareful, settled_of_alone hstill hsolo⟩⟩

theorem factor_keys_survive (h : Reachable p w) (hm : w.members.get? name = some m)
    (hlock : m.lock = none) (hphase : m.session.phase = .pendingCommit r)
    (hw : w.Writes name .confirm) :
    (∃ pending answered unlock draws,
      m.session.recordOf pending answered unlock draws = .ok r) ∧
    ∀ pending answered unlock draws, m.session.recordOf pending answered unlock draws = .ok r →
      ∃ serverKey keys held, P256.PublicKey.ofBytes answered.serverKey = .ok serverKey ∧
        DerivedKeys.derive (pending.privateKey.agree serverKey).bytes = .ok keys ∧
        held.unlock = unlock ∧ held.external = m.session.externalKey ∧
        ∀ held' w', Upkeep p (fun held w a => a.Solo name ∧ Careful p keys held w a) held
          (w.act p (.perform name .confirm)) held' w' → Accessible p keys held' r w' := by
  have hcoherent := coherent_of_reachable h
  have halone := alone_of_lockless hcoherent hm hlock
  refine ⟨originated_of_reachable h hm r hphase, ?_⟩
  intro pending answered unlock draws hrecord
  obtain ⟨serverKey, keys, held, hserver, hkeys, hunlock, hexternal, hrooted, hguard⟩ :=
    guarded_of_recordOf hrecord
  refine ⟨serverKey, keys, held, hserver, hkeys, hunlock, hexternal, fun held' w' hrun => ?_⟩
  have hkept : Kept p keys held r (w.act p (.perform name .confirm)) := by
    refine kept_of_confirm hcoherent hm hphase hw hguard hexternal fun n m' hne hn => ?_
    rw [halone n hne] at hn
    cases hn
  obtain ⟨-, hsettled⟩ := settled_of_solo
    (alone_act (a := .perform name .confirm) halone rfl) hrun
  exact (kept_of_upkeep hkept hrooted hsettled).accessible

section Example

theorem exists_plan_changePassword {s : Session} {external : Option Key} {old : Password}
    {knowledge : Key} (hphase : s.phase = .active r) (hexternal : s.externalKeyFor r = .ok external)
    (hknown : r.keys.unlockKnowledge old external = .ok knowledge) (new : Password)
    (salt : Fixed 16) : ∃ q, Operation.plan (.changePassword old new salt) s =
      s.commit { r with keys := q } .done := by
  obtain ⟨locked, hlocked⟩ := ProtectedKeys.exists_lockKnowledge knowledge new salt external
  obtain ⟨q, hq⟩ : ∃ q, r.keys.changePassword old new external salt = .ok q :=
    ⟨_, bind_eq_ok.mpr ⟨knowledge, hknown, bind_eq_ok.mpr ⟨locked, hlocked, rfl⟩⟩⟩
  have hplan : s.changePassword old new salt = s.commit { r with keys := q } () := by
    have hr := committed_eq_ok.mpr hphase
    simp only [Session.changePassword, hr, hexternal, hq, bind, Except.bind, pure, Except.pure,
      Plan.orRefuse]
  exact ⟨q, congrArg (Plan.map fun _ => Answer.done) hplan⟩

def newPassword : Password :=
  ⟨[5, 6, 7, 8], by decide⟩

def plainSetup : Setup :=
  { Session.sampleSetup with externalKey := none }

theorem Holds.upkeep_changePassword (keys : DerivedKeys) {s : Session} {external : Option Key}
    {knowledge : Key} (h : Holds samplePlace w "a" s) (hphase : s.phase = .active r)
    (hexternal : s.externalKeyFor r = .ok external)
    (hknown : r.keys.unlockKnowledge held.password external = .ok knowledge) :
    Upkeep samplePlace (fun held w a => a.Solo "a" ∧ Careful samplePlace keys held w a) held w
      { held with password := newPassword }
      (w.act samplePlace
        (.perform "a" (.changePassword held.password newPassword (.zero 16)))) := by
  obtain ⟨q, hplan⟩ := exists_plan_changePassword hphase hexternal hknown newPassword (.zero 16)
  obtain ⟨-, -, hanswer⟩ := h.commit rfl rfl hplan
  have hrun : Upkeep samplePlace
      (fun held w a => a.Solo "a" ∧ Careful samplePlace keys held w a) held w
      (w.heldAfter held (.perform "a" (.changePassword held.password newPassword (.zero 16))))
      (w.act samplePlace
        (.perform "a" (.changePassword held.password newPassword (.zero 16)))) :=
    .act .start (.perform fun _ => by simp) ⟨rfl, fun _ _ => rfl⟩
  rw [heldAfter_of_answer hanswer] at hrun
  exact hrun

theorem accessible_after_change : ∃ (w w' : World) (m : Member) (r : Record) (keys : DerivedKeys)
    (held : Secrets), Reachable samplePlace w ∧ w.members.get? "a" = some m ∧ m.lock = none ∧
      m.session.phase = .pendingCommit r ∧ w.Writes "a" .confirm ∧
      Upkeep samplePlace (fun held w a => a.Solo "a" ∧ Careful samplePlace keys held w a) held
        (w.act samplePlace (.perform "a" .confirm)) { held with password := newPassword } w' ∧
      Accessible samplePlace keys { held with password := newPassword } r w' := by
  obtain ⟨w, s, r, hreachable, hpending, hgranted⟩ := exists_pending
  obtain ⟨hactive, hwrites, -⟩ := hpending.commit rfl rfl
    (rfl : Operation.plan .confirm { s with phase := .pendingCommit r } =
      Session.commit { s with phase := .pendingCommit r } r .done)
  have hconfirmed := hreachable.act (a := .perform "a" .confirm) (.perform fun _ => by simp)
  obtain ⟨⟨pending, answered, unlock, draws, hrecord⟩, hsurvives⟩ :=
    factor_keys_survive hreachable hpending.member rfl rfl hwrites
  obtain ⟨serverKey, keys, held, -, -, -, hexternal, hsurvives⟩ :=
    hsurvives pending answered unlock draws hrecord
  obtain ⟨r', hstatus, -, hopened, -⟩ := hsurvives held _ .start
  obtain rfl : r = r' := by simpa using (hactive.status hconfirmed rfl).symm.trans hstatus
  obtain ⟨_, hgiven, hknown⟩ := bind_eq_ok.mp (hopened .knowledge nofun)
  cases hgiven
  have hchanged := hactive.upkeep_changePassword keys rfl (hgranted.externalKeyFor rfl)
    (hexternal ▸ hknown)
  obtain ⟨r₁, hstatus₁, -, -, -, htransport, -⟩ := hsurvives _ _ hchanged
  have hasked := hchanged.act (a := .perform "a" (.addBiometry ⟨none, Base64.encode
      (Cbc.encryptPadded (Aes.Schedule.ofLong keys.transport) (Fixed.zero 16) keys.vault.bytes),
      { held with password := newPassword }.unlock⟩)) (.perform fun _ => by simp)
    ⟨rfl, fun r₂ hstatus₂ => careful_addBiometry (by
      obtain rfl : r₁ = r₂ := by simpa using hstatus₁.symm.trans hstatus₂
      exact htransport) rfl⟩
  rw [heldAfter_of_unchanged rfl] at hasked
  have hclosed := hasked.act (.close "a") ⟨rfl, trivial⟩
  have halone := alone_of_lockless (coherent_of_reachable hconfirmed) hactive.member rfl
  obtain ⟨hstill, -⟩ := settled_of_solo halone hclosed
  have hname : plainSetup.storageName {} = samplePlace.name := by decide +kernel
  have hrun := hclosed.act (a := .resume "a" {} plainSetup none) (.alone hname hstill)
    ⟨rfl, .inl rfl⟩
  exact ⟨w, _, _, r, keys, held, hreachable, hpending.member, rfl, rfl, hwrites, hrun,
    hsurvives _ _ hrun⟩

end Example

end World

end DeviceAuth
