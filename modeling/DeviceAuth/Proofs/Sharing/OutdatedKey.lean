import DeviceAuth.Proofs.Sharing.Maintenance

namespace DeviceAuth

open Activation Session

namespace Session

variable {s : Session} {r : Record} {q : ProtectedKeys} {key : Key}

theorem plan_addExternal (hphase : s.phase = .active r) (hunused : r.external = false)
    (hq : r.keys.addExternal key = (.ok (), q)) : Operation.plan (.addExternal key) s =
      .write s (.save (.activated { r with keys := q, external := true })) { s with
        phase := .active { r with keys := q, external := true }
        externalKey := some key } .done := by
  have hr := committed_eq_ok.mpr hphase
  simp only [Operation.plan, Session.addExternal, hr, hunused, hq, bind, Except.bind, pure,
    Except.pure, Plan.orRefuse, Plan.map, Bool.false_eq_true, if_false]

theorem plan_removeExternal (hphase : s.phase = .active r) (hused : r.external = true)
    (hkey : s.externalKey = some key) (hq : r.keys.removeExternal key = (.ok (), q)) :
    Operation.plan .removeExternal s =
      .write s (.save (.activated { r with keys := q, external := false })) { s with
        phase := .active { r with keys := q, external := false }
        externalKey := none } .done := by
  have hr := committed_eq_ok.mpr hphase
  simp only [Operation.plan, Session.removeExternal, hr, hused, hkey, hq, bind, Except.bind, pure,
    Except.pure, Plan.orRefuse, Plan.map, Bool.not_true, Bool.false_eq_true, if_false]

end Session

namespace World

variable {p : Place} {keys : DerivedKeys} {held : Secrets} {r r₀ r' : Record} {w : World}
  {name first second : String} {m m' : Member} {s : Session} {op : Session.Operation}
  {answer : Answer}

inductive Opening (p : Place) (s : Session) (held : Secrets) (r : Record) : World → Prop
  | stored {store : Store} (handle : String) :
      StoredStatus.ofBlob (store.entries.get? p.name) = .ok (.activated r) →
      Opening p s held r (start p store handle)
  | confirmed {w : World} {name : String} {m : Member} :
      Reachable p w → w.members.get? name = some m → m.session = s →
      s.phase = .pendingCommit r → w.Writes name .confirm →
      (∀ n m', n ≠ name → w.members.get? n = some m' → held.Admits m'.session.externalKey) →
      Opening p s held r (w.act p (.perform name .confirm))

theorem kept_of_opening (h : Opening p s held r w) (hguard : Guarded keys held r r)
    (hexternal : held.external = s.externalKey) : Kept p keys held r w := by
  cases h with
  | @stored store handle hstored =>
      refine ⟨coherent_start p store handle, ⟨r, ?_, hguard⟩, fun n m hn => by cases hn⟩
      have hblob : p.blob (start p store handle).site = store.entries.get? p.name := by
        rw [Place.blob]
        exact congrArg (fun st : Store => st.entries.get? p.name)
          (Site.store_setStore_self {} p.store store)
      rw [Place.status, hblob]
      exact hstored
  | confirmed hreachable hm hs hphase hw hothers =>
      subst hs
      exact kept_of_confirm (coherent_of_reachable hreachable) hm hphase hw hguard hexternal hothers

theorem keys_survive_sharing {pending : Pending} {answered : Response} {unlock : UnlockKeys}
    {draws : ValidationDraws} (hrecord : s.recordOf pending answered unlock draws = .ok r) :
    ∃ serverKey keys held, P256.PublicKey.ofBytes answered.serverKey = .ok serverKey ∧
      DerivedKeys.derive (pending.privateKey.agree serverKey).bytes = .ok keys ∧
      held.unlock = unlock ∧ held.external = s.externalKey ∧
      ∀ w, Opening p s held r w → ∀ held' w',
        Upkeep p (Considerate p keys) held w held' w' → Accessible p keys held' r w' := by
  obtain ⟨serverKey, keys, held, hserver, hkeys, hunlock, hexternal, hrooted, hguard⟩ :=
    guarded_of_recordOf hrecord
  refine ⟨serverKey, keys, held, hserver, hkeys, hunlock, hexternal, fun w hw held' w' hrun => ?_⟩
  exact (kept_of_upkeep (kept_of_opening hw hguard hexternal) hrooted hrun).accessible

section Outdated

structure Serving (p : Place) (w : Site) : Prop where
  reads : (w.store p.store).readsFail = false
  writes : (w.store p.store).writesFail = false

theorem not_deserialize_of_exclusive (h : op.access = .exclusive) (blob : Bytes) :
    op ≠ .deserialize blob := by
  rintro rfl
  cases h

theorem run_ready (h : Coherent p True w) (hm : w.members.get? name = some m)
    (hserving : Serving p w.site) (hstatus : p.status w.site = .ok (.activated r))
    (hrefusal : op.refusal? = none) (haccess : op.access = .exclusive) :
    ∃ s w', s.Sound ∧ Alike m.session s ∧ s.phase = .active r ∧ w'.stores = w.site.stores ∧
      (m.session.run m.host op w.site).answer =
        ((op.plan s).perform (Site.storeActions p.store) p.name w').answer ∧
      (m.session.run m.host op w.site).state.stores =
        ((op.plan s).perform (Site.storeActions p.store) p.name w').state.stores := by
  have hin := h.members name m hm
  have hactive (hcurrent : ∀ k, m.lock = some k → w.site.Current k m.session) :
      m.session.phase = .active r :=
    phase_active_of_stored (Except.ok.inj
      ((hin.agrees hcurrent fun _ => .inl trivial).symm.trans hstatus))
  cases hk : m.lock with
  | none =>
      refine ⟨m.session, w.site, hin.sound, .refl _, ?_, rfl, ?_⟩
      · exact hactive fun k hlock => by rw [hk] at hlock; cases hlock
      · simp only [Session.run, hrefusal, haccess, exclusive, Member.host, hk, Option.map_none,
          hin.store, hin.name, and_self]
  | some k =>
      have hzero := h.zero hm hk
      have hentered := enter_entered (h := k) hin.name (hzero ▸ h.free)
      simp only [Session.run, hrefusal, haccess, exclusive, Member.host, hk, Option.map_some,
        hin.store, hin.name]
      generalize m.session.enter (Site.storeActions p.store) (Site.lockActions k) w.site = o
        at hentered ⊢
      cases hentered with
      | current hcurrent =>
          refine ⟨m.session, w.site.held k, hin.sound, .refl _, ?_, rfl, rfl, rfl⟩
          exact hactive fun j hj => by rw [hk] at hj; cases hj; exact hcurrent
      | unread why _ hload =>
          rw [Store.load, hserving.reads] at hload
          have hread := Phase.load_eq_ok.mpr ⟨_, hstatus, rfl⟩
          rw [← Place.blob] at hload
          simp only [Bool.false_eq_true, if_false] at hload
          rw [hread] at hload
          cases hload
      | @reread phase _ hload =>
          obtain ⟨hread, status, hstorable, hphase⟩ := Phase.stored_of_load hload
          refine ⟨{ m.session with vaultToken := none, phase, stale := false }, w.site.held k,
            sound_of_ofStored hstorable hphase, ⟨rfl, rfl, rfl, rfl, ?_⟩, ?_, rfl, rfl, rfl⟩
          · intro r hr
            dsimp only at hr
            rw [hphase] at hr
            cases status <;> cases hr
          · exact phase_active_of_stored (Except.ok.inj (hread.symm.trans hstatus))

theorem run_saved (h : Coherent p True w) (hm : w.members.get? name = some m)
    (hserving : Serving p w.site) (hstatus : p.status w.site = .ok (.activated r))
    (hrefusal : op.refusal? = none) (haccess : op.access = .exclusive)
    (hplan : ∀ s, Alike m.session s → s.phase = .active r → ∃ before after,
      op.plan s = .write before (.save (.activated r')) after answer) :
    (m.session.run m.host op w.site).answer = .ok answer ∧
      p.status (m.session.run m.host op w.site).state = .ok (.activated r') ∧
      Serving p (m.session.run m.host op w.site).state := by
  obtain ⟨s, w', hsound, halike, hphase, hstores, hanswer, hstate⟩ :=
    run_ready h hm hserving hstatus hrefusal haccess
  obtain ⟨before, after, hwrite⟩ := hplan s halike hphase
  have hstorable :=
    (hwrite ▸ plan_faithful op hsound (not_deserialize_of_exclusive haccess)).storable
  have hsame : w'.store p.store = w.site.store p.store := by
    rw [Site.store, Site.store, hstores]
  have hwritable : (w'.store p.store).writesFail = false := hsame ▸ hserving.writes
  rw [hwrite, Plan.perform, apply_save hwritable] at hanswer hstate
  have hafter : (m.session.run m.host op w.site).state.store p.store = { w'.store p.store with
      entries := (w'.store p.store).entries.set p.name (StoredStatus.activated r').encode } := by
    rw [Site.store, hstate]
    exact Site.store_setStore_self w' p.store _
  refine ⟨hanswer, ?_, ?_, ?_⟩
  · rw [Place.status, Place.blob, hafter, Registry.get?_set, if_pos rfl]
    exact StoredStatus.ofBlob_encode hstorable
  · rw [hafter, hsame]
    exact hserving.reads
  · rw [hafter, hsame]
    exact hserving.writes

structure Served (p : Place) (allowed : Secrets → World → Action → Prop) (held₀ : Secrets)
    (w₀ : World) (held : Secrets) (w : World) : Prop where
  coherent : Coherent p True w
  serving : Serving p w.site
  run : Upkeep p allowed held₀ w₀ held w

theorem Served.act {allowed : Secrets → World → Action → Prop} {held₀ : Secrets} {w₀ : World}
    (h : Served p allowed held₀ w₀ held w) (op : Session.Operation)
    (hm : w.members.get? name = some m) (hstatus : p.status w.site = .ok (.activated r))
    (hrefusal : op.refusal? = none) (haccess : op.access = .exclusive)
    (hallowed : allowed held w (.perform name op))
    (hplan : ∀ s, Alike m.session s → s.phase = .active r → ∃ before after,
      op.plan s = .write before (.save (.activated r')) after answer) :
    ∃ w', Served p allowed held₀ w₀ (held.changed op) w' ∧
      p.status w'.site = .ok (.activated r') ∧ (∃ after, w'.members.get? name = some after) ∧
      ∀ n, n ≠ name → w'.members.get? n = w.members.get? n := by
  obtain ⟨hanswer, hsaved, hserves⟩ :=
    run_saved h.coherent hm h.serving hstatus hrefusal haccess hplan
  have hop := not_deserialize_of_exclusive haccess
  have hcoherent : Coherent p True (w.act p (.perform name op)) := coherent_perform h.coherent hop
  have hrun := h.run.act (.perform hop) hallowed
  have hdone : (w.perform name op).map Prod.fst = some (.ok answer) := by
    rw [perform, hm]
    exact congrArg some hanswer
  rw [heldAfter_of_answer hdone] at hrun
  refine ⟨w.act p (.perform name op), ⟨hcoherent, ?_, hrun⟩, ?_, ?_, fun n hne => ?_⟩
  all_goals rw [act_perform hm]
  · exact hserves
  · exact hsaved
  · exact ⟨_, by rw [attach, Registry.get?_set, if_pos rfl]⟩
  · rw [attach, Registry.get?_set, if_neg hne]

theorem outdated_key_crosses (h : Coherent p True w) (hserving : Serving p w.site)
    (hstatus : p.status w.site = .ok (.activated r)) (hused : r.external = true)
    (hlocked : ProtectedKeys.LockedBy keys held r.keys) {old : Key}
    (hheld : held.external = some old)
    (hfirst : w.members.get? first = some m) (hcached : m.session.externalKey = some old)
    (hsecond : w.members.get? second = some m') (houtdated : m'.session.externalKey = some old)
    (hne : second ≠ first) (new : Key) :
    ∃ w' r' q₁ q₂, Upkeep p (Careful p keys) held w { held with external := none } w' ∧
      p.status w'.site = .ok (.activated r') ∧ r.keys.removeExternal old = (.ok (), q₁) ∧
      q₁.addExternal new = (.ok (), q₂) ∧ q₂.removeExternal old = (.ok (), r'.keys) := by
  obtain ⟨q₁, hq₁⟩ := hlocked.exists_removeExternal old
  have hlocked₁ := hlocked.removeExternal hheld hq₁
  obtain ⟨q₂, hq₂⟩ := hlocked₁.exists_addExternal new
  obtain ⟨q₃, hq₃⟩ := (hlocked₁.addExternal rfl hq₂).exists_removeExternal old
  have hstart : Served p (Careful p keys) held w held w := ⟨h, hserving, .start⟩
  obtain ⟨w₁, h₁, hstatus₁, ⟨m₁, hm₁⟩, hothers₁⟩ :=
    hstart.act .removeExternal hfirst hstatus rfl rfl (fun _ _ => trivial) fun s halike hphase =>
      ⟨_, _, plan_removeExternal hphase hused (halike.externalKey.trans hcached) hq₁⟩
  obtain ⟨w₂, h₂, hstatus₂, -, hothers₂⟩ :=
    h₁.act (.addExternal new) hm₁ hstatus₁ rfl rfl (fun _ _ => trivial) fun s _ hphase =>
      ⟨_, _, plan_addExternal hphase rfl hq₂⟩
  have hsecond₂ := ((hothers₂ second hne).trans (hothers₁ second hne)).trans hsecond
  obtain ⟨w₃, h₃, hstatus₃, -, -⟩ :=
    h₂.act .removeExternal hsecond₂ hstatus₂ rfl rfl (fun _ _ => trivial) fun s halike hphase =>
      ⟨_, _, plan_removeExternal hphase rfl (halike.externalKey.trans houtdated) hq₃⟩
  exact ⟨w₃, _, q₁, q₂, h₃.run, hstatus₃, hq₁, hq₂, hq₃⟩

theorem crossed_biometry {r : Record} {old new unlockKey : Key} {q₁ q₂ q₃ : ProtectedKeys}
    (hlocked : ProtectedKeys.LockedBy keys held r.keys) (hheld : held.external = some old)
    (hbiometry : held.biometry = some unlockKey) (hconfigured : r.keys.biometry ≠ none)
    (hq₁ : r.keys.removeExternal old = (.ok (), q₁)) (hq₂ : q₁.addExternal new = (.ok (), q₂))
    (hq₃ : q₂.removeExternal old = (.ok (), q₃)) :
    ∃ layered crossed,
      ProtectedKeys.wrap (some new) (ProtectedKeys.sealKey unlockKey keys.biometry) = .ok layered ∧
      ProtectedKeys.unwrap (some old) layered = .ok crossed ∧ q₃.biometry = some crossed := by
  have hrelayered₁ := ProtectedKeys.relayered_of_relayer hq₁
  have hrelayered₂ := ProtectedKeys.relayered_of_relayer hq₂
  have hrelayered₃ := ProtectedKeys.relayered_of_relayer hq₃
  obtain ⟨crossed, hcrossed⟩ := Option.ne_none_iff_exists'.mp fun hnone =>
    hconfigured (hrelayered₁.configured (hrelayered₂.configured (hrelayered₃.configured hnone)))
  obtain ⟨layered, hlayered, htaken⟩ := hrelayered₃.biometry crossed hcrossed
  obtain ⟨plain, hplain, hput⟩ := hrelayered₂.biometry layered hlayered
  obtain ⟨key, hkey, -, hwrap⟩ := (hlocked.removeExternal hheld hq₁).biometry plain hplain
  obtain rfl := Option.some.inj (hbiometry.symm.trans hkey)
  obtain rfl : ProtectedKeys.sealKey unlockKey keys.biometry = plain := Except.ok.inj hwrap
  exact ⟨layered, crossed, hput, htaken, hcrossed⟩

end Outdated

section Example

def holding (r : Record) : Store where
  entries := Registry.empty.set samplePlace.name (StoredStatus.activated r).encode

def readSession (r : Record) : Session :=
  { sampleSession with phase := .active r }

theorem resume_holding (hr : r.Storable) : Session.resume Session.sampleSetup {}
    ((holding r).load (Session.sampleSetup.storageName {})) = .ok (readSession r) := by
  have hname : Session.sampleSetup.storageName {} = samplePlace.name := by decide +kernel
  have hload : (holding r).load samplePlace.name =
      .ok (some (StoredStatus.activated r).encode) := by
    rw [Store.load, holding, Registry.get?_set, if_pos rfl]
    rfl
  have hstored := StoredStatus.decode_encode (StoredStatus.storable_activated.mpr hr)
  rw [hname, hload]
  refine bind_eq_ok.mpr ⟨_, new_sampleSetup, bind_eq_ok.mpr ⟨_, rfl, ?_⟩⟩
  exact bind_eq_ok.mpr ⟨_, hstored, rfl⟩

def unread (r : Record) : World :=
  (start samplePlace (holding r) "left").act samplePlace (.share "right" "left")

def beside (r : Record) : World :=
  (unread r).attach "a" samplePlace.store (some ⟨0, 0⟩) (readSession r)

def sharing (r : Record) : World :=
  (beside r).attach "b" samplePlace.store (some ⟨0, 1⟩) (readSession r)

theorem store_unread (r : Record) : (unread r).site.store samplePlace.store = holding r := by
  have hstores : (unread r).site.stores = Registry.empty.set samplePlace.store (holding r) := by
    rw [unread, act, shareLock]
    cases (start samplePlace (holding r) "left").handles.get? "left" <;> rfl
  rw [Site.store, hstores, Registry.get?_set, if_pos rfl]
  rfl

theorem act_resume {config : Config} {setup : Setup} {handle : Option String} {k : LockHandle}
    (hk : handle.bind w.handles.get? = some k)
    (hopen : w.openSession config setup p.store = .ok s) :
    w.act p (.resume name config setup handle) = w.attach name p.store (some k) s := by
  rw [act, hopen, hk]
  rfl

theorem upkeep_sharing (keys : DerivedKeys) (hr : r.Storable)
    (hheld : held.external = Session.sampleSetup.externalKey) :
    Upkeep samplePlace (Considerate samplePlace keys) held (start samplePlace (holding r) "left")
      held (sharing r) := by
  have hname : Session.sampleSetup.storageName {} = samplePlace.name := by decide +kernel
  have hunread : Upkeep samplePlace (Considerate samplePlace keys) held
      (start samplePlace (holding r) "left") held (unread r) :=
    .act .start (.share "right" "left") ⟨trivial, trivial⟩
  have hopen : (unread r).openSession {} Session.sampleSetup samplePlace.store =
      .ok (readSession r) := by
    rw [openSession, store_unread]
    exact resume_holding hr
  have hleft : (some "left").bind (unread r).handles.get? = some ⟨0, 0⟩ := rfl
  have hbeside : Upkeep samplePlace (Considerate samplePlace keys) held
      (start samplePlace (holding r) "left") held (beside r) := by
    rw [beside, ← act_resume hleft hopen]
    exact hunread.act (.shared hname rfl (fun n m _ hm => by cases hm)) ⟨.inr hheld.symm, trivial⟩
  have hright : (some "right").bind (beside r).handles.get? = some ⟨0, 1⟩ := rfl
  rw [sharing, ← act_resume hright hopen]
  refine hbeside.act (.shared (h := ⟨0, 1⟩) hname rfl fun n m _ hm => ?_) ⟨.inr hheld.symm, trivial⟩
  rcases get?_attach hm with ⟨-, rfl⟩ | ⟨-, hold⟩
  · exact ⟨⟨0, 0⟩, rfl, by decide⟩
  · cases hold

theorem stored_holding (hr : r.Storable) :
    StoredStatus.ofBlob ((holding r).entries.get? samplePlace.name) = .ok (.activated r) := by
  rw [holding, Registry.get?_set, if_pos rfl]
  exact StoredStatus.ofBlob_encode (StoredStatus.storable_activated.mpr hr)

theorem status_sharing (hr : r.Storable) :
    samplePlace.status (sharing r).site = .ok (.activated r) := by
  have hstore : (sharing r).site.store samplePlace.store = holding r := store_unread r
  rw [Place.status, Place.blob, hstore]
  exact stored_holding hr

theorem serving_sharing (r : Record) : Serving samplePlace (sharing r).site := by
  have hstore : (sharing r).site.store samplePlace.store = holding r := store_unread r
  constructor <;> rw [hstore] <;> rfl

def sampleKeys : DerivedKeys :=
  .ofSecret (sampleDevice.agree sampleGrant.key.publicKey).bytes

theorem exists_activation : ∃ pending answered draws r,
    sampleSession.recordOf pending answered sampleUnlock draws = .ok r ∧ r.Storable ∧
      pending.privateKey = sampleDevice ∧
      answered.serverKey = sampleGrant.key.publicKey.compressed := by
  obtain ⟨signature, hsign⟩ := exists_of_isOk sign_sampleGrant
  have hmaster : sampleSession.masterKey = sampleMaster.publicKey := by rw [sampleSession]
  have hfits : Framing.Fits signature :=
    Nat.lt_of_le_of_lt (P256.PrivateKey.length_sign_le hsign) (by decide)
  obtain ⟨r, hrecord, -⟩ := exists_record (s := sampleSession)
    ⟨sampleDevice, sampleSession.applicationEncryptor activationInfo⟩ hmaster hsign
    equipped_sampleUnlock ⟨.zero 16, .zero 12, .zero 12⟩
  have hstorable := storable_recordOf (sampleGrant.decode_response hfits) hrecord
  exact ⟨_, _, _, r, hrecord, hstorable, rfl, rfl⟩

theorem member_sharing (r : Record) :
    (sharing r).members.get? "a" = some ⟨readSession r, samplePlace.store, some ⟨0, 0⟩⟩ ∧
      (sharing r).members.get? "b" = some ⟨readSession r, samplePlace.store, some ⟨0, 1⟩⟩ := by
  refine ⟨?_, ?_⟩
  · rw [sharing, attach, Registry.get?_set, if_neg (by decide), beside, attach, Registry.get?_set,
      if_pos rfl]
  · rw [sharing, attach, Registry.get?_set, if_pos rfl]

theorem accessible_while_sharing : ∃ (w : World) (keys : DerivedKeys) (held : Secrets) (r : Record)
    (pending : Pending) (answered : Response) (draws : ValidationDraws),
    sampleSession.recordOf pending answered sampleUnlock draws = .ok r ∧
      held.unlock = sampleUnlock ∧ held.external = Session.sampleSetup.externalKey ∧
      Upkeep samplePlace (Considerate samplePlace keys) held (start samplePlace (holding r) "left")
        held w ∧
      w = (sharing r).act samplePlace (.perform "b" .removeBiometry) ∧
      Accessible samplePlace keys held r w := by
  obtain ⟨pending, answered, draws, r, hrecord, hstorable, -, -⟩ := exists_activation
  obtain ⟨serverKey, keys, held, -, -, hunlock, hexternal, hsurvives⟩ :=
    keys_survive_sharing (p := samplePlace) hrecord
  have hopened := upkeep_sharing keys hstorable hexternal
  have hrun := hopened.act (a := .perform "b" .removeBiometry) (.perform fun _ => by simp)
    ⟨fun _ _ => trivial, trivial⟩
  rw [heldAfter_of_unchanged rfl] at hrun
  exact ⟨_, keys, held, r, pending, answered, draws, hrecord, hunlock, hexternal, hrun, rfl,
    hsurvives _ (.stored "left" (stored_holding hstorable)) _ _ hrun⟩

def firstKey : Key :=
  filledKey 5

def otherKey : Key :=
  filledKey 9

def biometryUnlock : Key :=
  filledKey 7

theorem crossed_sampleKeys {layered crossed : Bytes}
    (hlayered : ProtectedKeys.wrap (some otherKey)
      (ProtectedKeys.sealKey biometryUnlock sampleKeys.biometry) = .ok layered)
    (hcrossed : ProtectedKeys.unwrap (some firstKey) layered = .ok crossed) :
    ProtectedKeys.openKey biometryUnlock crossed ≠ .ok sampleKeys.biometry := by
  have hlost : ((do
      let layered ← ProtectedKeys.wrap (some otherKey)
        (ProtectedKeys.sealKey biometryUnlock sampleKeys.biometry)
      let crossed ← ProtectedKeys.unwrap (some firstKey) layered
      ProtectedKeys.openKey biometryUnlock crossed).toOption) ≠ some sampleKeys.biometry := by
    decide +kernel
  intro hopened
  rw [bind_eq_ok.mpr ⟨_, hlayered, bind_eq_ok.mpr ⟨_, hcrossed, hopened⟩⟩] at hlost
  exact hlost rfl

theorem outdated_key_damages : ∃ (w w' : World) (keys : DerivedKeys) (held : Secrets) (r : Record)
    (pending : Pending) (answered : Response) (draws : ValidationDraws),
    sampleSession.recordOf pending answered sampleUnlock draws = .ok r ∧
      Upkeep samplePlace (Considerate samplePlace keys) held (start samplePlace (holding r) "left")
        held w ∧ Accessible samplePlace keys held r w ∧
      Upkeep samplePlace (Careful samplePlace keys) held w { held with external := none } w' ∧
      ¬Accessible samplePlace keys { held with external := none } r w' := by
  obtain ⟨pending, answered, draws, r, hrecord, hstorable, hdevice, hserver⟩ := exists_activation
  obtain ⟨serverKey, keys, held, hread, hkeys, hunlock, hexternal, hrooted, hguard⟩ :=
    guarded_of_recordOf hrecord
  have hsame : sampleKeys = keys := by
    rw [hserver, P256.PublicKey.ofBytes_compressed] at hread
    rw [← Except.ok.inj hread, hdevice, derive_bytes] at hkeys
    exact Except.ok.inj hkeys
  subst hsame
  have hrun := upkeep_sharing sampleKeys hstorable hexternal
  have hopening : Opening samplePlace sampleSession held r
      (start samplePlace (holding r) "left") := .stored "left" (stored_holding hstorable)
  have hkept := kept_of_upkeep (kept_of_opening hopening hguard hexternal) hrooted hrun
  have hheld : held.external = some firstKey := hexternal
  have hbiometry : held.biometry = some biometryUnlock := congrArg UnlockKeys.biometry hunlock
  have hconfigured : r.keys.biometry ≠ none := by
    obtain ⟨-, _, _, _, -, -, hlock, rfl⟩ := recordOf_eq_ok.mp hrecord
    exact ProtectedKeys.biometry_of_lock hlock (by simp [sampleUnlock])
  obtain ⟨hfirst, hsecond⟩ := member_sharing r
  have hused : r.external = true := by
    rw [hguard.external, hexternal]
    rfl
  obtain ⟨w', r', q₁, q₂, hcrossed, hstatus, hq₁, hq₂, hq₃⟩ :=
    outdated_key_crosses hkept.coherent (serving_sharing r) (status_sharing hstorable) hused
      hguard.locked hheld hfirst rfl hsecond rfl (by decide) otherKey
  obtain ⟨layered, crossed, hwrap, hunwrap, hleft⟩ :=
    crossed_biometry hguard.locked hheld hbiometry hconfigured hq₁ hq₂ hq₃
  refine ⟨_, w', sampleKeys, held, r, pending, answered, draws, hrecord, hrun, hkept.accessible,
    hcrossed, ?_⟩
  rintro ⟨r'', hstatus', -, hopened, -⟩
  obtain rfl : r' = r'' := by simpa using hstatus.symm.trans hstatus'
  have hbiometryOpened := hopened .biometry fun _ => by simp [hleft]
  rw [ProtectedKeys.unlockFactor, hleft] at hbiometryOpened
  obtain ⟨_, hplain, hbiometryOpened⟩ := bind_eq_ok.mp hbiometryOpened
  cases hplain
  obtain ⟨unlockKey, hkey, hbiometryOpened⟩ := bind_eq_ok.mp hbiometryOpened
  obtain ⟨hgiven, -⟩ := ProtectedKeys.usable_eq_ok.mp hkey
  obtain rfl := Option.some.inj (hbiometry.symm.trans hgiven)
  exact crossed_sampleKeys hwrap hunwrap hbiometryOpened

end Example

end World

end DeviceAuth
