import DeviceAuth.Proofs.Sharing.Slot
import DeviceAuth.Proofs.Sharing.World
import DeviceAuth.Session.Encryptor

namespace DeviceAuth

open Session

-- Sessions over one store, each with an instance id that no other has.
structure Instances where
  store : String
  config : Config
  id : String → String
  distinct : ∀ n m, id n = id m → n = m

namespace Instances

inductive Question where
  | fingerprint
  | serialize
  | decodeStatus (encrypted : String) (unlock : UnlockKeys)
  | encryptor (scope : Scope) (unlock : UnlockKeys) (info : Bytes)
  | verifyServer (key : ServerKey) (data signature : Bytes)

inductive Reply where
  | nobody
  | opened (made : Except Failure Unit)
  | answer (a : Except Failure Answer)
  | text (t : Except Failure String)
  | bytes (b : Bytes)
  | status (s : Except Failure ServerStatus)
  | encryptor (e : Except Failure Envelope.Encryptor)
  | verdict (v : Except Failure Unit)

def Question.ask (s : Session) : Question → Reply
  | .fingerprint => .text s.fingerprint
  | .serialize => .bytes s.serialize
  | .decodeStatus encrypted unlock => .status (s.decodeStatus encrypted unlock)
  | .encryptor scope unlock info => .encryptor (s.encryptor scope unlock info)
  | .verifyServer key data signature => .verdict (s.verifyServer key data signature)

inductive Call where
  | create (setup : Setup)
  | resume (setup : Setup)
  | perform (op : Session.Operation)
  | ask (q : Question)

inductive Event where
  | call (name : String) (c : Call)
  | fail (faults : Faults)

variable (i : Instances)

def place (n : String) : Place :=
  ⟨i.store, s!"{i.config.namespaceText}.{i.id n}"⟩

def setup (n : String) (given : Setup) : Setup :=
  { given with instanceId := i.id n }

def Call.run (w : World) (n : String) : Call → Reply × World
  | .create given =>
      let made := Session.new (i.setup n given) i.config
      (.opened (made.map fun _ => ()), w.enrol n i.store none made)
  | .resume given =>
      let made := w.openSession i.config (i.setup n given) i.store
      (.opened (made.map fun _ => ()), w.enrol n i.store none made)
  | .perform op =>
      match w.perform n op with
      | some (a, w) => (.answer a, w)
      | none => (.nobody, w)
  | .ask q =>
      match w.session? n with
      | some s => (q.ask s, w)
      | none => (.nobody, w)

def step (w : World) : Event → World
  | .call n c => (c.run i w n).2
  | .fail faults => w.setFaults i.store faults.reads faults.writes

structure View where
  session : Option Session
  blob : Option Bytes

def view (n : String) (w : World) : View :=
  ⟨w.session? n, (i.place n).blob w.site⟩

def faults (w : World) : Faults :=
  w.site.faults i.store

def run : World → List Event → World :=
  List.foldl i.step

def log (n : String) : World → List Event → List (Reply × View)
  | _, [] => []
  | w, .call m c :: es =>
      let next := (c.run i w m).2
      if m = n then ((c.run i w m).1, i.view n next) :: log n next es else log n next es
  | w, .fail faults :: es => log n (i.step w (.fail faults)) es

def calls (n : String) : Faults → List Event → List (Call × Faults)
  | _, [] => []
  | f, .call m c :: es => if m = n then (c, f) :: calls n f es else calls n f es
  | _, .fail f :: es => calls n f es

def View.opened (v : View) : Except Failure Session → View
  | .ok s => { v with session := some s }
  | .error _ => v

-- The same call when there is nothing but one session and its slot.
def Call.alone (n : String) (f : Faults) (v : View) : Call → Reply × View
  | .create given =>
      let made := Session.new (i.setup n given) i.config
      (.opened (made.map fun _ => ()), v.opened made)
  | .resume given =>
      let made := Session.resume (i.setup n given) i.config (Slot.load ⟨v.blob, f⟩)
      (.opened (made.map fun _ => ()), v.opened made)
  | .perform op =>
      match v.session with
      | some s =>
          let o := s.run ⟨Slot.actions, none⟩ op ⟨v.blob, f⟩
          (.answer o.answer, ⟨some o.session, o.state.blob⟩)
      | none => (.nobody, v)
  | .ask q =>
      match v.session with
      | some s => (q.ask s, v)
      | none => (.nobody, v)

def replay (n : String) : View → List (Call × Faults) → List (Reply × View) × View
  | v, [] => ([], v)
  | v, (c, f) :: rest =>
      let (reply, next) := c.alone i n f v
      let (later, last) := replay n next rest
      ((reply, next) :: later, last)

structure Lodges (n : String) (m : Member) : Prop where
  store : m.store = i.store
  lock : m.lock = none
  id : m.session.setup.instanceId = i.id n
  config : m.session.config = i.config

def Hosts (w : World) : Prop :=
  ∀ n m, w.members.get? n = some m → i.Lodges n m

variable {i}

theorem place_name_ne {n m : String} (hne : n ≠ m) : (i.place n).name ≠ (i.place m).name :=
  fun h => hne (i.distinct n m ((String.append_right_inj _).mp h))

theorem Lodges.storageName {n : String} {m : Member} (h : i.Lodges n m) :
    m.session.storageName = (i.place n).name := by
  rw [Session.storageName, Setup.storageName, h.config, h.id]
  rfl

theorem Lodges.host {n : String} {m : Member} (h : i.Lodges n m) :
    m.host = ⟨Site.storeActions i.store, none⟩ := by
  rw [Member.host, h.store, h.lock]
  rfl

section Steps

variable {n m : String} {w : World}

theorem view_attach (s : Session) (lock : Option LockHandle) :
    i.view n (w.attach n i.store lock s) = { i.view n w with session := some s } := by
  rw [view, World.session?, World.attach, Registry.get?_set, if_pos rfl]
  rfl

theorem view_attach_of_ne (hne : n ≠ m) (s : Session) (lock : Option LockHandle) :
    i.view n (w.attach m i.store lock s) = i.view n w := by
  rw [view, World.session?, World.attach, Registry.get?_set, if_neg hne]
  rfl

theorem view_enrol (made : Except Failure Session) :
    i.view n (w.enrol n i.store none made) = (i.view n w).opened made := by
  cases made with
  | error why => rfl
  | ok s => exact view_attach s none

inductive Turns (i : Instances) (n : String) (w : World) : World → Prop
  | still : Turns i n w w
  | left (site : Site) (s : Session) :
      i.Lodges n ⟨s, i.store, none⟩ →
      site.faults i.store = w.site.faults i.store →
      (∀ m, m ≠ n → (i.place m).blob site = (i.place m).blob w.site) →
      Turns i n w ({ w with site }.attach n i.store none s)

theorem setup_new {setup : Setup} {config : Config} {s : Session}
    (h : Session.new setup config = .ok s) : s.setup = setup ∧ s.config = config := by
  obtain ⟨masterKey, -, hs⟩ := bind_eq_ok.mp h
  cases hs
  exact ⟨rfl, rfl⟩

theorem setup_resume {setup : Setup} {config : Config} {stored : Except StoreFault (Option Bytes)}
    {s : Session} (h : Session.resume setup config stored = .ok s) :
    s.setup = setup ∧ s.config = config := by
  obtain ⟨made, hmade, h⟩ := bind_eq_ok.mp h
  have hsetup := setup_new hmade
  obtain ⟨blob, -, h⟩ := bind_eq_ok.mp h
  cases blob with
  | none =>
      cases h
      exact hsetup
  | some b =>
      obtain ⟨status, -, hs⟩ := bind_eq_ok.mp h
      cases hs
      exact hsetup

theorem turns_enrol {given : Setup} {made : Except Failure Session}
    (hmade : ∀ s, made = .ok s → s.setup = i.setup n given ∧ s.config = i.config) :
    Turns i n w (w.enrol n i.store none made) := by
  cases made with
  | error why => exact .still
  | ok s =>
      obtain ⟨hsetup, hconfig⟩ := hmade s rfl
      have hid : s.setup.instanceId = i.id n := by
        rw [hsetup]
        rfl
      exact .left w.site s ⟨rfl, rfl, hid, hconfig⟩ rfl fun _ _ => rfl

theorem perform_eq {member : Member} (op : Session.Operation) (hm : w.members.get? n = some member)
    (h : i.Lodges n member) : w.perform n op =
      let o := member.session.run ⟨Site.storeActions i.store, none⟩ op w.site
      some (o.answer, { w with site := o.state }.attach n i.store none o.session) := by
  rw [World.perform, hm, ← h.host]
  obtain ⟨s, store, lock⟩ := member
  obtain ⟨rfl, rfl, -, -⟩ := h
  rfl

theorem turns_call (hw : i.Hosts w) (c : Call) (n : String) : Turns i n w (c.run i w n).2 := by
  cases c with
  | create given => exact turns_enrol fun s hs => setup_new hs
  | resume given => exact turns_enrol fun s hs => setup_resume hs
  | perform op =>
      cases hm : w.members.get? n with
      | none =>
          rw [Call.run, World.perform, hm]
          exact .still
      | some member =>
          have h := hw n member hm
          rw [Call.run, perform_eq op hm h]
          obtain ⟨hsetup, hconfig⟩ := kin_run (Site.storeActions i.store) op member.session w.site
          refine .left _ _ ⟨rfl, rfl, ?_, hconfig.trans h.config⟩ ?_ fun m hne => ?_
          · exact (congrArg Setup.instanceId hsetup).trans h.id
          · exact view_run (fun site => site.faults i.store) op
              (fun change w => change.faults_apply i.store _ w) w.site
          · refine view_run (i.place m).blob op (fun change w => ?_) w.site
            rw [h.storageName]
            exact change.blob_apply_of_ne (place_name_ne hne) w
  | ask q =>
      rw [Call.run]
      split <;> exact .still

theorem Turns.hosts {w' : World} (h : Turns i n w w') (hw : i.Hosts w) : i.Hosts w' := by
  cases h with
  | still => exact hw
  | left _ _ hlodges =>
      intro m member hm
      rcases World.get?_attach hm with ⟨rfl, rfl⟩ | ⟨-, hold⟩
      · exact hlodges
      · exact hw m member hold

theorem Turns.faults {w' : World} (h : Turns i n w w') : i.faults w' = i.faults w := by
  cases h with
  | still => rfl
  | left _ _ _ hfaults => exact hfaults

theorem Turns.view {w' : World} (h : Turns i m w w') (hne : n ≠ m) : i.view n w' = i.view n w := by
  cases h with
  | still => rfl
  | left _ _ _ _ hblob =>
      rw [view_attach_of_ne hne, Instances.view, Instances.view, hblob n hne]
      rfl

theorem alone_eq (hw : i.Hosts w) (c : Call) (n : String) :
    c.alone i n (i.faults w) (i.view n w) = ((c.run i w n).1, i.view n (c.run i w n).2) := by
  cases c with
  | create given => rw [Call.run, view_enrol, Call.alone]
  | resume given =>
      rw [Call.run, view_enrol, Call.alone]
      rfl
  | perform op =>
      cases hm : w.members.get? n with
      | none =>
          have hnobody : (i.view n w).session = none := congrArg (Option.map Member.session) hm
          rw [Call.run, World.perform, hm, Call.alone, hnobody]
          rfl
      | some member =>
          have h := hw n member hm
          have hsession : (i.view n w).session = some member.session :=
            congrArg (Option.map Member.session) hm
          have hslot : member.session.run ⟨Slot.actions, none⟩ op ⟨(i.view n w).blob, i.faults w⟩ =
              Outcome.seen (i.place n).slot
                (member.session.run ⟨Site.storeActions i.store, none⟩ op w.site) :=
            run_slot op h.storageName w.site
          rw [Call.run, perform_eq op hm h, Call.alone, hsession]
          dsimp only
          rw [view_attach, hslot]
          rfl
  | ask q =>
      rw [Call.run, Call.alone, view]
      dsimp only
      split <;> rfl

theorem hosts_step (hw : i.Hosts w) (e : Event) : i.Hosts (i.step w e) := by
  cases e with
  | call n c => exact (turns_call hw c n).hosts hw
  | fail faults => exact hw

theorem view_fail (n : String) (w : World) (faults : Faults) :
    i.view n (i.step w (.fail faults)) = i.view n w := by
  have hblob : (i.place n).blob (i.step w (.fail faults)).site = (i.place n).blob w.site :=
    Place.blob_setStore (i.place n) w.site _
  rw [view, hblob]
  rfl

theorem faults_fail (w : World) (faults : Faults) :
    i.faults (i.step w (.fail faults)) = faults := by
  rw [Instances.faults, step, World.setFaults, Site.faults, Site.store_setStore_self]
  rfl

end Steps

section Runs

variable {n : String} {w : World}

theorem replay_calls (hw : i.Hosts w) (es : List Event) :
    i.replay n (i.view n w) (calls n (i.faults w) es) = (i.log n w es, i.view n (i.run w es)) := by
  induction es generalizing w with
  | nil => rfl
  | cons e es ih =>
      have hrest := ih (hosts_step hw e)
      cases e with
      | fail faults =>
          rw [view_fail, faults_fail] at hrest
          exact hrest
      | call m c =>
          have hturns := turns_call hw c m
          have hfaults : i.faults (i.step w (.call m c)) = i.faults w := hturns.faults
          rw [hfaults] at hrest
          rw [calls, log]
          by_cases hm : m = n
          · subst hm
            rw [if_pos rfl, if_pos rfl, replay, alone_eq hw]
            dsimp only
            rw [step] at hrest
            rw [hrest]
            rfl
          · have hview : i.view n (i.step w (.call m c)) = i.view n w := hturns.view (Ne.symm hm)
            rw [hview] at hrest
            rw [if_neg hm, if_neg hm]
            exact hrest

def only (n : String) (w : World) : World :=
  { w with
    members :=
      match w.members.get? n with
      | some m => Registry.empty.set n m
      | none => .empty }

theorem get?_only (n m : String) (w : World) :
    (only n w).members.get? m = if m = n then w.members.get? n else none := by
  unfold only
  cases w.members.get? n with
  | none =>
      rw [ite_self]
      rfl
  | some member => rw [Registry.get?_set, Registry.get?_empty]

theorem hosts_only (hw : i.Hosts w) (n : String) : i.Hosts (only n w) := by
  intro m member hm
  rw [get?_only] at hm
  split at hm
  next heq =>
    subst heq
    exact hw m member hm
  next => cases hm

theorem view_only (n : String) (w : World) : i.view n (only n w) = i.view n w := by
  rw [view, World.session?, get?_only, if_pos rfl]
  rfl

def Event.concerns (n : String) : Event → Bool
  | .call m _ => m == n
  | .fail _ => true

theorem calls_filter (n : String) (f : Faults) (es : List Event) :
    calls n f (es.filter (Event.concerns n)) = calls n f es := by
  induction es generalizing f with
  | nil => rfl
  | cons e es ih =>
      cases e with
      | fail faults => exact ih faults
      | call m c =>
          by_cases hm : m = n
          · subst hm
            rw [List.filter_cons_of_pos (by simp [Event.concerns]), calls, calls, ih]
          · rw [List.filter_cons_of_neg (by simpa [Event.concerns] using hm), calls, if_neg hm, ih]

theorem instances_isolated (hw : i.Hosts w) (n : String) (es : List Event) :
    (∀ w' es', i.Hosts w' → i.view n w' = i.view n w →
      calls n (i.faults w') es' = calls n (i.faults w) es →
      i.log n w' es' = i.log n w es ∧ i.view n (i.run w' es') = i.view n (i.run w es)) ∧
    i.log n (only n w) (es.filter (Event.concerns n)) = i.log n w es ∧
    i.view n (i.run (only n w) (es.filter (Event.concerns n))) = i.view n (i.run w es) := by
  have hsame w' es' (hw' : i.Hosts w') (hview : i.view n w' = i.view n w)
      (hcalls : calls n (i.faults w') es' = calls n (i.faults w) es) :
      i.log n w' es' = i.log n w es ∧ i.view n (i.run w' es') = i.view n (i.run w es) := by
    have hreplay := replay_calls (n := n) hw' es'
    rw [hview, hcalls, replay_calls hw es] at hreplay
    exact ⟨(congrArg Prod.fst hreplay).symm, (congrArg Prod.snd hreplay).symm⟩
  exact ⟨hsame, hsame _ _ (hosts_only hw n) (view_only n w) (calls_filter n _ es)⟩

end Runs

section Example

def sampleInstances : Instances where
  store := "main"
  config := {}
  id n := n
  distinct _ _ h := h

def sampleTenant (n : String) : Session :=
  { sampleSession with setup := { sampleSetup with instanceId := n } }

def neighbours : World :=
  let stored := (Registry.empty.set (sampleInstances.place "first").name [1]).set
    (sampleInstances.place "second").name [2]
  let w : World := { site := { stores := Registry.empty.set "main" { entries := stored } } }
  (w.attach "first" "main" none (sampleTenant "first")).attach "second" "main" none
    (sampleTenant "second")

theorem hosts_neighbours : sampleInstances.Hosts neighbours := by
  intro n m hm
  rcases World.get?_attach hm with ⟨rfl, rfl⟩ | ⟨-, hm⟩
  · exact ⟨rfl, rfl, rfl, rfl⟩
  · rcases World.get?_attach hm with ⟨rfl, rfl⟩ | ⟨-, hm⟩
    · exact ⟨rfl, rfl, rfl, rfl⟩
    · cases hm

theorem neighbour_undisturbed :
    let es :=
      [.call "first" (.perform .reset), .fail ⟨false, true⟩, .call "second" (.perform .reset)]
    sampleInstances.Hosts neighbours ∧
      (sampleInstances.view "first" (sampleInstances.run neighbours es)).blob = none ∧
      (sampleInstances.view "second" (sampleInstances.run neighbours es)).blob = some [2] ∧
      sampleInstances.log "second" neighbours es =
        [(.answer (.error (.store .write)), sampleInstances.view "second" neighbours)] := by
  intro es
  obtain ⟨-, hlog, hview⟩ := instances_isolated hosts_neighbours "second" es
  rw [← hlog, ← hview]
  exact ⟨hosts_neighbours, rfl, rfl, rfl⟩

end Example

end Instances

end DeviceAuth
