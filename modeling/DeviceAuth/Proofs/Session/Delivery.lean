import DeviceAuth.Proofs.Session.Sign

namespace DeviceAuth.Session

open Activation Counter

structure Sent where
  request : HttpRequest
  factors : FactorSet
  signature : HttpSignature
  after : Counter
  arrives : Bool

structure Verifier where
  keys : FactorKeys
  secret : String
  lookahead : Nat

namespace Verifier

variable (v : Verifier)

def data (m : Sent) : Bytes :=
  m.request.normalizedData m.signature.nonce
    (if m.request.isOffline then offlineSecret else v.secret)

def expected (m : Sent) (c : Counter) : Except Failure String :=
  FactorSignature.compute m.factors v.keys c (v.data m)

def verify (m : Sent) (c : Counter) : Except Failure Counter :=
  FactorSignature.verify m.factors v.keys (v.data m) m.signature.signature v.lookahead c

def answers : Counter → List Sent → List (Except Failure Counter)
  | _, [] => []
  | c, m :: sent =>
      if m.arrives then v.verify m c :: answers ((v.verify m c).toOption.getD c) sent
      else answers c sent

-- After `lost` signatures that have not arrived, no gap is wider than the window, and no signature
-- that arrives is also the one of an earlier counter in its window.
def Bridges : Nat → Counter → List Sent → Prop
  | _, _, [] => True
  | lost, c, m :: sent =>
      if m.arrives then
        lost ≤ v.lookahead ∧
        (∀ j, j < lost → v.expected m (advance j c) ≠ .ok m.signature.signature) ∧
        Bridges 0 ((v.verify m c).toOption.getD c) sent
      else Bridges (lost + 1) c sent

def Consecutive : Counter → List Sent → Prop
  | _, [] => True
  | c, m :: sent =>
      v.expected m c = .ok m.signature.signature ∧ m.after = c.next ∧ Consecutive c.next sent

variable {v}

theorem consecutive_append {c : Counter} {sent : List Sent} {m : Sent} (h : v.Consecutive c sent)
    (hm : v.expected m (advance sent.length c) = .ok m.signature.signature)
    (hafter : m.after = (advance sent.length c).next) : v.Consecutive c (sent ++ [m]) := by
  induction sent generalizing c with
  | nil => exact ⟨hm, hafter, trivial⟩
  | cons m' sent ih => exact ⟨h.1, h.2.1, ih h.2.2 hm hafter⟩

theorem answers_of_consecutive {c : Counter} {lost : Nat} {sent : List Sent}
    (h : v.Consecutive (advance lost c) sent) (hbridges : v.Bridges lost c sent) :
    v.answers c sent = (sent.filter Sent.arrives).map fun m => .ok m.after := by
  induction sent generalizing c lost with
  | nil => rfl
  | cons m sent ih =>
      obtain ⟨hcode, hafter, hrest⟩ := h
      rw [answers]
      rw [Bridges] at hbridges
      cases harrives : m.arrives with
      | false =>
          simp only [harrives, Bool.false_eq_true, if_false] at hbridges ⊢
          rw [List.filter_cons_of_neg (by simp [harrives])]
          rw [← advance_succ] at hrest
          exact ih hrest hbridges
      | true =>
          simp only [harrives, if_true] at hbridges ⊢
          obtain ⟨hfew, hfirst, hnext⟩ := hbridges
          have haccepted : v.verify m c = .ok m.after := by
            rw [hafter]
            exact FactorSignature.verify_of_first hfew hcode hfirst
          rw [haccepted] at hnext ⊢
          rw [List.filter_cons_of_pos harrives, List.map_cons]
          rw [← hafter] at hrest
          have hcaught : v.Consecutive (advance 0 m.after) sent := hrest
          exact congrArg _ (ih hcaught hnext)

end Verifier

section Client

variable {σ : Type} {host : Host σ} {v : Verifier} {s s₀ : Session} {sent : List Sent}

-- From `s₀` a client has sent these signatures and come to `s`. It signs with factor keys that the
-- server holds too, and some attempts to sign may have failed.
inductive Signs (host : Host σ) (v : Verifier) (s₀ : Session) : List Sent → Session → Prop
  | start : Signs host v s₀ [] s₀
  | refused {sent s w request factors unlock nonce why} :
      Signs host v s₀ sent s → Undisturbed host s w →
      (s.run host (.sign request factors unlock nonce) w).answer = .error why →
      Signs host v s₀ sent (s.run host (.sign request factors unlock nonce) w).session
  | signed {sent s w request factors unlock nonce g c} (arrives : Bool) :
      Signs host v s₀ sent s → Undisturbed host s w →
      (∀ r, s.phase = .active r → s.Shares r factors unlock v.keys) →
      (s.run host (.sign request factors unlock nonce) w).answer = .ok (.signature g) →
      (s.run host (.sign request factors unlock nonce) w).session.counter? = some c →
      Signs host v s₀ (sent ++ [⟨request, factors, g, c, arrives⟩])
        (s.run host (.sign request factors unlock nonce) w).session

structure Position (v : Verifier) (c₀ : Counter) (sent : List Sent) (s : Session) (r : Record) :
    Prop where
  phase : s.phase = .active r
  health : r.health = .valid
  counter : r.counter = advance sent.length c₀
  secret : v.secret = s.setup.applicationSecret
  consecutive : v.Consecutive c₀ sent

theorem exists_position {r₀ : Record} (hphase : s₀.phase = .active r₀)
    (hhealth : r₀.health = .valid) (hsecret : v.secret = s₀.setup.applicationSecret)
    (h : Signs host v s₀ sent s) : ∃ r, Position v r₀.counter sent s r := by
  induction h with
  | start => exact ⟨r₀, hphase, hhealth, rfl, hsecret, trivial⟩
  | @refused sent s w request factors unlock nonce why _ hquiet hanswer ih =>
      have hstep := signStep_run request factors unlock nonce hquiet
      rw [hanswer] at hstep
      generalize (s.run host (.sign request factors unlock nonce) w).session = t at hstep ⊢
      cases hstep
      exact ih
  | @signed sent s w request factors unlock nonce g c arrives _ hquiet hshares hanswer hc ih =>
      obtain ⟨r, hr⟩ := ih
      have hstep := signStep_run request factors unlock nonce hquiet
      rw [hanswer] at hstep
      generalize (s.run host (.sign request factors unlock nonce) w).session = t at hstep hc ⊢
      cases hstep with
      | @signed r' _ hphase' hhealth' hg =>
          have hsame := hr.phase.symm.trans hphase'
          cases hsame
          have hcode := compute_of_signature hg (hshares r hphase')
          have hdata : s.signedData request g.nonce =
              v.data ⟨request, factors, g, c, arrives⟩ := by
            rw [Verifier.data, hr.secret]
            rfl
          rw [hdata, hr.counter] at hcode
          have hafter : c = (advance sent.length r₀.counter).next := by
            rw [← hr.counter]
            exact (Option.some.inj hc).symm
          refine ⟨{ r with counter := r.counter.next }, rfl, hhealth', ?_, hr.secret,
            Verifier.consecutive_append hr.consecutive hcode hafter⟩
          rw [List.length_append, List.length_singleton, advance_succ, hr.counter]

theorem delivered_signatures_accepted {r₀ : Record} (hphase : s₀.phase = .active r₀)
    (hhealth : r₀.health = .valid) (hsecret : v.secret = s₀.setup.applicationSecret)
    (hsigns : Signs host v s₀ sent s) (hbridges : v.Bridges 0 r₀.counter sent) :
    v.answers r₀.counter sent = (sent.filter Sent.arrives).map fun m => .ok m.after := by
  obtain ⟨r, hposition⟩ := exists_position hphase hhealth hsecret hsigns
  have hstart : v.Consecutive (advance 0 r₀.counter) sent := hposition.consecutive
  exact Verifier.answers_of_consecutive hstart hbridges

end Client

section Example

def sampleVerifier : Verifier where
  keys := ProtectedKeys.chosen sampleDerived .possessionOnly
  secret := "secret"
  lookahead := 1

def firstCounter : Counter :=
  .ofSeed (.zero 32)

def sampleSent (g : HttpSignature) (after : Counter) (arrives : Bool) : Sent where
  request := sampleRequest
  factors := .possessionOnly
  signature := g
  after := after
  arrives := arrives

theorem signs_signer {sent : List Sent} {s₀ : Session} {c : Counter} (arrives : Bool)
    (h : Signs sampleHost sampleVerifier s₀ sent (signer c .valid)) :
    ∃ g, g.nonce = Base64.encode (Fixed.zero 16).bytes ∧
      Signs sampleHost sampleVerifier s₀ (sent ++ [sampleSent g c.next arrives])
        (signer c.next .valid) := by
  obtain ⟨g, hnonce, hanswer, hsession⟩ := run_signer c
  have hcounter := congrArg counter? hsession
  have hsigned := Signs.signed arrives h (undisturbed_sampleHost _) (fun r hr => ?_) hanswer hcounter
  · rw [hsession] at hsigned
    exact ⟨g, hnonce, hsigned⟩
  · cases hr
    exact shares_signer c .valid

theorem codes_differ {data : Bytes}
    (h : data = sampleRequest.normalizedData (Base64.encode (Fixed.zero 16).bytes) "secret") :
    FactorSignature.compute .possessionOnly sampleVerifier.keys firstCounter data ≠
      FactorSignature.compute .possessionOnly sampleVerifier.keys firstCounter.next data := by
  subst h
  decide +kernel

theorem accepted_after_loss : ∃ lost arriving,
    Signs sampleHost sampleVerifier (signer firstCounter .valid)
      [sampleSent lost firstCounter.next false, sampleSent arriving firstCounter.next.next true]
      (signer firstCounter.next.next .valid) ∧
    sampleVerifier.answers firstCounter
      [sampleSent lost firstCounter.next false, sampleSent arriving firstCounter.next.next true] =
        [.ok firstCounter.next.next] := by
  obtain ⟨lost, -, hlost⟩ := signs_signer false
    (.start : Signs sampleHost sampleVerifier (signer firstCounter .valid) [] _)
  obtain ⟨arriving, hnonce, hsigns⟩ := signs_signer true hlost
  have hphase : (signer firstCounter .valid).phase = .active (signerRecord firstCounter .valid) := rfl
  have hsecret : sampleVerifier.secret = (signer firstCounter .valid).setup.applicationSecret := rfl
  obtain ⟨_, hposition⟩ := exists_position hphase rfl hsecret hsigns
  obtain ⟨-, -, hcode, -⟩ := hposition.consecutive
  have hdata : sampleVerifier.data (sampleSent arriving firstCounter.next.next true) =
      sampleRequest.normalizedData (Base64.encode (Fixed.zero 16).bytes) "secret" :=
    congrArg (fun n => sampleRequest.normalizedData n "secret") hnonce
  have hbridges : sampleVerifier.Bridges 0 firstCounter
      [sampleSent lost firstCounter.next false,
        sampleSent arriving firstCounter.next.next true] := by
    rw [Verifier.Bridges, if_neg (by simp [sampleSent]), Verifier.Bridges,
      if_pos (by simp [sampleSent])]
    refine ⟨Nat.le_refl 1, fun j hj hhit => ?_, trivial⟩
    obtain rfl : j = 0 := Nat.lt_one_iff.mp hj
    exact codes_differ hdata (hhit.trans hcode.symm)
  exact ⟨lost, arriving, hsigns,
    delivered_signatures_accepted hphase rfl hsecret hsigns hbridges⟩

end Example

end DeviceAuth.Session
