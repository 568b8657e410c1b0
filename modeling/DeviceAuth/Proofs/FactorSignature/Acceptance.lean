import Mathlib.Data.List.Forall2
import DeviceAuth.Proofs.FactorSignature

namespace DeviceAuth.FactorSignature

open Counter

structure Attempt where
  factors : FactorSet
  keys : FactorKeys
  data : Bytes
  signature : String
  lookahead : Nat

namespace Attempt

variable (a : Attempt)

def Given (c : Counter) : Prop :=
  compute a.factors a.keys c a.data = .ok a.signature

instance (c : Counter) : Decidable (a.Given c) :=
  inferInstanceAs (Decidable (compute a.factors a.keys c a.data = .ok a.signature))

def verify (c : Counter) : Except Failure Counter :=
  FactorSignature.verify a.factors a.keys a.data a.signature a.lookahead c

structure First (c : Counter) (n : Nat) : Prop where
  within : n ≤ a.lookahead
  given : a.Given (advance n c)
  before : ∀ j < n, ¬a.Given (advance j c)

variable {a} {c next : Counter}

theorem First.verify {n : Nat} (h : a.First c n) : a.verify c = .ok (advance (n + 1) c) := by
  rw [advance_succ]
  exact verify_of_first h.within h.given h.before

theorem exists_first_of_given {n : Nat} (hn : n ≤ a.lookahead) (hgiven : a.Given (advance n c)) :
    ∃ m, a.First c m := by
  obtain ⟨m, hm, hmgiven, hbefore⟩ := exists_first hgiven
  exact ⟨m, Nat.le_trans hm hn, hmgiven, hbefore⟩

theorem verify_eq_ok_iff : a.verify c = .ok next ↔ ∃ n, a.First c n ∧ next = advance (n + 1) c := by
  constructor
  · intro h
    obtain ⟨n, hn, hgiven, -⟩ := verify_eq_ok h
    obtain ⟨m, hfirst⟩ := exists_first_of_given hn hgiven
    have hm := hfirst.verify
    rw [h] at hm
    exact ⟨m, hfirst, Except.ok.inj hm⟩
  · rintro ⟨n, hfirst, rfl⟩
    exact hfirst.verify

structure Searches (a : Attempt) (c : Counter) : Prop where
  accepts : (∃ next, a.verify c = .ok next) ↔ ∃ n ≤ a.lookahead, a.Given (advance n c)
  first : ∀ next, a.verify c = .ok next ↔ ∃ n, a.First c n ∧ next = advance (n + 1) c
  refuses : (∀ n ≤ a.lookahead, ¬a.Given (advance n c)) → a.verify c = .error .counterOutOfSync

theorem searches (hallowed : a.factors.allowed = true) (hhold : a.keys.Hold a.factors)
    (c : Counter) : a.Searches c where
  accepts := by
    constructor
    · rintro ⟨next, h⟩
      obtain ⟨n, hfirst, -⟩ := verify_eq_ok_iff.mp h
      exact ⟨n, hfirst.within, hfirst.given⟩
    · rintro ⟨n, hn, hgiven⟩
      obtain ⟨m, hfirst⟩ := exists_first_of_given hn hgiven
      exact ⟨_, hfirst.verify⟩
  first _ := verify_eq_ok_iff
  refuses := verify_of_none (exists_compute_iff.mpr ⟨hallowed, hhold⟩)

end Attempt

def acceptances : Counter → List Attempt → List (Attempt × Counter)
  | _, [] => []
  | c, a :: rest =>
      match a.verify c with
      | .ok next => (a, next) :: acceptances next rest
      | .error _ => acceptances c rest

structure Progress (c : Counter) (run : List Attempt) (places : List Nat) : Prop where
  ascending : places.Pairwise (· < ·)
  accepted : List.Forall₂
    (fun e n => e.1.Given (advance n c) ∧ e.2 = advance (n + 1) c) (acceptances c run) places
  distinct : (∀ n ∈ places, n < 2 ^ 64) → (places.map fun n => position (advance n c)).Nodup

variable {c : Counter} {run : List Attempt} {places : List Nat}

theorem exists_places (c : Counter) (run : List Attempt) (n : Nat) :
    ∃ places : List Nat, places.Pairwise (· < ·) ∧ (∀ m ∈ places, n ≤ m) ∧
      List.Forall₂ (fun e m => e.1.Given (advance m c) ∧ e.2 = advance (m + 1) c)
        (acceptances (advance n c) run) places := by
  induction run generalizing n with
  | nil => exact ⟨[], .nil, nofun, .nil⟩
  | cons a rest ih =>
      rw [acceptances]
      split
      next next h =>
        obtain ⟨m, hfirst, rfl⟩ := Attempt.verify_eq_ok_iff.mp h
        have hgiven := hfirst.given
        rw [advance_add] at hgiven ⊢
        obtain ⟨places, hascending, hlater, haccepted⟩ := ih (n + (m + 1))
        refine ⟨(n + m) :: places, List.pairwise_cons.mpr ⟨fun p hp => ?_, hascending⟩,
          List.forall_mem_cons.mpr ⟨Nat.le_add_right n m, fun p hp => ?_⟩,
          .cons ⟨hgiven, rfl⟩ haccepted⟩
        · have hp := hlater p hp
          omega
        · have hp := hlater p hp
          omega
      next => exact ih n

theorem nodup_positions (hascending : places.Pairwise (· < ·)) (hfew : ∀ n ∈ places, n < 2 ^ 64) :
    (places.map fun n => position (advance n c)).Nodup := by
  rw [List.nodup_iff_pairwise_ne, List.pairwise_map]
  refine hascending.imp_of_mem fun hm hn hlt hsame => ?_
  have hsteps := congrArg Prod.snd hsame
  exact absurd (eq_of_steps_advance (hfew _ hm) (hfew _ hn) hsteps) (Nat.ne_of_lt hlt)

theorem exists_progress (c : Counter) (run : List Attempt) : ∃ places, Progress c run places := by
  obtain ⟨places, hascending, -, haccepted⟩ := exists_places c run 0
  exact ⟨places, hascending, haccepted, nodup_positions hascending⟩

theorem accepted_once_and_in_order {a : Attempt} (hallowed : a.factors.allowed = true)
    (hhold : a.keys.Hold a.factors) (c : Counter) (run : List Attempt) :
    a.Searches c ∧ ∃ places, Progress c run places :=
  ⟨a.searches hallowed hhold c, exists_progress c run⟩

section Example

def sampleAttempt : Attempt where
  factors := .possessionOnly
  keys := { possession := some (sha256 [1]) }
  data := [100, 97, 116, 97]
  signature := "15958942"
  lookahead := 3

theorem wrapped_number_accepted_once :
    sampleAttempt.factors.allowed = true ∧ sampleAttempt.keys.Hold sampleAttempt.factors ∧
      sampleAttempt.verify (.numeric 0xfffffffffffffffe) = .ok (.numeric 1) ∧
      sampleAttempt.verify (.numeric 1) = .error .counterOutOfSync ∧
      ∃ places, Progress (.numeric 0xfffffffffffffffe) [sampleAttempt, sampleAttempt] places := by
  have hallowed : sampleAttempt.factors.allowed = true := rfl
  have hhold : sampleAttempt.keys.Hold sampleAttempt.factors := by
    intro f hf
    cases f with
    | possession => exact ⟨_, rfl⟩
    | knowledge => cases hf
    | biometry => cases hf
  have hfirst : sampleAttempt.First (.numeric 0xfffffffffffffffe) 2 :=
    ⟨by decide, by decide +kernel, by decide +kernel⟩
  have hnone : ∀ n ≤ sampleAttempt.lookahead, ¬sampleAttempt.Given (advance n (.numeric 1)) := by
    decide +kernel
  obtain ⟨hsearch, hprogress⟩ := accepted_once_and_in_order hallowed hhold
    (.numeric 0xfffffffffffffffe) [sampleAttempt, sampleAttempt]
  obtain ⟨hagain, -⟩ := accepted_once_and_in_order hallowed hhold (.numeric 1) []
  exact ⟨hallowed, hhold, (hsearch.first _).mpr ⟨2, hfirst, rfl⟩, hagain.refuses hnone, hprogress⟩

end Example

end DeviceAuth.FactorSignature
