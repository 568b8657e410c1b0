import Mathlib.Algebra.Group.Nat.Defs
import DeviceAuth.Envelope

namespace DeviceAuth

namespace KeyDerivation

open Expansion

variable {overflow : Overflow} {secret info out : Bytes} {length k m n : Nat} {e e' : Expansion}

def digests (secret info : Bytes) (n : Nat) : Bytes :=
  (List.range n).flatMap fun i => (sha256 (secret ++ Bytes.bigEndian 4 (i + 1) ++ info)).bytes

theorem digests_succ (secret info : Bytes) (n : Nat) :
    digests secret info (n + 1) =
      digests secret info n ++ (sha256 (secret ++ Bytes.bigEndian 4 (n + 1) ++ info)).bytes := by
  rw [digests, List.range_succ, List.flatMap_append, List.flatMap_singleton]
  rfl

theorem length_digests (secret info : Bytes) (n : Nat) :
    (digests secret info n).length = 32 * n := by
  simp [digests, List.length_flatMap, Fixed.length_eq, List.map_const', Nat.mul_comm]

theorem digests_isPrefix (secret info : Bytes) (h : m ≤ n) :
    digests secret info m <+: digests secret info n := by
  induction h with
  | refl => exact List.prefix_rfl
  | @step n _ ih =>
      rw [digests_succ]
      exact ih.trans (List.prefix_append _ _)

theorem take_digests (hm : length ≤ 32 * m) (h : m ≤ n) :
    (digests secret info n).take length = (digests secret info m).take length := by
  obtain ⟨rest, hrest⟩ := digests_isPrefix secret info h
  rw [← hrest, List.take_append_of_le_length]
  rwa [length_digests]

theorem take_digests_eq (hm : length ≤ 32 * m) (hn : length ≤ 32 * n) :
    (digests secret info n).take length = (digests secret info m).take length := by
  rcases Nat.le_total m n with hle | hle
  · exact take_digests hm hle
  · exact (take_digests hn hle).symm

namespace Overflow

variable {number number' : UInt32}

theorem succ?_halts_eq_none : halts.succ? number = none ↔ number.toNat + 1 = 2 ^ 32 := by
  have hbound := number.toNat_lt
  have hzero : number + 1 = 0 ↔ number.toNat + 1 = 2 ^ 32 := by
    rw [← UInt32.toNat_inj, UInt32.toNat_add, UInt32.toNat_one, UInt32.toNat_zero]
    omega
  rw [← hzero]
  by_cases hlast : number + 1 = 0
  · rw [succ?, if_pos hlast]
    exact iff_of_true rfl hlast
  · rw [succ?, if_neg hlast]
    exact iff_of_false nofun hlast

theorem eq_of_succ? (h : overflow.succ? number = some number') : number' = number + 1 := by
  cases overflow with
  | wraps => exact (Option.some.inj h).symm
  | halts =>
      rw [succ?] at h
      split at h
      · cases h
      · exact (Option.some.inj h).symm

end Overflow

-- The states in which the loop compares lengths, each with the number of digests before it.
inductive Reached (overflow : Overflow) (secret info : Bytes) (length : Nat) :
    Nat → Expansion → Prop
  | start : Reached overflow secret info length 0 .start
  | next {k : Nat} {e e' : Expansion} : Reached overflow secret info length k e →
      e.output.length < length → next? overflow secret info e = some e' →
      Reached overflow secret info length (k + 1) e'

structure Grown (secret info : Bytes) (k : Nat) (e : Expansion) : Prop where
  output : e.output = digests secret info k
  counter : e.counter = UInt32.ofNat (k + 1)

namespace Grown

theorem length_output (h : Grown secret info k e) : e.output.length = 32 * k := by
  rw [h.output, length_digests]

theorem toNat_counter (h : Grown secret info k e) (hk : k + 1 < 2 ^ 32) :
    e.counter.toNat = k + 1 := by
  rw [h.counter, UInt32.toNat_ofNat']
  exact Nat.mod_eq_of_lt hk

theorem start : Grown secret info 0 .start :=
  ⟨rfl, rfl⟩

theorem next (h : Grown secret info k e) (hk : k + 1 < 2 ^ 32)
    (hnext : next? overflow secret info e = some e') : Grown secret info (k + 1) e' := by
  obtain ⟨counter, hcounter, rfl⟩ := Option.map_eq_some_iff.mp hnext
  refine ⟨?_, ?_⟩
  · show e.output ++ _ = _
    rw [h.output, h.toNat_counter hk, digests_succ]
  · show counter = _
    rw [Overflow.eq_of_succ? hcounter, h.counter, UInt32.ofNat_add (k + 1)]
    rfl

theorem enough {start : Expansion} (h : Grown secret info k e)
    (hfull : fill? overflow secret info length start = some e) : length ≤ 32 * k := by
  rw [← h.length_output]
  exact le_length_of_fill? hfull

end Grown

theorem Reached.fill (h : Reached overflow secret info length k e)
    (hfull : fill? overflow secret info length e = some e') :
    ∃ n, Reached overflow secret info length n e' := by
  fun_induction fill? overflow secret info length e generalizing k with
  | case1 => cases hfull
  | case2 e hmore next hnext ih => exact ih (h.next hmore hnext) hfull
  | case3 e _ =>
      cases hfull
      exact ⟨k, h⟩

theorem Reached.stuck (h : Reached overflow secret info length k e)
    (hnone : fill? overflow secret info length e = none) :
    ∃ n e', Reached overflow secret info length n e' ∧ e'.output.length < length ∧
      overflow.succ? e'.counter = none := by
  fun_induction fill? overflow secret info length e generalizing k with
  | case1 e hmore hnext => exact ⟨k, e, h, hmore, Option.map_eq_none_iff.mp hnext⟩
  | case2 e hmore next hnext ih => exact ih (h.next hmore hnext) hnone
  | case3 => cases hnone

theorem Reached.grown (hlimit : length ≤ 32 * (2 ^ 32 - 1))
    (h : Reached overflow secret info length k e) : Grown secret info k e := by
  induction h with
  | start => exact .start
  | next _ hmore hnext ih =>
      rw [ih.length_output] at hmore
      exact ih.next (by omega) hnext

theorem Reached.lt_of_limit (hlimit : length ≤ 32 * (2 ^ 32 - 1))
    (h : Reached overflow secret info length k e) : 32 * k < length + 32 := by
  cases h with
  | start => omega
  | next hbefore hmore hnext =>
      rw [(hbefore.grown hlimit).length_output] at hmore
      omega

-- For every length: a counter that halts does not get past the last number.
theorem Reached.grown_of_halts (h : Reached .halts secret info length k e) :
    Grown secret info k e ∧ k + 1 < 2 ^ 32 := by
  induction h with
  | start => exact ⟨.start, by decide⟩
  | @next k e e' _ _ hnext ih =>
      obtain ⟨hgrown, hk⟩ := ih
      refine ⟨hgrown.next hk hnext, ?_⟩
      have hlast : e.counter.toNat + 1 ≠ 2 ^ 32 := by
        intro hlast
        rw [next?, Overflow.succ?_halts_eq_none.mpr hlast] at hnext
        cases hnext
      rw [hgrown.toNat_counter hk] at hlast
      omega

theorem stream?_halts_eq_none :
    stream? .halts secret info length = none ↔ 32 * (2 ^ 32 - 2) < length := by
  rw [stream?, Option.map_eq_none_iff]
  constructor
  · intro hnone
    obtain ⟨k, e, hreached, hmore, hstuck⟩ := Reached.start.stuck hnone
    obtain ⟨hgrown, hk⟩ := hreached.grown_of_halts
    have hlast := Overflow.succ?_halts_eq_none.mp hstuck
    rw [hgrown.toNat_counter hk] at hlast
    rw [hgrown.length_output] at hmore
    omega
  · intro hlong
    cases hfull : fill? .halts secret info length .start with
    | none => rfl
    | some full =>
        obtain ⟨k, hreached⟩ := Reached.start.fill hfull
        obtain ⟨hgrown, hk⟩ := hreached.grown_of_halts
        have henough := hgrown.enough hfull
        omega

theorem eq_of_stream? (hlimit : length ≤ 32 * (2 ^ 32 - 1)) (hn : length ≤ 32 * n)
    (h : stream? overflow secret info length = some out) :
    out = (digests secret info n).take length := by
  obtain ⟨full, hfull, rfl⟩ := Option.map_eq_some_iff.mp h
  obtain ⟨k, hreached⟩ := Reached.start.fill hfull
  have hgrown := hreached.grown hlimit
  rw [hgrown.output]
  exact take_digests_eq hn (hgrown.enough hfull)

theorem exists_stream? (h : overflow = .halts → length ≤ 32 * (2 ^ 32 - 2)) :
    ∃ out, stream? overflow secret info length = some out := by
  cases overflow with
  | wraps => exact ⟨_, stream?_wraps secret info length⟩
  | halts =>
      refine Option.ne_none_iff_exists'.mp fun hnone => ?_
      exact Nat.not_lt_of_le (h rfl) (stream?_halts_eq_none.mp hnone)

structure Standard (overflow : Overflow) (secret info : Bytes) (length : Nat) : Prop where
  counted : ∀ k e, Reached overflow secret info length k e → e.counter.toNat = k + 1
  bytes : ∀ n, length ≤ 32 * n →
    stream? overflow secret info length = some ((digests secret info n).take length)

theorem standard (hlimit : length ≤ 32 * (2 ^ 32 - 2)) :
    Standard overflow secret info length where
  counted k e hreached := by
    have hweak : length ≤ 32 * (2 ^ 32 - 1) := by omega
    have hrounds := hreached.lt_of_limit hweak
    exact (hreached.grown hweak).toNat_counter (by omega)
  bytes n hn := by
    have hends : ∃ out, stream? overflow secret info length = some out :=
      exists_stream? fun _ => hlimit
    obtain ⟨out, hout⟩ := hends
    rw [hout, eq_of_stream? (by omega) hn hout]

structure Exhausted (secret info : Bytes) (length : Nat) : Prop where
  halted : stream? .halts secret info length = none
  wrapped : ∃ e, fill? .wraps secret info length .start = some e ∧ e.counter = 0
  bytes : ∀ n, length ≤ 32 * n →
    stream? .wraps secret info length = some ((digests secret info n).take length)

theorem exhausted (hlong : 32 * (2 ^ 32 - 2) < length) (hlimit : length ≤ 32 * (2 ^ 32 - 1)) :
    Exhausted secret info length where
  halted := stream?_halts_eq_none.mpr hlong
  wrapped := by
    obtain ⟨full, hfull⟩ := Option.isSome_iff_exists.mp
      (isSome_fill?_wraps secret info length .start)
    obtain ⟨k, hreached⟩ := Reached.start.fill hfull
    have hgrown := hreached.grown hlimit
    have hrounds := hreached.lt_of_limit hlimit
    have henough := hgrown.enough hfull
    have hk : k = 2 ^ 32 - 1 := by omega
    exact ⟨full, hfull, by rw [hgrown.counter, hk]; rfl⟩
  bytes n hn := by
    rw [stream?_wraps, eq_of_stream? hlimit hn (stream?_wraps secret info length)]

theorem stream?_isPrefix {long : Bytes} (hmn : m ≤ n) (hlimit : n ≤ 32 * (2 ^ 32 - 1))
    (hlong : stream? overflow secret info n = some long) :
    ∃ short, stream? overflow secret info m = some short ∧ short <+: long := by
  have hends : overflow = .halts → m ≤ 32 * (2 ^ 32 - 2) := by
    rintro rfl
    refine Nat.le_trans hmn (Nat.le_of_not_lt fun h => ?_)
    rw [stream?_halts_eq_none.mpr h] at hlong
    cases hlong
  obtain ⟨short, hshort⟩ := exists_stream? hends
  refine ⟨short, hshort, ?_⟩
  rw [eq_of_stream? (n := n) (by omega) (by omega) hshort,
    eq_of_stream? (n := n) hlimit (by omega) hlong]
  exact List.take_prefix_take_left hmn

end KeyDerivation

namespace Envelope.Keys

open KeyDerivation

theorem parts_of_derive (secret : Key) (info ephemeralKey : Bytes) :
    (derive secret info ephemeralKey).encryption.bytes ++
        ((derive secret info ephemeralKey).authentication.bytes ++
          (derive secret info ephemeralKey).vector.bytes) =
      stream secret.bytes (info ++ ephemeralKey) 48 := by
  let material := stream secret.bytes (info ++ ephemeralKey) 48
  have hlast : (material.drop 16).take 16 ++ material.drop (16 + 16) = material.drop 16 := by
    rw [← List.drop_drop, List.take_append_drop]
  calc material.take 16 ++ ((material.drop 16).take 16 ++ material.drop (16 + 16))
      = material.take 16 ++ material.drop 16 := by rw [hlast]
    _ = material := List.take_append_drop 16 material

end Envelope.Keys

namespace KeyDerivation

open Envelope Expansion

theorem stream?_eq_parts (overflow : Overflow) (secret : Key) (info ephemeralKey : Bytes) :
    stream? overflow secret.bytes (info ++ ephemeralKey) 48 =
      some ((Keys.derive secret info ephemeralKey).encryption.bytes ++
        ((Keys.derive secret info ephemeralKey).authentication.bytes ++
          (Keys.derive secret info ephemeralKey).vector.bytes)) := by
  rw [Keys.parts_of_derive, ← stream?_wraps, (standard (by decide)).bytes 2 (by decide),
    (standard (by decide)).bytes 2 (by decide)]

theorem stream_is_standard :
    (∀ overflow secret info length, length ≤ 32 * (2 ^ 32 - 2) →
      Standard overflow secret info length) ∧
    (∀ secret info length, 32 * (2 ^ 32 - 2) < length → length ≤ 32 * (2 ^ 32 - 1) →
      Exhausted secret info length) ∧
    (∀ overflow secret info m n long, m ≤ n → n ≤ 32 * (2 ^ 32 - 1) →
      stream? overflow secret info n = some long →
        ∃ short, stream? overflow secret info m = some short ∧ short <+: long) ∧
    ∀ overflow secret info ephemeralKey,
      stream? overflow secret.bytes (info ++ ephemeralKey) 48 =
        some ((Keys.derive secret info ephemeralKey).encryption.bytes ++
          ((Keys.derive secret info ephemeralKey).authentication.bytes ++
            (Keys.derive secret info ephemeralKey).vector.bytes)) :=
  ⟨fun _ _ _ _ hlimit => standard hlimit,
    fun _ _ _ hlong hlimit => exhausted hlong hlimit,
    fun _ _ _ _ _ _ hmn hlimit hlong => stream?_isPrefix hmn hlimit hlong,
    stream?_eq_parts⟩

theorem longest_streams_standard :
    32 * (2 ^ 32 - 2) ≤ 32 * (2 ^ 32 - 2) ∧
      Standard .halts [1] [2] (32 * (2 ^ 32 - 2)) ∧
    32 * (2 ^ 32 - 2) < 32 * (2 ^ 32 - 1) ∧ 32 * (2 ^ 32 - 1) ≤ 32 * (2 ^ 32 - 1) ∧
      Exhausted [1] [2] (32 * (2 ^ 32 - 1)) ∧
    ∃ short, stream? .wraps [1] [2] 33 = some short ∧
      short <+: stream [1] [2] (32 * (2 ^ 32 - 1)) :=
  ⟨Nat.le_refl _, stream_is_standard.1 .halts [1] [2] _ (Nat.le_refl _),
    by decide, Nat.le_refl _,
    stream_is_standard.2.1 [1] [2] _ (by decide) (Nat.le_refl _),
    stream_is_standard.2.2.1 .wraps [1] [2] 33 _ _ (by decide) (Nat.le_refl _)
      (stream?_wraps _ _ _)⟩

-- One byte past the longest stream that both builds can make, and 31 before the last that the
-- numbers suffice for.
theorem last_number_overflows :
    137438953409 ≤ 32 * (2 ^ 32 - 1) ∧ stream? .halts [] [] 137438953409 = none ∧
      ∃ e, fill? .wraps [] [] 137438953409 .start = some e ∧ e.counter = 0 := by
  have h : Exhausted [] [] 137438953409 := exhausted (by decide) (by decide)
  exact ⟨by decide, h.halted, h.wrapped⟩

end KeyDerivation

end DeviceAuth
