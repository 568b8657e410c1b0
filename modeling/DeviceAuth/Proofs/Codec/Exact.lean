import DeviceAuth.Proofs.Codec

namespace DeviceAuth

namespace Codec

variable {α β : Type}

def Exact (c : Codec α) : Prop :=
  ∀ input a rest, c.read input = some (a, rest) → input = c.write a ++ rest

theorem Exact.map {c : Codec α} {P : α → Prop} (h : c.Exact) (hy : c.Yields P) {f : α → β}
    {g : β → α} (hg : ∀ a, P a → g (f a) = a) : (c.map f g).Exact := by
  intro input b rest hr
  obtain ⟨⟨a, tail⟩, ha, hb⟩ := Option.map_eq_some_iff.mp hr
  cases hb
  simpa only [Codec.map, hg a (hy input a rest ha)] using h input a rest ha

theorem Exact.filterMap {c : Codec α} (h : c.Exact) {f? : α → Option β} {back : β → α}
    (hf : ∀ a b, f? a = some b → back b = a) : (c.filterMap f? back).Exact := by
  intro input b rest hr
  obtain ⟨⟨a, tail⟩, ha, hb⟩ := Option.bind_eq_some_iff.mp hr
  obtain ⟨b', hb', he⟩ := Option.map_eq_some_iff.mp hb
  cases he
  simpa only [Codec.filterMap, hf a b hb'] using h input a rest ha

theorem Exact.pair {c : Codec α} {d : Codec β} (hc : c.Exact) (hd : d.Exact) :
    (c.pair d).Exact := by
  intro input ab rest hr
  obtain ⟨⟨a, tail⟩, ha, hb⟩ := Option.bind_eq_some_iff.mp hr
  obtain ⟨⟨b, last⟩, hb', he⟩ := Option.map_eq_some_iff.mp hb
  cases he
  rw [hc input a tail ha, hd tail b rest hb']
  simp [Codec.pair]

theorem exact_fixed (width : Nat) : (fixed width).Exact := by
  intro input b rest hr
  obtain ⟨b', hb, he⟩ := Option.map_eq_some_iff.mp hr
  cases he
  have htake : input.take width = b.bytes := Fixed.ofBytes?_eq_some.mp hb
  simp only [fixed, ← htake, List.take_append_drop]

theorem exact_number (width : Nat) : (number width).Exact := by
  refine (exact_fixed width).map (yields_anything _) fun b _ => Fixed.ext_bytes ?_
  simpa only [b.length_eq] using Bytes.littleEndian_ofLittleEndian b.bytes

theorem exact_byte : byte.Exact :=
  (exact_number 1).map (yields_number 1) fun _ hn => UInt8.toNat_ofNat_of_lt' (by simpa using hn)

theorem exact_word32 : word32.Exact :=
  (exact_number 4).map (yields_number 4) fun _ hn => UInt32.toNat_ofNat_of_lt' (by simpa using hn)

theorem exact_word64 : word64.Exact :=
  (exact_number 8).map (yields_number 8) fun _ hn => UInt64.toNat_ofNat_of_lt' (by simpa using hn)

theorem exact_bytes : bytes.Exact := by
  intro input b rest hr
  obtain ⟨⟨n, tail⟩, hn, hb⟩ := Option.bind_eq_some_iff.mp hr
  dsimp only at hb
  split at hb
  next hle =>
    cases hb
    have hlength : (tail.take n).length = n := by simp [hle]
    rw [exact_number 8 input n tail hn]
    simp only [bytes, hlength, List.append_assoc, List.take_append_drop]
  next => cases hb

theorem exact_text : text.Exact :=
  exact_bytes.filterMap fun _ _ hs => Text.utf8_of_ofUtf8? hs

theorem exact_flag : flag.Exact := by
  refine exact_byte.filterMap fun b present hb => ?_
  by_cases hzero : b = 0
  · simp_all
  · by_cases hone : b = 1 <;> simp_all

theorem Exact.option {c : Codec α} (h : c.Exact) : c.option.Exact := by
  intro input o rest hr
  obtain ⟨⟨present, tail⟩, hp, hb⟩ := Option.bind_eq_some_iff.mp hr
  have hfront := exact_flag input present tail hp
  cases present with
  | false =>
      cases hb
      simpa [Codec.option] using hfront
  | true =>
      obtain ⟨⟨a, last⟩, ha, he⟩ := Option.map_eq_some_iff.mp hb
      cases he
      rw [hfront, h tail a rest ha]
      simp [Codec.option]

theorem exact_choice [DecidableEq α] {values : List α} (h : values.Nodup) :
    (choice values).Exact := by
  refine exact_word32.filterMap fun n a ha => ?_
  obtain ⟨hlt, rfl⟩ := List.getElem?_eq_some_iff.mp ha
  rw [h.idxOf_getElem, UInt32.ofNat_toNat]

theorem Exact.decode {c : Codec α} (h : c.Exact) {b : Bytes} {a : α} (hd : c.decode b = .ok a) :
    ∃ extra, b = c.write a ++ extra := by
  unfold Codec.decode decode? at hd
  cases hr : c.read b with
  | none => simp [hr] at hd
  | some p =>
      simp only [hr, Option.map_some, Except.ok.injEq] at hd
      subst hd
      exact ⟨p.2, h b p.1 p.2 hr⟩

theorem corrupted_of_decode {c : Codec α} {b : Bytes} {why : Failure}
    (h : c.decode b = .error why) : ∃ cause, why = .corrupted cause := by
  unfold Codec.decode at h
  split at h
  next => cases h
  next => exact ⟨_, (Except.error.inj h).symm⟩

end Codec

open Codec

theorem Counter.exact_codec : Counter.codec.Exact := by
  intro input c rest hr
  obtain ⟨⟨kind, tail⟩, hk, hb⟩ := Option.bind_eq_some_iff.mp hr
  have hfront := exact_word32 input kind tail hk
  dsimp only at hb
  split at hb
  next hzero =>
    obtain ⟨⟨n, last⟩, hn, he⟩ := Option.map_eq_some_iff.mp hb
    cases he
    rw [hfront, hzero, exact_word64 tail n last hn]
    simp [Counter.codec]
  next =>
    split at hb
    next hone =>
      obtain ⟨⟨⟨state, steps⟩, last⟩, hs, he⟩ := Option.map_eq_some_iff.mp hb
      cases he
      rw [hfront, hone, (exact_fixed 32).pair exact_word64 tail (state, steps) last hs]
      simp [Counter.codec]
    next => cases hb

theorem ProtectedKeys.exact_codec : ProtectedKeys.codec.Exact :=
  (exact_bytes.pair <| exact_bytes.pair <| exact_bytes.option.pair <| exact_bytes.pair <|
    (exact_fixed 16).pair exact_word32).map (yields_anything _) fun _ _ => rfl

theorem Activation.Record.exact_codec : Activation.Record.codec.Exact :=
  (exact_text.pair <| exact_bytes.pair <| exact_bytes.pair <| exact_bytes.pair <|
    exact_bytes.option.pair <| ProtectedKeys.exact_codec.pair <| Counter.exact_codec.pair <|
    exact_flag.pair <| (exact_choice (by decide)).pair (exact_choice (by decide)).option).map
      (yields_anything _) fun _ _ => rfl

end DeviceAuth
