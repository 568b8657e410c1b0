import DeviceAuth.Activation.RecordCodec
import DeviceAuth.Proofs.Framing

namespace DeviceAuth

namespace Codec

variable {α β : Type}

def Faithful (c : Codec α) (P : α → Prop) : Prop :=
  ∀ a, P a → ∀ rest, c.read (c.write a ++ rest) = some (a, rest)

theorem Faithful.weaken {c : Codec α} {P Q : α → Prop} (h : c.Faithful P) (hq : ∀ a, Q a → P a) :
    c.Faithful Q :=
  fun a ha => h a (hq a ha)

theorem Faithful.map {c : Codec α} {P : α → Prop} (h : c.Faithful P) {f : α → β} {g : β → α}
    (hf : ∀ b, f (g b) = b) : (c.map f g).Faithful fun b => P (g b) := by
  intro b hb rest
  simp only [Codec.map, h (g b) hb rest, Option.map_some, hf]

theorem Faithful.filterMap {c : Codec α} {P : α → Prop} (h : c.Faithful P) {f? : α → Option β}
    {back : β → α} : (c.filterMap f? back).Faithful fun b => P (back b) ∧ f? (back b) = some b := by
  intro b hb rest
  simp only [Codec.filterMap, h (back b) hb.1 rest, Option.bind_some, hb.2, Option.map_some]

theorem Faithful.pair {c : Codec α} {d : Codec β} {P : α → Prop} {Q : β → Prop}
    (hc : c.Faithful P) (hd : d.Faithful Q) :
    (c.pair d).Faithful fun ab => P ab.1 ∧ Q ab.2 := by
  intro ab hab rest
  simp only [Codec.pair, List.append_assoc, hc ab.1 hab.1, Option.bind_some, hd ab.2 hab.2,
    Option.map_some]

theorem faithful_fixed (width : Nat) : (fixed width).Faithful fun _ => True := by
  intro b _ rest
  have ht : (b.bytes ++ rest).take width = b.bytes := List.take_left' b.length_eq
  have hd : (b.bytes ++ rest).drop width = rest := List.drop_left' b.length_eq
  simp only [fixed, ht, hd, Fixed.ofBytes?_bytes, Option.map_some]

theorem faithful_number (width : Nat) : (number width).Faithful fun n => n < 256 ^ width := by
  intro n hn rest
  have h := faithful_fixed width ⟨Bytes.littleEndian width n, Bytes.length_littleEndian width n⟩
    trivial rest
  have hv : Bytes.ofLittleEndian (Bytes.littleEndian width n) = n := by
    rw [Bytes.ofLittleEndian_littleEndian, Bytes.capacity_eq, Nat.mod_eq_of_lt hn]
  simp only [number, Codec.map, h, Option.map_some, hv]

theorem faithful_byte : byte.Faithful fun _ => True :=
  ((faithful_number 1).map fun _ => UInt8.ofNat_toNat).weaken fun b _ => b.toNat_lt

theorem faithful_word32 : word32.Faithful fun _ => True :=
  ((faithful_number 4).map fun _ => UInt32.ofNat_toNat).weaken fun b _ => b.toNat_lt

theorem faithful_word64 : word64.Faithful fun _ => True :=
  ((faithful_number 8).map fun _ => UInt64.ofNat_toNat).weaken fun b _ => b.toNat_lt

def Short (b : Bytes) : Prop :=
  b.length < 2 ^ 64

theorem faithful_bytes : bytes.Faithful Short := by
  intro b hb rest
  have h := faithful_number 8 b.length (by simpa [Short] using hb) (b ++ rest)
  have hl : b.length ≤ (b ++ rest).length := by
    rw [List.length_append]
    omega
  simp only [bytes, List.append_assoc, h, Option.bind_some, if_pos hl, List.take_left,
    List.drop_left]

theorem faithful_text : text.Faithful fun s => Short (Text.utf8 s) :=
  faithful_bytes.filterMap.weaken fun s hs => ⟨hs, Text.ofUtf8?_utf8 s⟩

theorem faithful_flag : flag.Faithful fun _ => True :=
  faithful_byte.filterMap.weaken fun b _ => ⟨trivial, by cases b <;> rfl⟩

theorem Faithful.option {c : Codec α} {P : α → Prop} (h : c.Faithful P) :
    c.option.Faithful fun o => ∀ a ∈ o, P a := by
  intro o ho rest
  cases o with
  | none => simp [Codec.option, faithful_flag false trivial rest]
  | some a =>
      have hf := faithful_flag true trivial (c.write a ++ rest)
      simp only [Codec.option, List.append_assoc, hf, Option.bind_some, if_true,
        h a (ho a rfl) rest, Option.map_some]

theorem faithful_choice [DecidableEq α] {values : List α} (h : values.length < 2 ^ 32) :
    (choice values).Faithful (· ∈ values) := by
  refine faithful_word32.filterMap.weaken fun a ha => ⟨trivial, ?_⟩
  have hi : values.idxOf a < values.length := List.idxOf_lt_length_of_mem ha
  have hn : (UInt32.ofNat (values.idxOf a)).toNat = values.idxOf a :=
    UInt32.toNat_ofNat_of_lt' (by simpa [UInt32.size] using Nat.lt_trans hi h)
  rw [hn, List.getElem?_eq_getElem hi, List.getElem_idxOf hi]

def Yields (c : Codec α) (P : α → Prop) : Prop :=
  ∀ input a rest, c.read input = some (a, rest) → P a

theorem yields_anything (c : Codec α) : c.Yields fun _ => True :=
  fun _ _ _ _ => trivial

theorem Yields.map {c : Codec α} {P : α → Prop} (h : c.Yields P) {f : α → β} {g : β → α}
    {Q : β → Prop} (hf : ∀ a, P a → Q (f a)) : (c.map f g).Yields Q := by
  intro input b rest hr
  obtain ⟨⟨a, tail⟩, ha, hb⟩ := Option.map_eq_some_iff.mp hr
  cases hb
  exact hf a (h input a rest ha)

theorem Yields.filterMap {c : Codec α} {P : α → Prop} (h : c.Yields P) {f? : α → Option β}
    {back : β → α} {Q : β → Prop} (hf : ∀ a b, P a → f? a = some b → Q b) :
    (c.filterMap f? back).Yields Q := by
  intro input b rest hr
  obtain ⟨⟨a, tail⟩, ha, hb⟩ := Option.bind_eq_some_iff.mp hr
  obtain ⟨b', hb', he⟩ := Option.map_eq_some_iff.mp hb
  cases he
  exact hf a b (h input a rest ha) hb'

theorem Yields.pair {c : Codec α} {d : Codec β} {P : α → Prop} {Q : β → Prop}
    (hc : c.Yields P) (hd : d.Yields Q) : (c.pair d).Yields fun ab => P ab.1 ∧ Q ab.2 := by
  intro input ab rest hr
  obtain ⟨⟨a, tail⟩, ha, hb⟩ := Option.bind_eq_some_iff.mp hr
  obtain ⟨⟨b, last⟩, hb', he⟩ := Option.map_eq_some_iff.mp hb
  cases he
  exact ⟨hc input a tail ha, hd tail b rest hb'⟩

theorem Yields.option {c : Codec α} {P : α → Prop} (h : c.Yields P) :
    c.option.Yields fun o => ∀ a ∈ o, P a := by
  intro input o rest hr
  obtain ⟨⟨present, tail⟩, -, hb⟩ := Option.bind_eq_some_iff.mp hr
  cases present with
  | false =>
      cases hb
      simp
  | true =>
      obtain ⟨⟨a, last⟩, ha, he⟩ := Option.map_eq_some_iff.mp hb
      cases he
      simpa using h tail a rest ha

theorem yields_number (width : Nat) : (number width).Yields fun n => n < 256 ^ width := by
  refine (yields_anything _).map fun b _ => ?_
  simpa only [b.length_eq] using Bytes.ofLittleEndian_lt b.bytes

theorem yields_bytes : bytes.Yields Short := by
  intro input b rest hr
  obtain ⟨⟨n, tail⟩, hn, hb⟩ := Option.bind_eq_some_iff.mp hr
  have hlt : n < 2 ^ 64 := by simpa using yields_number 8 input n tail hn
  dsimp only at hb
  split at hb
  · cases hb
    rw [Short, List.length_take]
    omega
  · cases hb

theorem yields_text : text.Yields fun s => Short (Text.utf8 s) := by
  refine yields_bytes.filterMap fun b s hb hs => ?_
  rwa [Text.utf8_of_ofUtf8? hs]

theorem Faithful.decode {c : Codec α} {P : α → Prop} (h : c.Faithful P) {a : α} (ha : P a)
    (extra : Bytes) : c.decode (c.write a ++ extra) = .ok a := by
  simp only [Codec.decode, decode?, h a ha extra, Option.map_some]

theorem Yields.decode {c : Codec α} {P : α → Prop} (h : c.Yields P) {b : Bytes} {a : α}
    (hd : c.decode b = .ok a) : P a := by
  unfold Codec.decode decode? at hd
  cases hr : c.read b with
  | none => rw [hr] at hd; cases hd
  | some p =>
      rw [hr] at hd
      cases hd
      exact h b p.1 p.2 hr

end Codec

namespace Counter

theorem faithful_codec : codec.Faithful fun _ => True := by
  intro c _ rest
  cases c with
  | numeric n =>
      have hk := Codec.faithful_word32 0 trivial (Codec.word64.write n ++ rest)
      simp only [codec, List.append_assoc, hk, Option.bind_some, if_true,
        Codec.faithful_word64 n trivial rest, Option.map_some]
  | chain state steps =>
      have hp := (Codec.faithful_fixed 32).pair Codec.faithful_word64
      have hk := Codec.faithful_word32 1 trivial
        (((Codec.fixed 32).pair Codec.word64).write (state, steps) ++ rest)
      have h10 : ¬(1 : UInt32) = 0 := by decide
      simp only [codec, List.append_assoc, hk, Option.bind_some, if_neg h10, if_true,
        hp (state, steps) ⟨trivial, trivial⟩ rest, Option.map_some]

end Counter

open Codec

structure ProtectedKeys.Storable (p : ProtectedKeys) : Prop where
  possession : Short p.possession
  knowledge : Short p.knowledge
  biometry : ∀ b ∈ p.biometry, Short b
  transport : Short p.transport

theorem ProtectedKeys.faithful_codec : ProtectedKeys.codec.Faithful Storable := by
  have h := faithful_bytes.pair <| faithful_bytes.pair <| faithful_bytes.option.pair <|
    faithful_bytes.pair <| (faithful_fixed 16).pair faithful_word32
  refine Faithful.weaken (h.map fun _ => rfl) fun p hp => ?_
  exact ⟨hp.possession, hp.knowledge, hp.biometry, hp.transport, trivial, trivial⟩

theorem ProtectedKeys.yields_codec : ProtectedKeys.codec.Yields Storable := by
  have h := yields_bytes.pair <| yields_bytes.pair <| yields_bytes.option.pair <|
    yields_bytes.pair <| yields_anything ((fixed 16).pair word32)
  exact h.map fun _ hp => ⟨hp.1, hp.2.1, hp.2.2.1, hp.2.2.2.1⟩

namespace Activation

structure Record.Storable (r : Record) : Prop where
  complete : r.complete = true
  id : Short (Text.utf8 r.id)
  serverKey : Short r.serverKey
  deviceKey : Short r.deviceKey
  sealedPrivateKey : Short r.sealedPrivateKey
  sealedRecovery : ∀ b ∈ r.sealedRecovery, Short b
  keys : r.keys.Storable

theorem Health.mem_all (h : Health) : h ∈ all := by
  cases h <;> decide

theorem Record.faithful_codec : Record.codec.Faithful Storable := by
  have hh : (choice Health.all).Faithful (· ∈ Health.all) := faithful_choice (by decide)
  have hv : (choice Version.all).Faithful (· ∈ Version.all) := faithful_choice (by decide)
  have h := faithful_text.pair <| faithful_bytes.pair <| faithful_bytes.pair <|
    faithful_bytes.pair <| faithful_bytes.option.pair <| ProtectedKeys.faithful_codec.pair <|
    Counter.faithful_codec.pair <| faithful_flag.pair <| hh.pair hv.option
  refine Faithful.weaken (h.map fun _ => rfl) fun r hr => ?_
  refine ⟨hr.id, hr.serverKey, hr.deviceKey, hr.sealedPrivateKey, hr.sealedRecovery, hr.keys,
    trivial, trivial, r.health.mem_all, ?_⟩
  intro v _
  cases v <;> decide

theorem Record.storable_of_decode {b : Bytes} {r : Record} (hd : Record.codec.decode b = .ok r)
    (hc : r.complete = true) : r.Storable := by
  have h := yields_text.pair <| yields_bytes.pair <| yields_bytes.pair <| yields_bytes.pair <|
    yields_bytes.option.pair <| ProtectedKeys.yields_codec.pair <| yields_anything <|
    Counter.codec.pair <| flag.pair <| (choice Health.all).pair (choice Version.all).option
  have hy : Record.codec.Yields fun r => r.complete = true → r.Storable :=
    h.map fun _ hr hc => ⟨hc, hr.1, hr.2.1, hr.2.2.1, hr.2.2.2.1, hr.2.2.2.2.1, hr.2.2.2.2.2.1⟩
  exact hy.decode hd hc

end Activation

end DeviceAuth
