import DeviceAuth.Base64
import DeviceAuth.Proofs.Except
import DeviceAuth.Proofs.Text

namespace DeviceAuth.Base64

theorem value?_digit {n : Nat} (h : n < 64) : value? (digit n) = some n := by
  have hall : ∀ n : Fin 64, value? (digit n) = some n.val := by decide +kernel
  exact hall ⟨n, h⟩

theorem value?_eq_some {c : Char} {n : Nat} : value? c = some n ↔ n < 64 ∧ c = digit n := by
  constructor
  · intro h
    unfold value? at h
    split at h
    next hupper =>
      cases h
      have hrange : 65 ≤ c.toNat ∧ c.toNat ≤ 90 := Text.toNat_of_between hupper
      refine ⟨by omega, ?_⟩
      rw [digit, if_pos (by omega), Nat.add_sub_cancel' hrange.1, Char.ofNat_toNat]
    split at h
    next hlower =>
      cases h
      have hrange : 97 ≤ c.toNat ∧ c.toNat ≤ 122 := Text.toNat_of_between hlower
      refine ⟨by omega, ?_⟩
      rw [digit, if_neg (by omega), if_pos (by omega), Nat.add_sub_cancel' (by omega),
        Char.ofNat_toNat]
    split at h
    next hnumber =>
      cases h
      have hrange : 48 ≤ c.toNat ∧ c.toNat ≤ 57 := Text.toNat_of_between hnumber
      refine ⟨by omega, ?_⟩
      rw [digit, if_neg (by omega), if_neg (by omega), if_pos (by omega), Nat.add_sub_cancel,
        Char.ofNat_toNat]
    split at h
    next hplus =>
      cases h
      exact ⟨by decide, hplus⟩
    split at h
    next hslash =>
      cases h
      exact ⟨by decide, hslash⟩
    next => cases h
  · rintro ⟨hn, rfl⟩
    exact value?_digit hn

theorem digit_ne_pad {n : Nat} (h : n < 64) : digit n ≠ '=' := by
  have hall : ∀ n : Fin 64, digit n ≠ '=' := by decide +kernel
  exact hall ⟨n, h⟩

theorem ofChars?_quad {c d e f : Char} {rest : List Char} (hf : f ≠ '=') :
    ofChars? (c :: d :: e :: f :: rest) = do
      let s ← value? c
      let t ← value? d
      let u ← value? e
      let v ← value? f
      let more ← ofChars? rest
      return first s t :: second t u :: third u v :: more := by
  rw [ofChars?]
  · rintro rfl rfl rfl
    exact hf rfl
  · rintro rfl rfl
    exact hf rfl

section Bytes

variable (a b c : UInt8)

theorem first_digits : first (a.toNat / 4) (a.toNat % 4 * 16 + b.toNat / 16) = a := by
  have ha := a.toNat_lt
  have hb := b.toNat_lt
  apply UInt8.toNat_inj.mp
  rw [first, UInt8.toNat_ofNat']
  omega

theorem second_digits :
    second (a.toNat % 4 * 16 + b.toNat / 16) (b.toNat % 16 * 4 + c.toNat / 64) = b := by
  have hb := b.toNat_lt
  have hc := c.toNat_lt
  apply UInt8.toNat_inj.mp
  rw [second, UInt8.toNat_ofNat']
  omega

theorem third_digits : third (b.toNat % 16 * 4 + c.toNat / 64) (c.toNat % 64) = c := by
  have hc := c.toNat_lt
  apply UInt8.toNat_inj.mp
  rw [third, UInt8.toNat_ofNat']
  omega

end Bytes

theorem ofChars?_chars (b : Bytes) : ofChars? (chars b) = some b := by
  induction b using chars.induct with
  | case1 => rfl
  | case2 a =>
      have ha := a.toNat_lt
      have hfirst := first_digits a 0
      simp only [UInt8.toNat_zero, Nat.zero_div, Nat.add_zero] at hfirst
      simp [chars, ofChars?, value?_digit, hfirst, show a.toNat / 4 < 64 by omega,
        show a.toNat % 4 * 16 < 64 by omega]
  | case3 a b =>
      have ha := a.toNat_lt
      have hb := b.toNat_lt
      have hsecond := second_digits a b 0
      simp only [UInt8.toNat_zero, Nat.zero_div, Nat.add_zero] at hsecond
      simp [chars, ofChars?, value?_digit, first_digits, hsecond,
        show a.toNat / 4 < 64 by omega, show a.toNat % 4 * 16 + b.toNat / 16 < 64 by omega,
        show b.toNat % 16 * 4 < 64 by omega, digit_ne_pad]
  | case4 a b c rest ih =>
      have ha := a.toNat_lt
      have hb := b.toNat_lt
      have hc := c.toNat_lt
      rw [chars, ofChars?_quad (digit_ne_pad (by omega))]
      simp [value?_digit, ih, first_digits, second_digits, third_digits,
        show a.toNat / 4 < 64 by omega, show a.toNat % 4 * 16 + b.toNat / 16 < 64 by omega,
        show b.toNat % 16 * 4 + c.toNat / 64 < 64 by omega, show c.toNat % 64 < 64 by omega]

section Values

variable {s t u v : Nat}

theorem toNat_first (hs : s < 64) (ht : t < 64) : (first s t).toNat = s * 4 + t / 16 := by
  rw [first, UInt8.toNat_ofNat', Nat.mod_eq_of_lt (by omega)]

theorem toNat_second (hu : u < 64) : (second t u).toNat = t % 16 * 16 + u / 4 := by
  rw [second, UInt8.toNat_ofNat', Nat.mod_eq_of_lt (by omega)]

theorem toNat_third (hv : v < 64) : (third u v).toNat = u % 4 * 64 + v := by
  rw [third, UInt8.toNat_ofNat', Nat.mod_eq_of_lt (by omega)]

theorem chars_one (hs : s < 64) (ht : t < 64) (hzero : t % 16 = 0) :
    chars [first s t] = [digit s, digit t, '=', '='] := by
  rw [chars, toNat_first hs ht, show (s * 4 + t / 16) / 4 = s by omega,
    show (s * 4 + t / 16) % 4 * 16 = t by omega]

theorem chars_two (hs : s < 64) (ht : t < 64) (hu : u < 64) (hzero : u % 4 = 0) :
    chars [first s t, second t u] = [digit s, digit t, digit u, '='] := by
  rw [chars, toNat_first hs ht, toNat_second hu, show (s * 4 + t / 16) / 4 = s by omega,
    show (s * 4 + t / 16) % 4 * 16 + (t % 16 * 16 + u / 4) / 16 = t by omega,
    show (t % 16 * 16 + u / 4) % 16 * 4 = u by omega]

theorem chars_cons (hs : s < 64) (ht : t < 64) (hu : u < 64) (hv : v < 64) (rest : Bytes) :
    chars (first s t :: second t u :: third u v :: rest) =
      digit s :: digit t :: digit u :: digit v :: chars rest := by
  rw [chars, toNat_first hs ht, toNat_second hu, toNat_third hv,
    show (s * 4 + t / 16) / 4 = s by omega,
    show (s * 4 + t / 16) % 4 * 16 + (t % 16 * 16 + u / 4) / 16 = t by omega,
    show (t % 16 * 16 + u / 4) % 16 * 4 + (u % 4 * 64 + v) / 64 = u by omega,
    show (u % 4 * 64 + v) % 64 = v by omega]

end Values

theorem bind_value?_eq_some {α : Type} {c : Char} {f : Nat → Option α} {a : α} :
    (value? c >>= f) = some a ↔ ∃ n < 64, c = digit n ∧ f n = some a := by
  constructor
  · intro h
    obtain ⟨n, hn, ha⟩ := Option.bind_eq_some_iff.mp h
    obtain ⟨hlt, hc⟩ := value?_eq_some.mp hn
    exact ⟨n, hlt, hc, ha⟩
  · rintro ⟨n, hlt, hc, ha⟩
    exact Option.bind_eq_some_iff.mpr ⟨n, value?_eq_some.mpr ⟨hlt, hc⟩, ha⟩

theorem eq_chars_of_ofChars? {cs : List Char} {b : Bytes} (h : ofChars? cs = some b) :
    cs = chars b := by
  induction cs using ofChars?.induct generalizing b with
  | case1 =>
      cases h
      rfl
  | case2 c d =>
      obtain ⟨s, hs, rfl, hd⟩ := bind_value?_eq_some.mp h
      obtain ⟨t, ht, rfl, hb⟩ := bind_value?_eq_some.mp hd
      split at hb
      next hzero =>
        cases hb
        rw [chars_one hs ht hzero]
      next => cases hb
  | case3 c d e hpad =>
      rw [ofChars?] at h
      · obtain ⟨s, hs, rfl, hd⟩ := bind_value?_eq_some.mp h
        obtain ⟨t, ht, rfl, he⟩ := bind_value?_eq_some.mp hd
        obtain ⟨u, hu, rfl, hb⟩ := bind_value?_eq_some.mp he
        split at hb
        next hzero =>
          cases hb
          rw [chars_two hs ht hu hzero]
        next => cases hb
      · exact hpad
  | case4 c d e f rest hpad hpads ih =>
      rw [ofChars?] at h
      · obtain ⟨s, hs, rfl, hd⟩ := bind_value?_eq_some.mp h
        obtain ⟨t, ht, rfl, he⟩ := bind_value?_eq_some.mp hd
        obtain ⟨u, hu, rfl, hf⟩ := bind_value?_eq_some.mp he
        obtain ⟨v, hv, rfl, hrest⟩ := bind_value?_eq_some.mp hf
        obtain ⟨more, hmore, hb⟩ := Option.bind_eq_some_iff.mp hrest
        cases hb
        rw [chars_cons hs ht hu hv, ← ih hmore]
      · exact hpad
      · exact hpads
  | case5 cs _ _ _ _ =>
      rw [ofChars?] at h
      · cases h
      all_goals assumption

theorem ofChars?_eq_some {cs : List Char} {b : Bytes} : ofChars? cs = some b ↔ cs = chars b :=
  ⟨eq_chars_of_ofChars?, fun h => h ▸ ofChars?_chars b⟩

theorem decode_encode (b : Bytes) : decode (encode b) = .ok b := by
  rw [decode, encode, String.toList_ofList, ofChars?_chars]

theorem mem_chars {b : Bytes} {c : Char} (h : c ∈ chars b) : c = '=' ∨ ∃ n < 64, c = digit n := by
  induction b using chars.induct with
  | case1 => cases h
  | case2 a =>
      have ha := a.toNat_lt
      simp only [chars, List.mem_cons, List.not_mem_nil, or_false] at h
      rcases h with rfl | rfl | rfl | rfl
      · exact .inr ⟨_, by omega, rfl⟩
      · exact .inr ⟨_, by omega, rfl⟩
      · exact .inl rfl
      · exact .inl rfl
  | case3 a b =>
      have ha := a.toNat_lt
      have hb := b.toNat_lt
      simp only [chars, List.mem_cons, List.not_mem_nil, or_false] at h
      rcases h with rfl | rfl | rfl | rfl
      · exact .inr ⟨_, by omega, rfl⟩
      · exact .inr ⟨_, by omega, rfl⟩
      · exact .inr ⟨_, by omega, rfl⟩
      · exact .inl rfl
  | case4 a b c rest ih =>
      have ha := a.toNat_lt
      have hb := b.toNat_lt
      have hc := c.toNat_lt
      simp only [chars, List.mem_cons] at h
      rcases h with rfl | rfl | rfl | rfl | h
      · exact .inr ⟨_, by omega, rfl⟩
      · exact .inr ⟨_, by omega, rfl⟩
      · exact .inr ⟨_, by omega, rfl⟩
      · exact .inr ⟨_, by omega, rfl⟩
      · exact ih h

theorem not_mem_chars {c : Char} (hvalue : value? c = none) (hpad : c ≠ '=') (b : Bytes) :
    c ∉ chars b := by
  intro h
  rcases mem_chars h with rfl | ⟨n, hn, rfl⟩
  · exact hpad rfl
  · rw [value?_digit hn] at hvalue
    cases hvalue

theorem ampersand_not_mem_chars (b : Bytes) : '&' ∉ chars b :=
  not_mem_chars (by decide) (by decide) b

theorem encode_injective {a b : Bytes} (h : encode a = encode b) : a = b := by
  have hchars := ofChars?_chars a
  rw [String.ofList_injective h, ofChars?_chars] at hchars
  exact (Option.some.inj hchars).symm

theorem decode_eq_ok {s : String} {b : Bytes} : decode s = .ok b ↔ s = encode b := by
  constructor
  · intro h
    unfold decode at h
    split at h
    next b' hread =>
      cases h
      rw [encode, ← eq_chars_of_ofChars? hread, String.ofList_toList]
    next => cases h
  · rintro rfl
    exact decode_encode b

end DeviceAuth.Base64
