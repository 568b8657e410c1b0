import Mathlib.Control.Monad.Basic
import DeviceAuth.Proofs.Base64
import DeviceAuth.Proofs.FactorSignature

namespace DeviceAuth.FactorSignature

variable {factors : FactorSet} {keys : FactorKeys} {c : Counter} {data : Bytes} {mac : Key}
  {codes : List String} {text : String}

section Decimal

theorem decimalValue_lt (mac : Key) : decimalValue mac < 10 ^ 8 :=
  Nat.mod_lt _ (by decide)

theorem toList_decimal (mac : Key) :
    (decimal mac).toList = List.leftpad 8 '0' (Nat.toDigits 10 (decimalValue mac)) :=
  String.toList_ofList

theorem length_decimal (mac : Key) : (decimal mac).length = 8 := by
  have hdigits : (Nat.toDigits 10 (decimalValue mac)).length ≤ 8 :=
    (Nat.length_toDigits_le_iff (by decide) (by decide)).mpr (decimalValue_lt mac)
  rw [← String.length_toList, toList_decimal, List.length_leftpad]
  omega

theorem isDigit_of_mem_decimal {ch : Char} (h : ch ∈ (decimal mac).toList) :
    ch.isDigit = true := by
  rw [toList_decimal, List.leftpad, List.mem_append] at h
  rcases h with hzero | hdigit
  · rw [List.eq_of_mem_replicate hzero]
    decide
  · exact Nat.isDigit_of_mem_toDigits (by decide) (by decide) hdigit

theorem ofDigitChars_decimal (mac : Key) :
    Nat.ofDigitChars 10 (decimal mac).toList 0 = decimalValue mac := by
  rw [toList_decimal, List.leftpad, Nat.ofDigitChars_append, Nat.ofDigitChars_replicate_zero,
    Nat.mul_zero, Nat.ofDigitChars_ten_toDigits]

theorem decimalValue_eq {front : Bytes} {a b c d : UInt8} (h : mac.bytes = front ++ [a, b, c, d]) :
    decimalValue mac = Bytes.ofBigEndian [a &&& 0x7f, b, c, d] % 10 ^ 8 := by
  have hfront : front.length = 28 := by
    have hlength := mac.length_eq
    rw [h, List.length_append] at hlength
    exact Nat.add_right_cancel hlength
  have hcleared : (a &&& 0x7f).toNat = a.toNat % 128 := by
    rw [UInt8.toNat_and]
    exact Nat.and_two_pow_sub_one_eq_mod a.toNat 7
  have hb := b.toNat_lt
  have hc := c.toNat_lt
  have hd := d.toNat_lt
  have hvalue : Bytes.ofBigEndian [a, b, c, d] % 0x80000000 =
      Bytes.ofBigEndian [a &&& 0x7f, b, c, d] := by
    simp only [Bytes.ofBigEndian, Bytes.ofLittleEndian, List.reverse_cons, List.reverse_nil,
      List.nil_append, List.cons_append, hcleared]
    omega
  rw [decimalValue, h, List.drop_left' hfront, hvalue]
  rfl

theorem exists_last_four (mac : Key) :
    ∃ front a b c d, mac.bytes = front ++ [a, b, c, d] := by
  have hlength : (mac.bytes.drop 28).length = 4 := by rw [List.length_drop, mac.length_eq]
  match htail : mac.bytes.drop 28, hlength with
  | [a, b, c, d], _ =>
      refine ⟨mac.bytes.take 28, a, b, c, d, ?_⟩
      rw [← htail, List.take_append_drop]

end Decimal

def Spelled : Counter → Key → String → Prop
  | .numeric _, mac, code =>
      code.length = 8 ∧ (∀ ch ∈ code.toList, ch.isDigit = true) ∧
        ∃ front a b c d, mac.bytes = front ++ [a, b, c, d] ∧
          Nat.ofDigitChars 10 code.toList 0 = Bytes.ofBigEndian [a &&& 0x7f, b, c, d] % 10 ^ 8
  | .chain _ _, mac, code => code = Base64.encode mac.bytes

theorem spelled_code (c : Counter) (mac : Key) : Spelled c mac (code c.version mac) := by
  cases c with
  | numeric =>
      obtain ⟨front, a, b, c, d, htail⟩ := exists_last_four mac
      refine ⟨length_decimal mac, fun _ => isDigit_of_mem_decimal, front, a, b, c, d, htail, ?_⟩
      rw [← decimalValue_eq htail]
      exact ofDigitChars_decimal mac
  | chain => exact rfl

theorem Spelled.dash_not_mem {code : String} (h : Spelled c mac code) : '-' ∉ code.toList := by
  cases c with
  | numeric =>
      obtain ⟨-, hdigits, -⟩ := h
      intro hdash
      exact absurd (hdigits _ hdash) (by decide)
  | chain =>
      rw [show code = Base64.encode mac.bytes from h, Base64.encode, String.toList_ofList]
      exact Base64.not_mem_chars (by decide) (by decide) _

def pieces (text : String) : List String :=
  (text.split '-').toList.map (·.copy)

theorem pieces_intercalate (hne : codes ≠ []) (h : ∀ code ∈ codes, '-' ∉ code.toList) :
    pieces ("-".intercalate codes) = codes :=
  (String.toList_split_intercalate h).trans (if_neg hne)

theorem intercalate_pieces (text : String) : "-".intercalate (pieces text) = text := by
  have hpieces : (pieces text).map String.toList = text.toList.splitOn '-' := by
    rw [pieces, String.toList_split_char, List.map_map]
    simp
  apply String.toList_inj.mp
  rw [String.toList_intercalate, hpieces]
  exact List.intercalate_splitOn '-'

theorem pieces_injective {s t : String} (h : pieces s = pieces t) : s = t := by
  rw [← intercalate_pieces s, h, intercalate_pieces]

theorem dash_not_mem_codes (h : factors.toList.mapM (factorCode keys c data) = .ok codes) :
    ∀ code ∈ codes, '-' ∉ code.toList := by
  intro code hmem
  obtain ⟨f, -, hcode⟩ := exists_source_of_mapM h code hmem
  obtain ⟨key, -, rfl⟩ := factorCode_eq_ok.mp hcode
  exact (spelled_code c _).dash_not_mem

theorem codes_ne_nil (hallowed : factors.allowed = true)
    (h : factors.toList.mapM (factorCode keys c data) = .ok codes) : codes ≠ [] := by
  rintro rfl
  obtain ⟨f, rest, hlist⟩ := List.exists_cons_of_ne_nil (FactorSet.toList_ne_nil hallowed)
  rw [hlist] at h
  obtain ⟨_, _, -, -, hnil⟩ := mapM_cons_eq_ok.mp h
  cases hnil

theorem compute_of_allowed (hallowed : factors.allowed = true) :
    compute factors keys c data =
      (factors.toList.mapM (factorCode keys c data)).map ("-".intercalate ·) := by
  have hcheck : factors.check = .ok () := if_pos hallowed
  rw [compute, hcheck]
  rfl

theorem compute_single (f : Factor) :
    compute (.ofList [f]) keys c data = factorCode keys c data f := by
  have hlist : (FactorSet.ofList [f]).toList = [f] := by cases f <;> rfl
  have hallowed : (FactorSet.ofList [f]).allowed = true := by cases f <;> rfl
  rw [compute_of_allowed hallowed, hlist, List.mapM_cons]
  cases hcode : factorCode keys c data f with
  | error why => rfl
  | ok code => exact congrArg Except.ok String.intercalate_singleton

theorem map_pieces_compute (hallowed : factors.allowed = true) (keys : FactorKeys) (c : Counter)
    (data : Bytes) : (compute factors keys c data).map pieces =
      factors.toList.mapM fun f => compute (.ofList [f]) keys c data := by
  rw [compute_of_allowed hallowed, funext fun f => compute_single f]
  cases hcodes : factors.toList.mapM (factorCode keys c data) with
  | error why => rfl
  | ok codes =>
      exact congrArg Except.ok
        (pieces_intercalate (codes_ne_nil hallowed hcodes) (dash_not_mem_codes hcodes))

inductive Assembly where
  | empty
  | single (f : Factor)
  | insert (a : Assembly) (f : Factor)
  | union (a b : Assembly)

namespace Assembly

def set : Assembly → FactorSet
  | empty => {}
  | single f => .ofList [f]
  | insert a f => a.set.insert f
  | union a b => a.set.union b.set

def named : Assembly → List Factor
  | empty => []
  | single f => [f]
  | insert a f => f :: a.named
  | union a b => a.named ++ b.named

theorem contains_set (a : Assembly) (f : Factor) : a.set.contains f = true ↔ f ∈ a.named := by
  induction a with
  | empty => simp [set, named, FactorSet.contains_empty]
  | single g => simp [set, named, FactorSet.contains_ofList]
  | insert a g ih =>
      rw [set, FactorSet.contains_insert, Bool.or_eq_true, ih, beq_iff_eq, named, List.mem_cons,
        or_comm, @eq_comm _ g]
  | union a b iha ihb => simp [set, named, FactorSet.contains_union, iha, ihb]

end Assembly

structure SideBySide (factors : FactorSet) (keys : FactorKeys) (c : Counter) (data : Bytes) :
    Prop where
  parted : (compute factors keys c data).map pieces =
    ([.possession, .knowledge, .biometry].filter factors.contains).mapM
      fun f => compute (.ofList [f]) keys c data
  checked : ∀ text, compute factors keys c data = .ok text ↔
    ([.possession, .knowledge, .biometry].filter factors.contains).mapM
      (fun f => compute (.ofList [f]) keys c data) = .ok (pieces text)
  given : (∃ text, compute factors keys c data = .ok text) ↔ keys.Hold factors
  spelled : ∀ f, factors.contains f = true → ∀ key, keys.get f = some key →
    ∃ code, compute (.ofList [f]) keys c data = .ok code ∧
      Spelled c (hmac key.bytes (input c data)) code
  others : ∀ ks : FactorKeys, (∀ f, factors.contains f = true → ks.get f = keys.get f) →
    compute factors ks c data = compute factors keys c data
  assembled : ∀ a : Assembly, (∀ f, f ∈ a.named ↔ factors.contains f = true) → a.set = factors

theorem codes_side_by_side (hallowed : factors.allowed = true) (keys : FactorKeys) (c : Counter)
    (data : Bytes) : SideBySide factors keys c data where
  parted := map_pieces_compute hallowed keys c data
  checked text := by
    have hparted := map_pieces_compute hallowed keys c data
    constructor
    · intro h
      rw [h] at hparted
      exact hparted.symm
    · intro h
      obtain ⟨t, ht, hpieces⟩ := map_eq_ok.mp (hparted.trans h)
      rw [ht, pieces_injective hpieces]
  given := exists_compute_iff.trans (and_iff_right hallowed)
  spelled f _ key hkey :=
    ⟨_, (compute_single f).trans (factorCode_eq_ok.mpr ⟨key, hkey, rfl⟩), spelled_code c _⟩
  others ks h := compute_congr (fun f hf => h f (FactorSet.mem_toList.mp hf)) c data
  assembled a h := FactorSet.ext_contains fun f => by
    rw [Bool.eq_iff_iff, a.contains_set, h f]

section Example

def sampleFactors : FactorSet :=
  .ofList [.knowledge, .possession]

def sampleKeys : FactorKeys where
  possession := some (sha256 [1])
  knowledge := some (sha256 [2])

theorem padded_code_side_by_side :
    sampleFactors.allowed = true ∧
      compute sampleFactors sampleKeys (.numeric 6) [100, 97, 116, 97] =
        .ok "21916889-04822650" ∧
      pieces "21916889-04822650" = ["21916889", "04822650"] ∧
      SideBySide sampleFactors sampleKeys (.numeric 6) [100, 97, 116, 97] := by
  have hside : SideBySide sampleFactors sampleKeys (.numeric 6) [100, 97, 116, 97] :=
    codes_side_by_side rfl _ _ _
  have htext : compute sampleFactors sampleKeys (.numeric 6) [100, 97, 116, 97] =
      .ok "21916889-04822650" := by
    decide +kernel
  have hcodes : ([Factor.possession, .knowledge, .biometry].filter sampleFactors.contains).mapM
      (fun f => compute (.ofList [f]) sampleKeys (.numeric 6) [100, 97, 116, 97]) =
        .ok ["21916889", "04822650"] := by
    decide +kernel
  have hpieces := ((hside.checked _).mp htext).symm.trans hcodes
  exact ⟨rfl, htext, Except.ok.inj hpieces, hside⟩

end Example

end DeviceAuth.FactorSignature
