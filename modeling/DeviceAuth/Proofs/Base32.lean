import DeviceAuth.Base32
import DeviceAuth.Proofs.Text

namespace DeviceAuth.Base32

theorem isDigit_digit {n : Nat} (h : n < 32) : isDigit (digit n) = true := by
  have hall : ∀ n < 32, isDigit (digit n) = true := by decide
  exact hall n h

theorem value?_digit {n : Nat} (h : n < 32) : value? (digit n) = some n := by
  have hall : ∀ n < 32, value? (digit n) = some n := by decide
  exact hall n h

theorem number_lt (a b c d e : Bool) : number [a, b, c, d, e] < 32 := by
  revert a b c d e
  decide

theorem isDigit_number (a b c d e : Bool) : isDigit (digit (number [a, b, c, d, e])) = true :=
  isDigit_digit (number_lt a b c d e)

theorem toNat_of_isDigit {c : Char} (h : isDigit c = true) : 50 ≤ c.toNat ∧ c.toNat ≤ 90 := by
  simp only [isDigit, Bool.or_eq_true, Bool.and_eq_true, decide_eq_true_eq] at h
  rcases h with h | h
  · have hrange : 65 ≤ c.toNat ∧ c.toNat ≤ 90 := Text.toNat_of_between h
    omega
  · have hrange : 50 ≤ c.toNat ∧ c.toNat ≤ 55 := Text.toNat_of_between h
    omega

theorem value?_eq_some {c : Char} {n : Nat} : value? c = some n ↔ n < 32 ∧ c = digit n := by
  constructor
  · intro h
    unfold value? at h
    split at h
    next hletter =>
      cases h
      have hrange : 65 ≤ c.toNat ∧ c.toNat ≤ 90 := Text.toNat_of_between hletter
      refine ⟨by omega, ?_⟩
      rw [digit, if_pos (by omega), Nat.add_sub_cancel' hrange.1, Char.ofNat_toNat]
    next =>
      split at h
      next hnumber =>
        cases h
        have hrange : 50 ≤ c.toNat ∧ c.toNat ≤ 55 := Text.toNat_of_between hnumber
        refine ⟨by omega, ?_⟩
        rw [digit, if_neg (by omega), Nat.add_sub_cancel' (by omega), Char.ofNat_toNat]
      next => cases h
  · rintro ⟨hn, rfl⟩
    exact value?_digit hn

theorem mapM_value? {cs : List Char} {vs : List Nat} :
    cs.mapM value? = some vs ↔ (∀ v ∈ vs, v < 32) ∧ cs = vs.map digit := by
  induction cs generalizing vs with
  | nil => cases vs <;> simp
  | cons c cs ih =>
      rw [List.mapM_cons]
      constructor
      · intro h
        obtain ⟨v, hv, h⟩ := Option.bind_eq_some_iff.mp h
        obtain ⟨rest, hrest, h⟩ := Option.bind_eq_some_iff.mp h
        cases h
        obtain ⟨hlt, rfl⟩ := value?_eq_some.mp hv
        obtain ⟨hall, rfl⟩ := ih.mp hrest
        exact ⟨List.forall_mem_cons.mpr ⟨hlt, hall⟩, rfl⟩
      · rintro ⟨hall, hcs⟩
        cases vs with
        | nil => cases hcs
        | cons v vs =>
            obtain ⟨hlt, hrest⟩ := List.forall_mem_cons.mp hall
            obtain ⟨rfl, rfl⟩ := List.cons.inj hcs
            rw [value?_digit hlt, ih.mpr ⟨hrest, rfl⟩]
            rfl

section Bits

variable {n : Nat} {vs ws : List Nat} {bs : List Bool} {data : Bytes}

theorem number_bits (h : n < 32) : number (bits 5 n) = n := by
  have hall : ∀ n < 32, number (bits 5 n) = n := by decide
  exact hall n h

theorem bits_number (a b c d e : Bool) : bits 5 (number [a, b, c, d, e]) = [a, b, c, d, e] := by
  revert a b c d e
  decide

theorem number_octet (x : UInt8) : UInt8.ofNat (number (bits 8 x.toNat)) = x := by
  have hall : ∀ n < 256, number (bits 8 n) = n := by decide +kernel
  rw [hall x.toNat x.toNat_lt, UInt8.ofNat_toNat]

theorem bits_octet (a b c d e f g h : Bool) :
    bits 8 (UInt8.ofNat (number [a, b, c, d, e, f, g, h])).toNat = [a, b, c, d, e, f, g, h] := by
  revert a b c d e f g h
  decide +kernel

@[simp] theorem length_bits (width n : Nat) : (bits width n).length = width := by
  induction width with
  | zero => rfl
  | succ width ih => rw [bits, List.length_cons, ih]

def dataBits (data : Bytes) : List Bool :=
  data.flatMap fun x => bits 8 x.toNat

def valueBits (vs : List Nat) : List Bool :=
  vs.flatMap (bits 5)

def spare (r : Nat) : List Bool :=
  List.replicate r false

@[simp] theorem length_spare (r : Nat) : (spare r).length = r :=
  List.length_replicate

theorem dataBits_cons (x : UInt8) (data : Bytes) :
    dataBits (x :: data) = bits 8 x.toNat ++ dataBits data :=
  List.flatMap_cons

theorem valueBits_cons (v : Nat) (vs : List Nat) : valueBits (v :: vs) = bits 5 v ++ valueBits vs :=
  List.flatMap_cons

theorem dataBits_append (a b : Bytes) : dataBits (a ++ b) = dataBits a ++ dataBits b :=
  List.flatMap_append

theorem valueBits_append (vs ws : List Nat) :
    valueBits (vs ++ ws) = valueBits vs ++ valueBits ws :=
  List.flatMap_append

theorem spare_add (m n : Nat) : spare (m + n) = spare m ++ spare n :=
  List.replicate_append_replicate.symm

theorem spare_split {r m n : Nat} (h : r = m + n) : spare r = spare m ++ spare n := by
  rw [h, spare_add]

theorem dataBits_zeros (n : Nat) : dataBits (List.replicate n 0) = spare (8 * n) := by
  induction n with
  | zero => rfl
  | succ n ih =>
      rw [List.replicate_succ, dataBits_cons, ih, Nat.mul_succ, Nat.add_comm, spare_add]
      rfl

theorem valueBits_zeros (n : Nat) : valueBits (List.replicate n 0) = spare (5 * n) := by
  induction n with
  | zero => rfl
  | succ n ih =>
      rw [List.replicate_succ, valueBits_cons, ih, Nat.mul_succ, Nat.add_comm, spare_add]
      rfl

theorem length_dataBits (data : Bytes) : (dataBits data).length = 8 * data.length := by
  simp [dataBits, List.length_flatMap, List.map_const', Nat.mul_comm]

theorem length_valueBits (vs : List Nat) : (valueBits vs).length = 5 * vs.length := by
  simp [valueBits, List.length_flatMap, List.map_const', Nat.mul_comm]

theorem valueBits_injective (hv : ∀ v ∈ vs, v < 32) (hw : ∀ w ∈ ws, w < 32)
    (h : valueBits vs = valueBits ws) : vs = ws := by
  induction vs generalizing ws with
  | nil =>
      cases ws with
      | nil => rfl
      | cons => simp [valueBits, bits] at h
  | cons v vs ih =>
      cases ws with
      | nil => simp [valueBits, bits] at h
      | cons w ws =>
          obtain ⟨hvlt, hvs⟩ := List.forall_mem_cons.mp hv
          obtain ⟨hwlt, hws⟩ := List.forall_mem_cons.mp hw
          rw [valueBits_cons, valueBits_cons] at h
          obtain ⟨hhead, htail⟩ := List.append_inj h (by simp)
          have hvw := congrArg number hhead
          rw [number_bits hvlt, number_bits hwlt] at hvw
          rw [hvw, ih hvs hws htail]

theorem exists_values (bs : List Bool) :
    ∃ vs, (∀ v ∈ vs, v < 32) ∧ digits bs = vs.map digit ∧
      ∃ r < 5, valueBits vs = bs ++ spare r := by
  induction bs using digits.induct with
  | case1 a b c d e rest ih =>
      obtain ⟨vs, hlt, hdigits, r, hr, hbits⟩ := ih
      refine ⟨number [a, b, c, d, e] :: vs, List.forall_mem_cons.mpr ⟨number_lt a b c d e, hlt⟩,
        by rw [digits, hdigits, List.map_cons], r, hr, ?_⟩
      rw [valueBits_cons, bits_number, hbits]
      rfl
  | case2 => exact ⟨[], by simp, rfl, 0, by decide, rfl⟩
  | case3 bs hlong hne =>
      match bs with
      | [] => exact absurd rfl hne
      | [a] => exact ⟨[number [a, false, false, false, false]], by simp [number_lt], rfl, 4,
          by decide, bits_number a false false false false⟩
      | [a, b] => exact ⟨[number [a, b, false, false, false]], by simp [number_lt], rfl, 3,
          by decide, bits_number a b false false false⟩
      | [a, b, c] => exact ⟨[number [a, b, c, false, false]], by simp [number_lt], rfl, 2,
          by decide, bits_number a b c false false⟩
      | [a, b, c, d] => exact ⟨[number [a, b, c, d, false]], by simp [number_lt], rfl, 1,
          by decide, bits_number a b c d false⟩
      | a :: b :: c :: d :: e :: rest => exact absurd rfl (hlong a b c d e rest)

theorem octets?_spare {r : Nat} (hr : r < 5) : octets? (spare r) = some [] := by
  have hall : ∀ r < 5, octets? (spare r) = some [] := by decide
  exact hall r hr

theorem octets?_dataBits {r : Nat} (hr : r < 5) (data : Bytes) :
    octets? (dataBits data ++ spare r) = some data := by
  induction data with
  | nil => exact octets?_spare hr
  | cons x data ih =>
      have hbyte := number_octet x
      simp only [bits] at hbyte
      simp only [dataBits_cons, bits, List.cons_append, List.nil_append, octets?, ih, hbyte,
        Option.map_some]

theorem octets?_eq_some :
    octets? bs = some data ↔ ∃ r < 5, bs = dataBits data ++ spare r := by
  constructor
  · intro h
    induction bs using octets?.induct generalizing data with
    | case1 a b c d e f g i rest ih =>
        obtain ⟨more, hmore, rfl⟩ := Option.map_eq_some_iff.mp h
        obtain ⟨r, hr, rfl⟩ := ih hmore
        exact ⟨r, hr, by rw [dataBits_cons, bits_octet]; rfl⟩
    | case2 bs hshort hzero =>
        rw [octets?, if_pos hzero] at h
        · cases h
          refine ⟨bs.length, hzero.1, ?_⟩
          rw [spare, dataBits, List.flatMap_nil, List.nil_append, List.eq_replicate_iff]
          exact ⟨rfl, by simpa using hzero.2⟩
        · exact hshort
    | case3 bs hshort hzero =>
        rw [octets?, if_neg hzero] at h
        · cases h
        · exact hshort
  · rintro ⟨r, hr, rfl⟩
    exact octets?_dataBits hr data

theorem dataBits_injective {a b : Bytes} (h : dataBits a = dataBits b) : a = b := by
  have hread := octets?_dataBits (r := 0) (by decide) a
  rw [h, octets?_dataBits (by decide)] at hread
  exact (Option.some.inj hread).symm

theorem exists_octets {n : Nat} (h : bs.length = 8 * n) :
    ∃ data : Bytes, data.length = n ∧ dataBits data = bs := by
  induction n generalizing bs with
  | zero => exact ⟨[], rfl, (List.eq_nil_of_length_eq_zero h).symm⟩
  | succ n ih =>
      match bs, h with
      | a :: b :: c :: d :: e :: f :: g :: i :: rest, h =>
          have hrest : rest.length = 8 * n := by
            simp only [List.length_cons] at h
            omega
          obtain ⟨data, hlength, rfl⟩ := ih hrest
          refine ⟨UInt8.ofNat (number [a, b, c, d, e, f, g, i]) :: data, by simp [hlength], ?_⟩
          rw [dataBits_cons, bits_octet]
          rfl

theorem bits_xor (width m n : Nat) :
    bits width (m ^^^ n) = List.zipWith Bool.xor (bits width m) (bits width n) := by
  induction width with
  | zero => rfl
  | succ width ih => rw [bits, bits, bits, List.zipWith_cons_cons, Nat.testBit_xor, ih]

theorem valueBits_xor (h : vs.length = ws.length) :
    valueBits (List.zipWith (· ^^^ ·) vs ws) =
      List.zipWith Bool.xor (valueBits vs) (valueBits ws) := by
  induction vs generalizing ws with
  | nil => rfl
  | cons v vs ih =>
      cases ws with
      | nil => cases h
      | cons w ws =>
          rw [List.zipWith_cons_cons, valueBits_cons, valueBits_cons, valueBits_cons,
            List.zipWith_append (by simp), bits_xor, ih (Nat.succ.inj h)]

theorem dataBits_xor {a b : Bytes} (h : a.length = b.length) :
    dataBits (Bytes.xor a b) = List.zipWith Bool.xor (dataBits a) (dataBits b) := by
  induction a generalizing b with
  | nil => rfl
  | cons x a ih =>
      cases b with
      | nil => cases h
      | cons y b =>
          rw [Bytes.xor, List.zipWith_cons_cons, dataBits_cons, dataBits_cons, dataBits_cons,
            List.zipWith_append (by simp), UInt8.toNat_xor, bits_xor, ← ih (Nat.succ.inj h)]
          rfl

def values (cs : List Char) : List Nat :=
  cs.map fun c => (value? c).getD 0

theorem values_map_digit (h : ∀ v ∈ vs, v < 32) : values (vs.map digit) = vs := by
  rw [values, List.map_map, List.map_congr_left (g := id), List.map_id]
  intro v hv
  rw [Function.comp_apply, value?_digit (h v hv)]
  rfl

theorem xor_values_self (vs : List Nat) :
    List.zipWith (· ^^^ ·) vs vs = List.replicate vs.length 0 := by
  simp [List.zipWith_self, List.map_const']

end Bits

section Texts

variable {cs : List Char} {data : Bytes}

theorem exists_digits (data : Bytes) :
    ∃ vs, (∀ v ∈ vs, v < 32) ∧ encode data = vs.map digit ∧
      ∃ r < 5, valueBits vs = dataBits data ++ spare r :=
  exists_values (dataBits data)

theorem length_encode (data : Bytes) : (encode data).length = (8 * data.length + 4) / 5 := by
  obtain ⟨vs, -, hdigits, r, hr, hbits⟩ := exists_digits data
  have hlength := congrArg List.length hbits
  rw [List.length_append, length_valueBits, length_dataBits, length_spare] at hlength
  rw [hdigits, List.length_map]
  omega

theorem isDigit_of_mem_encode {c : Char} (h : c ∈ encode data) : isDigit c = true := by
  obtain ⟨vs, hlt, hdigits, -⟩ := exists_digits data
  rw [hdigits] at h
  obtain ⟨v, hv, rfl⟩ := List.mem_map.mp h
  exact isDigit_digit (hlt v hv)

theorem decode?_eq_some : decode? cs = some data ↔ cs = encode data := by
  obtain ⟨vs, hlt, hdigits, r, hr, hbits⟩ := exists_digits data
  constructor
  · intro h
    obtain ⟨ws, hws, hread⟩ := Option.bind_eq_some_iff.mp h
    obtain ⟨hwlt, rfl⟩ := mapM_value?.mp hws
    obtain ⟨r', hr', hbits'⟩ := octets?_eq_some.mp hread
    -- Both fill up to a whole number of digits, and with fewer than five zeros.
    have hlength := congrArg List.length hbits
    have hlength' : (valueBits ws).length = _ := congrArg List.length hbits'
    simp only [List.length_append, length_valueBits, length_dataBits, length_spare]
      at hlength hlength'
    obtain rfl : r' = r := by omega
    have hsame : ws = vs := valueBits_injective hwlt hlt (hbits'.trans hbits.symm)
    rw [hsame, hdigits]
  · rintro rfl
    refine Option.bind_eq_some_iff.mpr ⟨vs, mapM_value?.mpr ⟨hlt, hdigits⟩, ?_⟩
    exact octets?_eq_some.mpr ⟨r, hr, hbits⟩

end Texts

end DeviceAuth.Base32
