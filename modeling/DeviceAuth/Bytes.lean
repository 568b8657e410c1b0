namespace DeviceAuth

abbrev Bytes := List UInt8

namespace Bytes

def littleEndian : Nat → Nat → Bytes
  | 0, _ => []
  | width + 1, n => UInt8.ofNat n :: littleEndian width (n / 256)

def ofLittleEndian : Bytes → Nat
  | [] => 0
  | b :: rest => b.toNat + 256 * ofLittleEndian rest

def bigEndian (width n : Nat) : Bytes :=
  (littleEndian width n).reverse

def ofBigEndian (b : Bytes) : Nat :=
  ofLittleEndian b.reverse

def capacity : Nat → Nat
  | 0 => 1
  | width + 1 => 256 * capacity width

def xor (a b : Bytes) : Bytes :=
  List.zipWith (· ^^^ ·) a b

@[simp] theorem length_littleEndian (width n : Nat) : (littleEndian width n).length = width := by
  induction width generalizing n with
  | zero => rfl
  | succ width ih => simp [littleEndian, ih]

@[simp] theorem length_bigEndian (width n : Nat) : (bigEndian width n).length = width := by
  simp [bigEndian]

theorem ofLittleEndian_littleEndian (width n : Nat) :
    ofLittleEndian (littleEndian width n) = n % capacity width := by
  induction width generalizing n with
  | zero => simp [littleEndian, ofLittleEndian, capacity, Nat.mod_one]
  | succ width ih =>
      simp only [littleEndian, ofLittleEndian, capacity, ih, UInt8.toNat_ofNat']
      rw [Nat.mod_mul]

theorem ofBigEndian_bigEndian (width n : Nat) :
    ofBigEndian (bigEndian width n) = n % capacity width := by
  simp [ofBigEndian, bigEndian, ofLittleEndian_littleEndian]

theorem littleEndian_ofLittleEndian (b : Bytes) :
    littleEndian b.length (ofLittleEndian b) = b := by
  induction b with
  | nil => rfl
  | cons x rest ih =>
      have hx : x.toNat < 256 := UInt8.toNat_lt x
      have hq : (x.toNat + 256 * ofLittleEndian rest) / 256 = ofLittleEndian rest := by omega
      have hr : UInt8.ofNat (x.toNat + 256 * ofLittleEndian rest) = x := by
        apply UInt8.toNat_inj.mp
        rw [UInt8.toNat_ofNat']
        omega
      simp only [List.length_cons, ofLittleEndian, littleEndian, hq, hr, ih]

theorem bigEndian_ofBigEndian (b : Bytes) : bigEndian b.length (ofBigEndian b) = b := by
  have h := littleEndian_ofLittleEndian b.reverse
  rw [List.length_reverse] at h
  simp only [bigEndian, ofBigEndian, h, List.reverse_reverse]

theorem byte_induction {P : UInt8 → Prop} (h : ∀ n < 256, P (UInt8.ofNat n)) (b : UInt8) : P b := by
  have hb := h b.toNat b.toNat_lt
  rwa [UInt8.ofNat_toNat] at hb

theorem length_xor (a b : Bytes) : (xor a b).length = min a.length b.length := by
  simp [xor]

theorem xor_xor_cancel {a b : Bytes} (h : a.length ≤ b.length) : xor (xor a b) b = a := by
  induction a generalizing b with
  | nil => rfl
  | cons x a ih =>
      cases b with
      | nil => simp at h
      | cons y b =>
          have ht := ih (Nat.le_of_succ_le_succ h)
          have hx : x ^^^ y ^^^ y = x := by rw [UInt8.xor_assoc, UInt8.xor_self, UInt8.xor_zero]
          simp only [xor, List.zipWith_cons_cons, hx] at ht ⊢
          rw [ht]

theorem eq_of_xor {a b : Bytes} {n : Nat} (hlength : a.length = b.length)
    (h : xor a b = List.replicate n 0) : a = b := by
  have hzero : ∀ x ∈ xor a b, x = 0 := by
    rw [h]
    exact fun x hx => List.eq_of_mem_replicate hx
  clear h
  induction a generalizing b with
  | nil => exact (List.eq_nil_of_length_eq_zero hlength.symm).symm
  | cons x a ih =>
      cases b with
      | nil => cases hlength
      | cons y b =>
          obtain ⟨hxy, hrest⟩ := List.forall_mem_cons.mp hzero
          rw [UInt8.xor_eq_zero_iff.mp hxy, ih (Nat.succ.inj hlength) hrest]

end Bytes

structure Fixed (n : Nat) where
  bytes : Bytes
  length_eq : bytes.length = n
  deriving DecidableEq

namespace Fixed

variable {n : Nat}

theorem ext_bytes {a b : Fixed n} (h : a.bytes = b.bytes) : a = b := by
  cases a
  cases b
  cases h
  rfl

def ofBytes? (n : Nat) (b : Bytes) : Option (Fixed n) :=
  if h : b.length = n then some ⟨b, h⟩ else none

def zero (n : Nat) : Fixed n :=
  ⟨List.replicate n 0, List.length_replicate⟩

def xor (a b : Fixed n) : Fixed n :=
  ⟨Bytes.xor a.bytes b.bytes, by simp [Bytes.length_xor, a.length_eq, b.length_eq]⟩

def bigEndian (n value : Nat) : Fixed n :=
  ⟨Bytes.bigEndian n value, Bytes.length_bigEndian n value⟩

def isZero (a : Fixed n) : Bool :=
  a.bytes.all (· == 0)

@[simp] theorem ofBytes?_bytes (a : Fixed n) : ofBytes? n a.bytes = some a := by
  simp [ofBytes?, a.length_eq]

theorem ofBytes?_eq_some {b : Bytes} {a : Fixed n} : ofBytes? n b = some a ↔ b = a.bytes := by
  constructor
  · intro h
    unfold ofBytes? at h
    split at h
    · cases h
      rfl
    · simp at h
  · rintro rfl
    exact ofBytes?_bytes a

end Fixed

abbrev Key := Fixed 32

end DeviceAuth
