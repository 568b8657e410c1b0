import DeviceAuth.P256.Signature
import DeviceAuth.Proofs.P256.Key

namespace DeviceAuth

namespace Bytes

theorem ofLittleEndian_append_zero (b : Bytes) : ofLittleEndian (b ++ [0]) = ofLittleEndian b := by
  induction b with
  | nil => rfl
  | cons x b ih => rw [List.cons_append, ofLittleEndian, ofLittleEndian, ih]

theorem ofBigEndian_zero_cons (b : Bytes) : ofBigEndian (0 :: b) = ofBigEndian b := by
  rw [ofBigEndian, ofBigEndian, List.reverse_cons, ofLittleEndian_append_zero]

theorem ofBigEndian_dropWhile_zero (b : Bytes) :
    ofBigEndian (b.dropWhile (· == 0)) = ofBigEndian b := by
  induction b with
  | nil => rfl
  | cons x b ih =>
      by_cases hx : x = 0
      · subst hx
        rw [List.dropWhile_cons_of_pos (by simp), ih, ofBigEndian_zero_cons]
      · rw [List.dropWhile_cons_of_neg (by simpa using hx)]

end Bytes

namespace P256

namespace Signature

theorem derInteger_eq {n : Nat} (h : n < order) :
    ∃ body, derInteger n = 2 :: UInt8.ofNat body.length :: body ∧ body.length ≤ 34 ∧
      Bytes.ofBigEndian body = n := by
  have hvalue : Bytes.ofBigEndian ((Bytes.bigEndian 33 n).dropWhile (· == 0)) = n := by
    rw [Bytes.ofBigEndian_dropWhile_zero]
    exact Bytes.ofBigEndian_bigEndian_of_lt (Nat.lt_trans h (by decide))
  have hlength : ((Bytes.bigEndian 33 n).dropWhile (· == 0)).length ≤ 33 := by
    have hsub := (List.dropWhile_sublist (l := Bytes.bigEndian 33 n) (· == 0)).length_le
    rwa [Bytes.length_bigEndian] at hsub
  unfold derInteger
  generalize (Bytes.bigEndian 33 n).dropWhile (· == 0) = digits at hvalue hlength
  dsimp only
  split
  · exact ⟨digits, rfl, Nat.le_succ_of_le hlength, hvalue⟩
  · exact ⟨0 :: digits, rfl, Nat.succ_le_succ hlength, by rw [Bytes.ofBigEndian_zero_cons, hvalue]⟩

theorem inRange_iff {g : Signature} :
    g.inRange = true ↔ (0 < g.r ∧ g.r < order) ∧ 0 < g.s ∧ g.s < order := by
  simp [inRange, and_assoc]

variable {g : Signature}

theorem der_eq (h : g.inRange) : ∃ r s : Bytes, Bytes.ofBigEndian r = g.r ∧
    Bytes.ofBigEndian s = g.s ∧ r.length ≤ 34 ∧ s.length ≤ 34 ∧
    g.der = 0x30 :: UInt8.ofNat (r.length + s.length + 4) :: 2 :: UInt8.ofNat r.length ::
      (r ++ 2 :: UInt8.ofNat s.length :: s) := by
  obtain ⟨⟨-, hr⟩, -, hs⟩ := inRange_iff.mp h
  obtain ⟨r, hder, hrlength, hrvalue⟩ := derInteger_eq hr
  obtain ⟨s, hders, hslength, hsvalue⟩ := derInteger_eq hs
  refine ⟨r, s, hrvalue, hsvalue, hrlength, hslength, ?_⟩
  have hbody : (r ++ 2 :: UInt8.ofNat s.length :: s).length + 2 = r.length + s.length + 4 := by
    simp only [List.length_append, List.length_cons]
    omega
  simp only [der, hder, hders, List.cons_append, List.length_cons, hbody]

theorem readDer?_der (h : g.inRange) : readDer? g.der = some g := by
  obtain ⟨r, s, hr, hs, hrlength, -, hder⟩ := der_eq h
  have hnat : (UInt8.ofNat r.length).toNat = r.length := by
    rw [UInt8.toNat_ofNat']
    omega
  rw [hder, readDer?]
  simp only [hnat, List.drop_left, List.take_left, hr, hs]

theorem ofDer?_der (h : g.inRange) : ofDer? g.der = some g := by
  rw [ofDer?, readDer?_der h]
  simp [h]

theorem length_der_le (h : g.inRange) : g.der.length ≤ 74 := by
  obtain ⟨r, s, -, -, hr, hs, hder⟩ := der_eq h
  simp only [hder, List.length_cons, List.length_append]
  omega

end Signature

theorem Scalar.ofNat_val (a : Scalar) : Scalar.ofNat a.val = a :=
  Fin.ext (Nat.mod_eq_of_lt a.isLt)

theorem Scalar.ne_zero_of_pos {a : Scalar} (h : 0 < a.val) : residue a ≠ 0 := by
  intro hzero
  have hval := congrArg ZMod.val hzero
  rw [val_residue, ZMod.val_zero] at hval
  omega

theorem nonce_of_shares {e r d n : ZMod order} (hs : n⁻¹ * (e + r * d) ≠ 0) :
    e * (n⁻¹ * (e + r * d))⁻¹ + r * (n⁻¹ * (e + r * d))⁻¹ * d = n := by
  have hm : e + r * d ≠ 0 := right_ne_zero_of_mul hs
  calc e * (n⁻¹ * (e + r * d))⁻¹ + r * (n⁻¹ * (e + r * d))⁻¹ * d
      = (e + r * d) * (n⁻¹ * (e + r * d))⁻¹ := by ring
    _ = n := by rw [mul_inv_rev, inv_inv, mul_inv_cancel_left₀ hm]

theorem represents_shares (k : PrivateKey) (u v : Scalar) {nonce : Nat}
    (h : residue u + residue v * k.scalar = nonce) :
    ((Point.base.multiple u.val).add (k.publicKey.point.multiple v.val)).Represents
      (nonce • generator) := by
  have hu := represents_base.multiple (Nat.lt_trans u.isLt order_lt)
  have hv := k.publicKey.represents_point.multiple (Nat.lt_trans v.isLt order_lt)
  have hsum := hu.add hv
  rw [k.element_publicKey, ← mul_nsmul', ← add_nsmul] at hsum
  have hmod : u.val + v.val * k.scalar ≡ nonce [MOD order] := by
    rw [← ZMod.natCast_eq_natCast_iff]
    push_cast
    exact h
  rwa [smul_generator_inj.mpr hmod] at hsum

theorem represents_signed (k nonce : PrivateKey) {e r s : Scalar} (hpos : 0 < s.val)
    (hs : s = inverse (Scalar.ofNat nonce.scalar) * (e + r * Scalar.ofNat k.scalar)) :
    ((Point.base.multiple (e * inverse s).val).add
      (k.publicKey.point.multiple (r * inverse s).val)).Represents (nonce.scalar • generator) := by
  have hres := congrArg residue hs
  have hne := Scalar.ne_zero_of_pos hpos
  simp only [residue_mul, residue_add, residue_inverse_scalar, residue_scalar] at hres
  rw [hres] at hne
  apply represents_shares
  rw [residue_mul, residue_mul, residue_inverse_scalar, hres]
  exact nonce_of_shares hne

theorem ofPoint_eq_of_represents {p q : Point} {P : Element} (hp : p.Represents P)
    (hq : q.Represents P) : Scalar.ofPoint p = Scalar.ofPoint q := by
  rw [Scalar.ofPoint, Scalar.ofPoint, Point.affine_eq_of_represents hp hq]

namespace PrivateKey

variable {k : PrivateKey} {message signature : Bytes} {g : Signature}

theorem signature?_eq_some (h : k.signature? message = some g) :
    g.inRange = true ∧ ∃ (nonce : PrivateKey) (r s : Scalar), g.r = r.val ∧ g.s = s.val ∧
      r = Scalar.ofPoint (Point.base.multiple nonce.scalar) ∧
      s = inverse (Scalar.ofNat nonce.scalar) *
        (Scalar.ofDigest (sha256 message) + r * Scalar.ofNat k.scalar) := by
  simp only [signature?, Option.bind_eq_bind, Option.bind_eq_some_iff] at h
  obtain ⟨nonce, -, h⟩ := h
  -- the numbers are named first, so that no step evaluates the point
  generalize hr : Scalar.ofPoint (Point.base.multiple nonce.scalar) = r at h
  generalize Scalar.ofDigest (sha256 message) = e at h ⊢
  generalize hs : inverse (Scalar.ofNat nonce.scalar) * (e + r * Scalar.ofNat k.scalar) = s at h
  rw [Option.ite_none_right_eq_some] at h
  obtain ⟨hrange, hg⟩ := h
  obtain rfl := Option.some.inj hg
  refine ⟨hrange, nonce, r, s, rfl, rfl, hr.symm, hs.symm⟩

theorem accepts_signature (h : k.signature? message = some g) :
    k.publicKey.accepts message g = true := by
  obtain ⟨hrange, nonce, r, s, hgr, hgs, hr, hs⟩ := signature?_eq_some h
  have hpos : 0 < s.val := by
    rw [← hgs]
    exact (Signature.inRange_iff.mp hrange).2.1
  have hsigned := represents_signed k nonce hpos hs
  have hpoint := ofPoint_eq_of_represents hsigned (represents_base.multiple nonce.scalar_lt)
  simp only [PublicKey.accepts, hgr, hgs, Scalar.ofNat_val]
  rw [hpoint, ← hr, beq_self_eq_true]

def written : Option Signature → Except PrimitiveFault Bytes
  | some g => .ok g.der
  | none => .error (.signing "signature error")

-- As an equation between functions: applied to a key, the cases would be decided by computing a
-- nonce.
theorem sign_eq : sign = fun k message => written (k.signature? message) := by
  delta sign
  funext k message
  generalize k.signature? message = answer
  cases answer <;> rfl

theorem sign_eq_ok (h : k.sign message = .ok signature) :
    ∃ g, k.signature? message = some g ∧ g.der = signature := by
  have heq : k.sign message = written (k.signature? message) :=
    congrFun (congrFun sign_eq k) message
  rw [heq] at h
  generalize k.signature? message = answer at h
  cases answer with
  | none => cases h
  | some g => exact ⟨g, rfl, Except.ok.inj h⟩

theorem verify_sign (h : k.sign message = .ok signature) :
    k.publicKey.verify message signature = .ok () := by
  obtain ⟨g, hg, rfl⟩ := sign_eq_ok h
  rw [PublicKey.verify, Signature.ofDer?_der (signature?_eq_some hg).1]
  dsimp only
  rw [accepts_signature hg, if_pos rfl]

theorem length_sign_le (h : k.sign message = .ok signature) : signature.length ≤ 74 := by
  obtain ⟨g, hg, rfl⟩ := sign_eq_ok h
  exact Signature.length_der_le (signature?_eq_some hg).1

end PrivateKey

end P256

end DeviceAuth
