import DeviceAuth.Proofs.Framing
import DeviceAuth.Proofs.P256.Curve

namespace DeviceAuth.P256

theorem field?_fieldBytes (x : Field) : field? (fieldBytes x) = some x := by
  have hvalue : Bytes.ofBigEndian (fieldBytes x) = x.val :=
    Bytes.ofBigEndian_bigEndian_of_lt (Nat.lt_trans x.isLt (by decide))
  simp only [field?, hvalue, dif_pos x.isLt]

theorem length_fieldBytes (x : Field) : (fieldBytes x).length = 32 :=
  Bytes.length_bigEndian 32 _

namespace PublicKey

variable (k : PublicKey)

theorem y_ne_zero : residue k.y ≠ 0 :=
  rootless.y_ne_zero k.equation

theorem val_y_pos : 0 < k.y.val := by
  apply Nat.pos_of_ne_zero
  intro hzero
  apply k.y_ne_zero
  rw [residue, hzero, Nat.cast_zero]

theorem odd_neg : odd (0 - k.y) = !odd k.y := by
  have hpos := k.val_y_pos
  have hlt := k.y.isLt
  have hodd : prime % 2 = 1 := by decide
  have hval : (0 - k.y).val = prime - k.y.val := by
    have hzero : (0 : Field).val = 0 := rfl
    rw [Fin.sub_def]
    dsimp only
    rw [hzero, Nat.add_zero, Nat.mod_eq_of_lt (by omega)]
  simp only [odd, hval]
  rcases Nat.mod_two_eq_zero_or_one k.y.val with h | h
  · have hother : (prime - k.y.val) % 2 = 1 := by omega
    simp [h, hother]
  · have hother : (prime - k.y.val) % 2 = 0 := by omega
    simp [h, hother]

theorem ofAffine?_coordinates : ofAffine? (k.x, k.y) = some k := by
  rw [ofAffine?, dif_pos k.onCurve]

theorem eq_or_eq_neg {r : Field} (h : r * r = k.y * k.y) : r = k.y ∨ r = 0 - k.y := by
  have hres := congrArg residue h
  rw [residue_mul, residue_mul, mul_self_eq_mul_self_iff] at hres
  rcases hres with heq | hneg
  · exact .inl (residue_injective heq)
  · right
    apply residue_injective
    rw [residue_sub, residue_ofNat, Nat.cast_zero, zero_sub, hneg]

theorem neg_neg_y : 0 - (0 - k.y) = k.y := by
  apply residue_injective
  rw [residue_sub, residue_sub, residue_ofNat, Nat.cast_zero, zero_sub, zero_sub, neg_neg]

theorem decompress?_odd : decompress? (odd k.y) k.x = some k := by
  have hsome := isSome_squareRoot? k.y
  rw [k.onCurve] at hsome
  obtain ⟨r, hr⟩ := Option.isSome_iff_exists.mp hsome
  have hsquare := squareRoot?_eq_some hr
  rw [← k.onCurve] at hsquare
  have hroot : (if odd r = odd k.y then r else 0 - r) = k.y := by
    rcases k.eq_or_eq_neg hsquare with rfl | rfl
    · rw [if_pos rfl]
    · rw [k.odd_neg, if_neg (by simp), k.neg_neg_y]
  simp only [decompress?, hr, Option.bind_eq_bind, Option.bind_some, hroot,
    k.ofAffine?_coordinates]

theorem ofBytes_compressed : ofBytes k.compressed = .ok k := by
  have hread : (field? (fieldBytes k.x)).bind (decompress? (odd k.y)) = some k := by
    rw [field?_fieldBytes, Option.bind_some, k.decompress?_odd]
  rw [compressed]
  cases hodd : odd k.y with
  | false =>
      rw [hodd] at hread
      simp [ofBytes, length_fieldBytes, hread]
  | true =>
      rw [hodd] at hread
      simp [ofBytes, length_fieldBytes, hread]

theorem ofBytes_uncompressed : ofBytes k.uncompressed = .ok k := by
  have htake : (fieldBytes k.x ++ fieldBytes k.y).take 32 = fieldBytes k.x :=
    List.take_left' (length_fieldBytes k.x)
  have hdrop : (fieldBytes k.x ++ fieldBytes k.y).drop 32 = fieldBytes k.y :=
    List.drop_left' (length_fieldBytes k.x)
  simp [ofBytes, uncompressed, length_fieldBytes, htake, hdrop, field?_fieldBytes,
    k.ofAffine?_coordinates]

theorem exists_of_ofBytes_error {b : Bytes} {fault : PrimitiveFault} (h : ofBytes b = .error fault) :
    ∃ cause, fault = .key cause := by
  unfold ofBytes at h
  dsimp only at h
  repeat' split at h
  all_goals cases h
  all_goals exact ⟨_, rfl⟩

theorem exists_of_represents {p : Point} {P : Element} (hp : p.Represents P) (hP : P ≠ 0) :
    ∃ k, ofAffine? p.affine = some k ∧ k.element = P := by
  have haffine := Point.residue_affine hp
  cases P with
  | zero => exact absurd rfl hP
  | some x y h =>
      simp only [Weierstrass.affine, Prod.mk.injEq] at haffine
      obtain ⟨rfl, rfl⟩ := haffine
      have hcurve : p.affine.2 * p.affine.2 = curve p.affine.1 := by
        apply residue_injective
        rw [residue_mul, ← sq, residue_curve]
        exact Weierstrass.equation_iff.mp h.1
      refine ⟨⟨p.affine.1, p.affine.2, hcurve⟩, ?_, rfl⟩
      rw [ofAffine?, dif_pos hcurve]

end PublicKey

namespace PrivateKey

theorem scalar_lt (k : PrivateKey) : k.scalar < 2 ^ 256 :=
  Nat.lt_trans k.belowOrder order_lt

theorem ofBytes_bytes (k : PrivateKey) : ofBytes k.bytes = .ok k := by
  have hlength : k.bytes.length = 32 := Bytes.length_bigEndian 32 _
  have hvalue : Bytes.ofBigEndian k.bytes = k.scalar :=
    Bytes.ofBigEndian_bigEndian_of_lt (Nat.lt_of_lt_of_le k.scalar_lt (by decide))
  rw [ofBytes, if_pos hlength, hvalue, ofNat?, dif_pos ⟨k.positive, k.belowOrder⟩]

theorem element_publicKey (k : PrivateKey) : k.publicKey.element = k.scalar • generator := by
  obtain ⟨key, hkey, helement⟩ := PublicKey.exists_of_represents
    (represents_base.multiple k.scalar_lt) (smul_generator_ne_zero k)
  rw [publicKey, hkey, Option.getD_some, helement]

theorem agree_publicKey (a b : PrivateKey) : a.agree b.publicKey = b.agree a.publicKey := by
  have ha := b.publicKey.represents_point.multiple a.scalar_lt
  have hb := a.publicKey.represents_point.multiple b.scalar_lt
  rw [element_publicKey, smul_comm] at ha
  rw [element_publicKey] at hb
  apply Fixed.ext_bytes
  simp only [agree, Point.affine_eq_of_represents ha hb]

end PrivateKey

end DeviceAuth.P256
