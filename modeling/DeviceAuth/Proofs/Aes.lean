import DeviceAuth.Aes.Cipher

namespace DeviceAuth.Aes

theorem restore_substitute (a : UInt8) : restore (substitute a) = a := by
  revert a
  exact Bytes.byte_induction (by decide +kernel)

theorem substitute_restore (a : UInt8) : substitute (restore a) = a := by
  revert a
  exact Bytes.byte_induction (by decide +kernel)

namespace Column

def carry (a : UInt8) : UInt8 :=
  if a.toBitVec.msb then 0x1b else 0

theorem double_eq (a : UInt8) : double a = (a <<< 1) ^^^ carry a := by
  have hmsb : a < 0x80 ↔ a.toBitVec.msb = false := by
    rw [UInt8.lt_iff_toNat_lt, BitVec.msb_eq_false_iff_two_mul_lt]
    change a.toNat < 128 ↔ 2 * a.toNat < 256
    omega
  unfold double carry
  cases h : a.toBitVec.msb with
  | false => simp [hmsb.mpr h]
  | true =>
      have hge : ¬a < 0x80 := by
        rw [hmsb, h]
        simp
      simp [hge]

theorem carry_xor (a b : UInt8) : carry (a ^^^ b) = carry a ^^^ carry b := by
  unfold carry
  rw [UInt8.toBitVec_xor, BitVec.msb_xor]
  cases a.toBitVec.msb <;> cases b.toBitVec.msb <;> decide

theorem double_xor (a b : UInt8) : double (a ^^^ b) = double a ^^^ double b := by
  rw [double_eq, double_eq, double_eq, carry_xor, UInt8.shiftLeft_xor]
  ac_rfl

theorem xor_cancel (c d : Column) : (c.xor d).xor d = c := by
  simp only [xor, UInt8.xor_assoc, UInt8.xor_self, UInt8.xor_zero]

theorem map_map {f g : UInt8 → UInt8} (h : ∀ a, g (f a) = a) (c : Column) :
    (c.map f).map g = c := by
  simp [map, h]

theorem xor_xor_self (a b : UInt8) : a ^^^ (a ^^^ b) = b := by
  rw [← UInt8.xor_assoc, UInt8.xor_self, UInt8.zero_xor]

theorem xor_left_comm (a b c : UInt8) : a ^^^ (b ^^^ c) = b ^^^ (a ^^^ c) := by
  rw [← UInt8.xor_assoc, UInt8.xor_comm a b, UInt8.xor_assoc]

def total (c : Column) : UInt8 :=
  c.b0 ^^^ c.b1 ^^^ c.b2 ^^^ c.b3

theorem double_cycle (a b c d : UInt8) :
    double (a ^^^ b) ^^^ double (b ^^^ c) ^^^ double (c ^^^ d) ^^^ double (d ^^^ a) = 0 := by
  simp only [double_xor]
  generalize double a = a
  generalize double b = b
  generalize double c = c
  generalize double d = d
  simp only [UInt8.xor_comm, xor_left_comm, xor_xor_self, UInt8.xor_self]

theorem total_mix (c : Column) : c.mix.total = c.total := by
  have hcycle := double_cycle c.b0 c.b1 c.b2 c.b3
  obtain ⟨a, b, c, d⟩ := c
  simp only [mix, total] at hcycle ⊢
  generalize double (a ^^^ b) = p at hcycle ⊢
  generalize double (b ^^^ c) = q at hcycle ⊢
  generalize double (c ^^^ d) = r at hcycle ⊢
  generalize double (d ^^^ a) = s at hcycle ⊢
  have hs : s = p ^^^ q ^^^ r := by
    rw [← UInt8.xor_eq_zero_iff, ← hcycle]
    simp [UInt8.xor_comm, xor_left_comm]
  subst hs
  simp only [UInt8.xor_comm, xor_left_comm, xor_xor_self, UInt8.xor_self, UInt8.xor_zero]

theorem neighbours (a b c t : UInt8) :
    (a ^^^ t ^^^ double (a ^^^ b)) ^^^ (b ^^^ t ^^^ double (b ^^^ c)) =
      (a ^^^ b) ^^^ double (a ^^^ c) := by
  simp only [double_xor]
  generalize double a = p
  generalize double b = q
  generalize double c = r
  simp only [UInt8.xor_comm, xor_left_comm, xor_xor_self]

theorem mixed_twice (a b c t : UInt8) :
    (a ^^^ t ^^^ double (a ^^^ b)) ^^^ t ^^^ double ((a ^^^ b) ^^^ double (a ^^^ c)) =
      a ^^^ double (double (a ^^^ c)) := by
  rw [double_xor (a ^^^ b)]
  generalize double (a ^^^ b) = p
  generalize double (double (a ^^^ c)) = q
  simp only [UInt8.xor_comm, xor_left_comm, xor_xor_self]

theorem mix_mix (c : Column) : c.mix.mix =
    ⟨c.b0 ^^^ double (double (c.b0 ^^^ c.b2)), c.b1 ^^^ double (double (c.b1 ^^^ c.b3)),
      c.b2 ^^^ double (double (c.b2 ^^^ c.b0)), c.b3 ^^^ double (double (c.b3 ^^^ c.b1))⟩ := by
  have htotal := total_mix c
  obtain ⟨a, b, c, d⟩ := c
  simp only [total] at htotal
  rw [mix]
  simp only [htotal]
  simp only [mix, neighbours, mixed_twice]

theorem unmix_eq (c : Column) : c.unmix = c.mix.mix.mix := by
  rw [mix_mix c, UInt8.xor_comm c.b2 c.b0, UInt8.xor_comm c.b3 c.b1]
  rfl

theorem pair_restored (a b : UInt8) :
    let q := double (double (a ^^^ b))
    (a ^^^ q) ^^^ double (double ((a ^^^ q) ^^^ (b ^^^ q))) = a := by
  intro q
  have hpair : (a ^^^ q) ^^^ (b ^^^ q) = a ^^^ b := by
    simp [UInt8.xor_comm, xor_left_comm]
  rw [hpair]
  change (a ^^^ q) ^^^ q = a
  rw [UInt8.xor_assoc, UInt8.xor_self, UInt8.xor_zero]

theorem unmix_mix (c : Column) : c.mix.unmix = c := by
  rw [unmix_eq, mix_mix, mix_mix]
  obtain ⟨a, b, c, d⟩ := c
  have hca := UInt8.xor_comm c a
  have hdb := UInt8.xor_comm d b
  have ha := pair_restored a c
  have hb := pair_restored b d
  have hc := pair_restored c a
  have hd := pair_restored d b
  simp only [hca, hdb] at ha hb hc hd ⊢
  simp only [ha, hb, hc, hd]

theorem mix_unmix (c : Column) : c.unmix.mix = c := by
  rw [unmix_eq, ← unmix_eq c.mix, unmix_mix]

end Column

namespace Block

theorem xor_cancel (a b : Block) : (a.xor b).xor b = a := by
  simp [xor, Column.xor_cancel]

theorem restore_substitute (b : Block) : b.substitute.restore = b := by
  simp [substitute, restore, map, Column.map_map Aes.restore_substitute]

theorem substitute_restore (b : Block) : b.restore.substitute = b := by
  simp [substitute, restore, map, Column.map_map Aes.substitute_restore]

theorem mixColumns_unmixColumns (b : Block) : b.unmixColumns.mixColumns = b := by
  simp [mixColumns, unmixColumns, map, Column.mix_unmix]

theorem unmixColumns_mixColumns (b : Block) : b.mixColumns.unmixColumns = b := by
  simp [mixColumns, unmixColumns, map, Column.unmix_mix]

end Block

theorem decryptRounds_cons {ks : List Block} (h : ks ≠ []) (k s : Block) :
    decryptRounds (k :: ks) s =
      ((decryptRounds ks s).xor k).unmixColumns.unshiftRows.restore := by
  cases ks with
  | nil => exact absurd rfl h
  | cons l ks => rfl

theorem Block.undo_last (k s : Block) :
    ((s.substitute.shiftRows.xor k).xor k).unshiftRows.restore = s := by
  rw [xor_cancel, unshiftRows_shiftRows, restore_substitute]

theorem Block.undo_round (k s : Block) :
    ((s.substitute.shiftRows.mixColumns.xor k).xor k).unmixColumns.unshiftRows.restore = s := by
  rw [xor_cancel, unmixColumns_mixColumns, unshiftRows_shiftRows, restore_substitute]

theorem decryptRounds_encryptRounds (ks : List Block) (b : Block) :
    decryptRounds ks (encryptRounds ks b) = b := by
  induction ks generalizing b with
  | nil => rfl
  | cons k ks ih =>
      cases ks with
      | nil => exact Block.undo_last k b
      | cons l ks =>
          rw [decryptRounds_cons (by simp)]
          exact (congrArg (fun s => (Block.xor s k).unmixColumns.unshiftRows.restore) (ih _)).trans
            (Block.undo_round k b)

theorem encryptRounds_cons {ks : List Block} (h : ks ≠ []) (k s : Block) :
    encryptRounds (k :: ks) s = encryptRounds ks (s.substitute.shiftRows.mixColumns.xor k) := by
  cases ks with
  | nil => exact absurd rfl h
  | cons l ks => rfl

theorem Block.redo_last (k s : Block) :
    ((s.xor k).unshiftRows.restore.substitute.shiftRows).xor k = s := by
  rw [substitute_restore, shiftRows_unshiftRows, xor_cancel]

theorem Block.redo_round (k s : Block) :
    ((s.xor k).unmixColumns.unshiftRows.restore.substitute.shiftRows.mixColumns).xor k = s := by
  rw [substitute_restore, shiftRows_unshiftRows, mixColumns_unmixColumns, xor_cancel]

theorem encryptRounds_decryptRounds (ks : List Block) (b : Block) :
    encryptRounds ks (decryptRounds ks b) = b := by
  induction ks with
  | nil => rfl
  | cons k ks ih =>
      cases ks with
      | nil => exact Block.redo_last k b
      | cons l ks =>
          rw [decryptRounds_cons (by simp), encryptRounds_cons (by simp)]
          exact (congrArg (encryptRounds (l :: ks)) (Block.redo_round k _)).trans ih

theorem Schedule.decrypt_encrypt (k : Schedule) (b : Block) : k.decrypt (k.encrypt b) = b := by
  rw [decrypt, encrypt, decryptRounds_encryptRounds, Block.xor_cancel]

theorem Schedule.encrypt_decrypt (k : Schedule) (b : Block) : k.encrypt (k.decrypt b) = b := by
  rw [decrypt, encrypt, Block.xor_cancel, encryptRounds_decryptRounds]

namespace Block

theorem ofBytes_bytes_append (b : Block) (rest : Bytes) :
    ofBytes (b.bytes ++ rest) = b :: ofBytes rest := rfl

theorem ofBytes_flatMap_bytes (bs : List Block) : ofBytes (bs.flatMap bytes) = bs := by
  induction bs with
  | nil => rfl
  | cons b bs ih => rw [List.flatMap_cons, ofBytes_bytes_append, ih]

theorem flatMap_bytes_ofBytes {b : Bytes} (h : b.length % 16 = 0) :
    (ofBytes b).flatMap bytes = b := by
  fun_induction ofBytes b with
  | case1 a0 a1 a2 a3 b0 b1 b2 b3 c0 c1 c2 c3 d0 d1 d2 d3 rest ih =>
      have hrest : rest.length % 16 = 0 := by
        simp only [List.length_cons] at h
        omega
      rw [List.flatMap_cons, ih hrest]
      rfl
  | case2 b hshort =>
      have hlen : b.length / 16 = 0 := by
        have hnone : ofBytes b = [] := by
          unfold ofBytes
          split
          · exact absurd rfl (hshort _ _ _ _ _ _ _ _ _ _ _ _ _ _ _ _ _)
          · rfl
        rw [← length_ofBytes, hnone]
        rfl
      have hzero : b.length = 0 := by omega
      rw [List.length_eq_zero_iff.mp hzero]
      rfl

theorem exists_flatMap_bytes {b : Bytes} (h : b.length % 16 = 0) :
    ∃ bs : List Block, bs.flatMap bytes = b :=
  ⟨ofBytes b, flatMap_bytes_ofBytes h⟩

theorem bytes_xor (a b : Block) : (a.xor b).bytes = Bytes.xor a.bytes b.bytes := rfl

theorem bytes_ofFixed (b : Fixed 16) : (ofFixed b).bytes = b.bytes := by
  obtain ⟨bs, hbs⟩ := exists_flatMap_bytes (b := b.bytes) (by simp [b.length_eq])
  have hlength := congrArg List.length hbs
  rw [length_flatMap_bytes, b.length_eq] at hlength
  obtain ⟨a, rfl⟩ := List.length_eq_one_iff.mp (by omega : bs.length = 1)
  rw [ofFixed, ← hbs, ofBytes_flatMap_bytes]
  simp

end Block

end DeviceAuth.Aes
