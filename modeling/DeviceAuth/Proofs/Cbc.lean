import DeviceAuth.Cbc
import DeviceAuth.Proofs.Aes
import DeviceAuth.Proofs.Except

namespace DeviceAuth.Cbc

open Aes

theorem decryptBlocks_encryptBlocks (k : Schedule) (previous : Block) (ps : List Block) :
    decryptBlocks k previous (encryptBlocks k previous ps) = ps := by
  induction ps generalizing previous with
  | nil => rfl
  | cons p ps ih =>
      simp only [encryptBlocks, decryptBlocks, ih, Schedule.decrypt_encrypt, Block.xor_cancel]

theorem decrypt_encrypt (k : Schedule) (iv : Fixed 16) {data : Bytes} (h : data.length % 16 = 0) :
    decrypt k iv (encrypt k iv data) = data := by
  rw [decrypt, encrypt, Block.ofBytes_flatMap_bytes, decryptBlocks_encryptBlocks,
    Block.flatMap_bytes_ofBytes h]

theorem encryptBlocks_decryptBlocks (k : Schedule) (previous : Block) (cs : List Block) :
    encryptBlocks k previous (decryptBlocks k previous cs) = cs := by
  induction cs generalizing previous with
  | nil => rfl
  | cons c cs ih =>
      simp only [encryptBlocks, decryptBlocks, ih, Block.xor_cancel, Schedule.encrypt_decrypt]

theorem encrypt_decrypt (k : Schedule) (iv : Fixed 16) {data : Bytes} (h : data.length % 16 = 0) :
    encrypt k iv (decrypt k iv data) = data := by
  rw [decrypt, encrypt, Block.ofBytes_flatMap_bytes, encryptBlocks_decryptBlocks,
    Block.flatMap_bytes_ofBytes h]

def remasked (iv other : Fixed 16) (data : Bytes) : Bytes :=
  Bytes.xor (Bytes.xor (data.take 16) iv.bytes) other.bytes ++ data.drop 16

theorem decrypt_encrypt_other (k : Schedule) (iv other : Fixed 16) {data : Bytes}
    (h : data.length % 16 = 0) : decrypt k other (encrypt k iv data) = remasked iv other data := by
  obtain ⟨bs, rfl⟩ := Block.exists_flatMap_bytes h
  rw [decrypt, encrypt, Block.ofBytes_flatMap_bytes, Block.ofBytes_flatMap_bytes]
  cases bs with
  | nil => simp [encryptBlocks, decryptBlocks, remasked, Bytes.xor]
  | cons b bs =>
      rw [remasked, List.flatMap_cons, List.take_left' b.length_bytes, List.drop_left' b.length_bytes]
      simp only [encryptBlocks, decryptBlocks, Schedule.decrypt_encrypt, List.flatMap_cons,
        decryptBlocks_encryptBlocks, Block.bytes_xor, Block.bytes_ofFixed]

theorem length_pad (data : Bytes) : (pad data).length = data.length + (16 - data.length % 16) := by
  simp [pad]

theorem unpad?_pad (data : Bytes) : unpad? (pad data) = some data := by
  have hlength := length_pad data
  have hbound : 1 ≤ 16 - data.length % 16 ∧ 16 - data.length % 16 ≤ 16 := by omega
  rw [unpad?]
  unfold pad at hlength ⊢
  dsimp only at hlength ⊢
  generalize 16 - data.length % 16 = n at hlength hbound ⊢
  have hlast : (data ++ List.replicate n (UInt8.ofNat n)).getLast? = some (UInt8.ofNat n) := by
    obtain ⟨m, rfl⟩ := Nat.exists_eq_add_of_le' hbound.1
    rw [List.replicate_succ', ← List.append_assoc, List.getLast?_concat]
  have hnat : (UInt8.ofNat n).toNat = n := by
    rw [UInt8.toNat_ofNat']
    omega
  rw [hlast]
  dsimp only
  rw [hnat, hlength, Nat.add_sub_cancel, List.drop_left, List.take_left]
  rw [if_pos]
  exact ⟨hbound.1, hbound.2, by simp⟩

theorem length_pad_mod (data : Bytes) : (pad data).length % 16 = 0 := by
  rw [length_pad]
  omega

theorem decryptPadded_encryptPadded_other (k : Schedule) (iv other : Fixed 16) (data : Bytes) :
    decryptPadded k other (encryptPadded k iv data) =
      match unpad? (remasked iv other (pad data)) with
      | some plain => .ok plain
      | none => .error .padding := by
  have hpos : 16 ≤ (pad data).length := by
    rw [length_pad]
    omega
  have hlength : (encrypt k iv (pad data)).length = (pad data).length := by
    have hmod := length_pad_mod data
    rw [length_encrypt]
    omega
  have hwhole : ((encryptPadded k iv data).isEmpty ||
      (encryptPadded k iv data).length % 16 != 0) = false := by
    rw [encryptPadded, hlength, length_pad_mod, List.isEmpty_eq_false_iff.mpr]
    · rfl
    · intro hempty
      rw [hempty] at hlength
      simp only [List.length_nil] at hlength
      omega
  rw [decryptPadded, hwhole, encryptPadded, decrypt_encrypt_other k iv other (length_pad_mod data)]
  rfl

theorem remasked_self (iv : Fixed 16) (data : Bytes) : remasked iv iv data = data := by
  have hlength : (data.take 16).length ≤ iv.bytes.length := by
    rw [List.length_take, iv.length_eq]
    exact Nat.min_le_left 16 data.length
  rw [remasked, Bytes.xor_xor_cancel hlength, List.take_append_drop]

theorem decryptPadded_encryptPadded (k : Schedule) (iv : Fixed 16) (data : Bytes) :
    decryptPadded k iv (encryptPadded k iv data) = .ok data := by
  rw [decryptPadded_encryptPadded_other, remasked_self, unpad?_pad]

theorem length_remasked (iv other : Fixed 16) (data : Bytes) :
    (remasked iv other data).length = data.length := by
  simp only [remasked, List.length_append, Bytes.length_xor, List.length_take, List.length_drop,
    iv.length_eq, other.length_eq]
  omega

theorem remasked_pad (iv other : Fixed 16) {data : Bytes} (h : 16 ≤ data.length) :
    remasked iv other (pad data) = pad (remasked iv other data) := by
  simp only [pad, length_remasked]
  simp only [remasked, List.take_append_of_le_length h, List.drop_append_of_le_length h,
    List.append_assoc]

theorem length_encryptPadded (k : Schedule) (iv : Fixed 16) (data : Bytes) :
    (encryptPadded k iv data).length = 16 * (data.length / 16 + 1) := by
  rw [encryptPadded, length_encrypt, length_pad]
  omega

theorem length_of_unpad? {data plain : Bytes} (h : unpad? data = some plain)
    (hwhole : data.length % 16 = 0) : data.length = 16 * (plain.length / 16 + 1) := by
  unfold unpad? at h
  split at h
  next => cases h
  next last hlast =>
    have hsome : 0 < data.length := by
      cases data with
      | nil => cases hlast
      | cons => exact Nat.succ_pos _
    dsimp only at h
    split at h
    next hpadding =>
      cases h
      rw [List.length_take]
      omega
    next => cases h

theorem length_of_decryptPadded {k : Schedule} {iv : Fixed 16} {data plain : Bytes}
    (h : decryptPadded k iv data = .ok plain) : data.length = 16 * (plain.length / 16 + 1) := by
  unfold decryptPadded at h
  split at h
  next => cases h
  next hshape =>
    simp only [Bool.or_eq_true, bne_iff_ne, not_or, Decidable.not_not] at hshape
    have hwhole : data.length % 16 = 0 := hshape.2
    have hdecrypted : (decrypt k iv data).length = data.length := by
      rw [length_decrypt]
      omega
    split at h
    next plain' hplain =>
      cases h
      rw [← hdecrypted]
      exact length_of_unpad? hplain (hdecrypted ▸ hwhole)
    next => cases h

theorem aligned_eq_ok {data : Bytes} : aligned data = .ok () ↔ data.length % 16 = 0 := by
  unfold aligned
  split <;> simp_all

theorem encryptAligned_eq_ok {k : Schedule} {iv : Fixed 16} {data sealed : Bytes} :
    encryptAligned k iv data = .ok sealed ↔ data.length % 16 = 0 ∧ encrypt k iv data = sealed := by
  rw [← aligned_eq_ok]
  exact bind_eq_ok.trans ⟨fun ⟨_, ha, h⟩ => ⟨ha, Except.ok.inj h⟩,
    fun ⟨ha, h⟩ => ⟨(), ha, congrArg Except.ok h⟩⟩

theorem decryptAligned_eq_ok {k : Schedule} {iv : Fixed 16} {data opened : Bytes} :
    decryptAligned k iv data = .ok opened ↔ data.length % 16 = 0 ∧ decrypt k iv data = opened := by
  rw [← aligned_eq_ok]
  exact bind_eq_ok.trans ⟨fun ⟨_, ha, h⟩ => ⟨ha, Except.ok.inj h⟩,
    fun ⟨ha, h⟩ => ⟨(), ha, congrArg Except.ok h⟩⟩

theorem decryptAligned_encryptAligned {k : Schedule} {iv : Fixed 16} {data sealed : Bytes}
    (h : encryptAligned k iv data = .ok sealed) : decryptAligned k iv sealed = .ok data := by
  obtain ⟨haligned, rfl⟩ := encryptAligned_eq_ok.mp h
  refine decryptAligned_eq_ok.mpr ⟨?_, decrypt_encrypt k iv haligned⟩
  rw [length_encrypt, Nat.mul_mod_right]

theorem encryptAligned_decryptAligned {k : Schedule} {iv : Fixed 16} {data opened : Bytes}
    (h : decryptAligned k iv data = .ok opened) : encryptAligned k iv opened = .ok data := by
  obtain ⟨haligned, rfl⟩ := decryptAligned_eq_ok.mp h
  refine encryptAligned_eq_ok.mpr ⟨?_, encrypt_decrypt k iv haligned⟩
  rw [length_decrypt, Nat.mul_mod_right]

end DeviceAuth.Cbc
