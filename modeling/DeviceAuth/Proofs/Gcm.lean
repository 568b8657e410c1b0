import DeviceAuth.Gcm

namespace DeviceAuth

namespace Gcm

open Aes

variable (k : Schedule) (nonce : Fixed 12)

theorem length_keystream (length : Nat) :
    (keystream k nonce length).length = 16 * ((length + 15) / 16) := by
  simp [keystream, List.length_flatMap, Block.length_bytes, List.map_const', Nat.mul_comm]

theorem le_length_keystream (length : Nat) : length ≤ (keystream k nonce length).length := by
  rw [length_keystream]
  omega

theorem length_crypt (data : Bytes) : (crypt k nonce data).length = data.length := by
  rw [crypt, Bytes.length_xor, Nat.min_eq_left (le_length_keystream k nonce data.length)]

theorem crypt_crypt (data : Bytes) : crypt k nonce (crypt k nonce data) = data := by
  rw [crypt, length_crypt]
  exact Bytes.xor_xor_cancel (le_length_keystream k nonce data.length)

theorem length_tag (data : Bytes) : (tag k nonce data).length = 16 :=
  Bytes.length_bigEndian 16 _

theorem length_sealed (key : Key) (data : Bytes) :
    (sealed key nonce data).length = data.length + 28 := by
  simp only [sealed, List.length_append, nonce.length_eq, length_crypt, length_tag]
  omega

theorem opened_sealed (key : Key) (data : Bytes) :
    opened key (sealed key nonce data) = .ok data := by
  let k := Schedule.ofLong key
  let encrypted := crypt k nonce data
  have hs : sealed key nonce data = nonce.bytes ++ (encrypted ++ tag k nonce encrypted) := by
    rw [sealed, List.append_assoc]
  have htake : (sealed key nonce data).take 12 = nonce.bytes := by
    rw [hs, List.take_left' nonce.length_eq]
  have hdrop : (sealed key nonce data).drop 12 = encrypted ++ tag k nonce encrypted := by
    rw [hs, List.drop_left' nonce.length_eq]
  have hlen : (encrypted ++ tag k nonce encrypted).length - 16 = encrypted.length := by
    rw [List.length_append, length_tag, Nat.add_sub_cancel]
  have hlong : 16 ≤ (encrypted ++ tag k nonce encrypted).length := by
    rw [List.length_append, length_tag]
    omega
  simp only [opened, htake, hdrop, Fixed.ofBytes?_bytes, hlen, List.take_left, List.drop_left]
  rw [if_pos ⟨hlong, rfl⟩, crypt_crypt]

end Gcm

end DeviceAuth
