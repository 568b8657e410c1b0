import DeviceAuth.Aes.Cipher
import DeviceAuth.Failure

namespace DeviceAuth.Cbc

open Aes

def encryptBlocks (k : Schedule) : Block → List Block → List Block
  | _, [] => []
  | previous, p :: ps =>
      let c := k.encrypt (p.xor previous)
      c :: encryptBlocks k c ps

def decryptBlocks (k : Schedule) : Block → List Block → List Block
  | _, [] => []
  | previous, c :: cs => (k.decrypt c).xor previous :: decryptBlocks k c cs

-- Bytes that do not fill a block are dropped; callers pass whole blocks.
def encrypt (k : Schedule) (iv : Fixed 16) (data : Bytes) : Bytes :=
  (encryptBlocks k (Block.ofFixed iv) (Block.ofBytes data)).flatMap Block.bytes

def decrypt (k : Schedule) (iv : Fixed 16) (data : Bytes) : Bytes :=
  (decryptBlocks k (Block.ofFixed iv) (Block.ofBytes data)).flatMap Block.bytes

theorem length_decryptBlocks (k : Schedule) (iv : Block) (cs : List Block) :
    (decryptBlocks k iv cs).length = cs.length := by
  induction cs generalizing iv with
  | nil => rfl
  | cons c cs ih => simp [decryptBlocks, ih]

theorem length_encryptBlocks (k : Schedule) (iv : Block) (ps : List Block) :
    (encryptBlocks k iv ps).length = ps.length := by
  induction ps generalizing iv with
  | nil => rfl
  | cons p ps ih => simp [encryptBlocks, ih]

theorem length_decrypt (k : Schedule) (iv : Fixed 16) (data : Bytes) :
    (decrypt k iv data).length = 16 * (data.length / 16) := by
  rw [decrypt, Block.length_flatMap_bytes, length_decryptBlocks, Block.length_ofBytes]

theorem length_encrypt (k : Schedule) (iv : Fixed 16) (data : Bytes) :
    (encrypt k iv data).length = 16 * (data.length / 16) := by
  rw [encrypt, Block.length_flatMap_bytes, length_encryptBlocks, Block.length_ofBytes]

def pad (data : Bytes) : Bytes :=
  let n := 16 - data.length % 16
  data ++ List.replicate n (UInt8.ofNat n)

def unpad? (data : Bytes) : Option Bytes :=
  match data.getLast? with
  | none => none
  | some last =>
      let body := data.length - last.toNat
      if 1 ≤ last.toNat ∧ last.toNat ≤ 16 ∧ (data.drop body).all (· == last) then
        some (data.take body)
      else none

def encryptPadded (k : Schedule) (iv : Fixed 16) (data : Bytes) : Bytes :=
  encrypt k iv (pad data)

def decryptPadded (k : Schedule) (iv : Fixed 16) (data : Bytes) : Except DecryptionFault Bytes :=
  if data.isEmpty || data.length % 16 != 0 then .error .length
  else
    match unpad? (decrypt k iv data) with
    | some plain => .ok plain
    | none => .error .padding

def aligned (data : Bytes) : Except InputFault Unit :=
  if data.length % 16 = 0 then .ok () else .error (.unaligned data.length)

def encryptAligned (k : Schedule) (iv : Fixed 16) (data : Bytes) : Except InputFault Bytes := do
  aligned data
  return encrypt k iv data

def decryptAligned (k : Schedule) (iv : Fixed 16) (data : Bytes) : Except InputFault Bytes := do
  aligned data
  return decrypt k iv data

namespace Checked

def schedule (key : Bytes) : Except PrimitiveFault Schedule :=
  match Fixed.ofBytes? 16 key, Fixed.ofBytes? 32 key with
  | some k, _ => .ok (Schedule.ofShort k)
  | _, some k => .ok (Schedule.ofLong k)
  | none, none => .error (.key (.aesLength key.length))

def vector (iv : Bytes) : Except PrimitiveFault (Fixed 16) :=
  match Fixed.ofBytes? 16 iv with
  | some v => .ok v
  | none => .error (.key .initialVector)

def encryptPadded (key iv data : Bytes) : Except PrimitiveFault Bytes := do
  let k ← schedule key
  let v ← vector iv
  return Cbc.encryptPadded k v data

-- The length of the data is judged before the key and the vector, the padding after them.
def decryptPadded (key iv data : Bytes) : Except PrimitiveFault Bytes :=
  if data.isEmpty || data.length % 16 != 0 then .error (.decryption .length)
  else do
    let k ← schedule key
    let v ← vector iv
    (Cbc.decryptPadded k v data).mapError .decryption

def encryptAligned (key iv data : Bytes) : Except PrimitiveFault Bytes := do
  (aligned data).mapError .input
  let k ← schedule key
  let v ← vector iv
  return encrypt k v data

def decryptAligned (key iv data : Bytes) : Except PrimitiveFault Bytes := do
  (aligned data).mapError .input
  let k ← schedule key
  let v ← vector iv
  return decrypt k v data

end Checked

end DeviceAuth.Cbc
