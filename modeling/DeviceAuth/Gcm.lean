import DeviceAuth.Aes.Cipher
import DeviceAuth.Failure

namespace DeviceAuth.Gcm

open Aes

-- Polynomials of degree below 128; the most significant bit is the constant term.
abbrev Element := BitVec 128

def element (b : Block) : Element :=
  BitVec.ofNat 128 (Bytes.ofBigEndian b.bytes)

def reduction : Element := 0xe1000000000000000000000000000000#128

def shift (v : Element) : Element :=
  if v.getLsbD 0 then (v >>> 1) ^^^ reduction else v >>> 1

def step (x : Element) (acc : Element × Element) (i : Nat) : Element × Element :=
  (if x.getMsbD i then acc.1 ^^^ acc.2 else acc.1, shift acc.2)

def mul (x y : Element) : Element :=
  ((List.range 128).foldl (step x) (0, y)).1

def hash (h : Element) (blocks : List Block) : Element :=
  blocks.foldl (fun sum b => mul (sum ^^^ element b) h) 0

def fill (data : Bytes) : Bytes :=
  data ++ List.replicate ((16 - data.length % 16) % 16) 0

def counterBlock (nonce : Fixed 12) (i : Nat) : Block :=
  (Block.ofBytes (nonce.bytes ++ Bytes.bigEndian 4 i)).headD Block.zero

def keystream (k : Schedule) (nonce : Fixed 12) (length : Nat) : Bytes :=
  (List.range ((length + 15) / 16)).flatMap fun i => (k.encrypt (counterBlock nonce (i + 2))).bytes

def crypt (k : Schedule) (nonce : Fixed 12) (data : Bytes) : Bytes :=
  Bytes.xor data (keystream k nonce data.length)

def tag (k : Schedule) (nonce : Fixed 12) (encrypted : Bytes) : Bytes :=
  let lengths := Bytes.bigEndian 8 0 ++ Bytes.bigEndian 8 (8 * encrypted.length)
  let sum := hash (element (k.encrypt Block.zero)) (Block.ofBytes (fill encrypted ++ lengths))
  Bytes.bigEndian 16 (sum ^^^ element (k.encrypt (counterBlock nonce 1))).toNat

def sealed (key : Key) (nonce : Fixed 12) (data : Bytes) : Bytes :=
  let k := Schedule.ofLong key
  let encrypted := crypt k nonce data
  nonce.bytes ++ encrypted ++ tag k nonce encrypted

def opened (key : Key) (data : Bytes) : Except DecryptionFault Bytes :=
  match Fixed.ofBytes? 12 (data.take 12) with
  | none => .error .tooShort
  | some nonce =>
      let body := data.drop 12
      let encrypted := body.take (body.length - 16)
      let k := Schedule.ofLong key
      if 16 ≤ body.length ∧ tag k nonce encrypted = body.drop (body.length - 16) then
        .ok (crypt k nonce encrypted)
      else .error .unauthentic

end DeviceAuth.Gcm
