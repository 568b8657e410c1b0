import DeviceAuth.Hmac
import DeviceAuth.P256.Key

namespace DeviceAuth.P256

structure Signature where
  r : Nat
  s : Nat
  deriving DecidableEq

namespace Signature

def derInteger (n : Nat) : Bytes :=
  let digits := (Bytes.bigEndian 33 n).dropWhile (· == 0)
  let body := if digits.headD 0x80 < 0x80 then digits else 0 :: digits
  2 :: UInt8.ofNat body.length :: body

def der (g : Signature) : Bytes :=
  let body := derInteger g.r ++ derInteger g.s
  0x30 :: UInt8.ofNat body.length :: body

def readDer? : Bytes → Option Signature
  | _ :: _ :: _ :: n :: rest =>
      match rest.drop n.toNat with
      | _ :: _ :: last => some ⟨Bytes.ofBigEndian (rest.take n.toNat), Bytes.ofBigEndian last⟩
      | _ => none
  | _ => none

def inRange (g : Signature) : Bool :=
  0 < g.r && g.r < order && 0 < g.s && g.s < order

def ofDer? (b : Bytes) : Option Signature :=
  match readDer? b with
  | some g => if g.inRange ∧ g.der = b then some g else none
  | none => none

end Signature

def Scalar.ofDigest (digest : Key) : Scalar :=
  Scalar.ofNat (Bytes.ofBigEndian digest.bytes)

structure NonceState where
  key : Bytes
  value : Bytes

namespace NonceState

def next (g : NonceState) : NonceState :=
  { g with value := (hmac g.key g.value).bytes }

def rekey (g : NonceState) (data : Bytes) : NonceState :=
  NonceState.next { g with key := (hmac g.key (g.value ++ data)).bytes }

-- The digest enters as it stands, also when its number is not below the order.
def start (k : PrivateKey) (digest : Key) : NonceState :=
  let seed := k.bytes ++ digest.bytes
  ((NonceState.mk (List.replicate 32 0) (List.replicate 32 1)).rekey (0 :: seed)).rekey (1 :: seed)

def scalar? : Nat → NonceState → Option PrivateKey
  | 0, _ => none
  | attempts + 1, g =>
      let g := g.next
      match PrivateKey.ofNat? (Bytes.ofBigEndian g.value) with
      | some k => some k
      | none => scalar? attempts (g.rekey [0])

end NonceState

def nonceAttempts : Nat := 128

def Scalar.ofPoint (p : Point) : Scalar :=
  Scalar.ofNat p.affine.1.val

def PrivateKey.signature? (k : PrivateKey) (message : Bytes) : Option Signature := do
  let digest := sha256 message
  let nonce ← NonceState.scalar? nonceAttempts (.start k digest)
  let r := Scalar.ofPoint (Point.base.multiple nonce.scalar)
  let s := inverse (Scalar.ofNat nonce.scalar) * (Scalar.ofDigest digest + r * Scalar.ofNat k.scalar)
  let g : Signature := ⟨r.val, s.val⟩
  if g.inRange then some g else none

def PrivateKey.sign (k : PrivateKey) (message : Bytes) : Except PrimitiveFault Bytes :=
  match k.signature? message with
  | some g => .ok g.der
  | none => .error (.signing "signature error")

def PublicKey.accepts (k : PublicKey) (message : Bytes) (g : Signature) : Bool :=
  let w := inverse (Scalar.ofNat g.s)
  let u := Scalar.ofDigest (sha256 message) * w
  let v := Scalar.ofNat g.r * w
  let p := (Point.base.multiple u.val).add (k.point.multiple v.val)
  (Scalar.ofPoint p).val == g.r

def PublicKey.verify (k : PublicKey) (message signature : Bytes) : Except PrimitiveFault Unit :=
  match Signature.ofDer? signature with
  | some g => if k.accepts message g then .ok () else .error .badSignature
  | none => .error .badSignature

end DeviceAuth.P256
