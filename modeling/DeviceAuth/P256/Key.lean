import DeviceAuth.Bytes
import DeviceAuth.Failure
import DeviceAuth.P256.Point

namespace DeviceAuth.P256

def curve (x : Field) : Field :=
  x * x * x - 3 * x + coefficient

structure PublicKey where
  x : Field
  y : Field
  onCurve : y * y = curve x
  deriving DecidableEq

structure PrivateKey where
  scalar : Nat
  positive : 0 < scalar
  belowOrder : scalar < order
  deriving DecidableEq

def fieldBytes (x : Field) : Bytes :=
  Bytes.bigEndian 32 x.val

def field? (b : Bytes) : Option Field :=
  let n := Bytes.ofBigEndian b
  if h : n < prime then some ⟨n, h⟩ else none

namespace PublicKey

def ofAffine? (p : Field × Field) : Option PublicKey :=
  if h : p.2 * p.2 = curve p.1 then some ⟨p.1, p.2, h⟩ else none

theorem base_onCurve : Point.base.y * Point.base.y = curve Point.base.x := by
  decide +kernel

def base : PublicKey :=
  ⟨Point.base.x, Point.base.y, base_onCurve⟩

def point (k : PublicKey) : Point :=
  ⟨k.x, k.y, 1⟩

def odd (y : Field) : Bool :=
  y.val % 2 == 1

def compressed (k : PublicKey) : Bytes :=
  (if odd k.y then 3 else 2) :: fieldBytes k.x

def uncompressed (k : PublicKey) : Bytes :=
  4 :: (fieldBytes k.x ++ fieldBytes k.y)

def decompress? (isOdd : Bool) (x : Field) : Option PublicKey := do
  let y ← squareRoot? (curve x)
  ofAffine? (x, if odd y = isOdd then y else 0 - y)

def ofBytes (b : Bytes) : Except PrimitiveFault PublicKey :=
  let answer (k : Option PublicKey) : Except PrimitiveFault PublicKey :=
    match k with
    | some k => .ok k
    | none => .error (.key .point)
  match b with
  | [] => .error (.key (.pointEncoding none 0))
  | tag :: rest =>
      if (tag = 2 ∨ tag = 3) ∧ rest.length = 32 then
        answer ((field? rest).bind (decompress? (tag == 3)))
      else if tag = 4 ∧ rest.length = 64 then
        answer do
          let x ← field? (rest.take 32)
          let y ← field? (rest.drop 32)
          ofAffine? (x, y)
      else .error (.key (.pointEncoding (some tag) b.length))

end PublicKey

namespace PrivateKey

def ofNat? (n : Nat) : Option PrivateKey :=
  if h : 0 < n ∧ n < order then some ⟨n, h.1, h.2⟩ else none

def bytes (k : PrivateKey) : Bytes :=
  Bytes.bigEndian 32 k.scalar

def ofBytes (b : Bytes) : Except PrimitiveFault PrivateKey :=
  if b.length = 32 then
    match ofNat? (Bytes.ofBigEndian b) with
    | some k => .ok k
    | none => .error (.key .scalar)
  else .error (.key (.scalarLength b.length))

-- No multiple of the base point by a scalar in range is infinite, so the base point, which stands
-- in for one that is not on the curve, is never taken.
def publicKey (k : PrivateKey) : PublicKey :=
  (PublicKey.ofAffine? (Point.base.multiple k.scalar).affine).getD PublicKey.base

def agree (k : PrivateKey) (peer : PublicKey) : Key :=
  ⟨fieldBytes (peer.point.multiple k.scalar).affine.1, Bytes.length_bigEndian 32 _⟩

end PrivateKey

end DeviceAuth.P256
