import DeviceAuth.P256.Field

namespace DeviceAuth.P256

def coefficient : Field :=
  Field.ofNat 0x5ac635d8aa3a93e7b3ebbd55769886bc651d06b0cc53b0f63bce3c3e27d2604b

structure Point where
  x : Field
  y : Field
  z : Field
  deriving DecidableEq

namespace Point

def infinity : Point :=
  ⟨0, 1, 0⟩

def base : Point where
  x := Field.ofNat 0x6b17d1f2e12c4247f8bce6e563a440f277037d812deb33a0f4a13945d898c296
  y := Field.ofNat 0x4fe342e2fe1a7f9b8ee7eb4a7c0f9e162bce33576b315ececbb6406837bf51f5
  z := 1

-- Complete: equal, opposite and infinite points need no case of their own.
def add (p q : Point) : Point :=
  let xx := p.x * q.x
  let yy := p.y * q.y
  let zz := p.z * q.z
  let xy := p.x * q.y + q.x * p.y
  let yz := p.y * q.z + q.y * p.z
  let xz := p.x * q.z + q.x * p.z
  let s := 3 * (coefficient * zz - xz)
  let t := 3 * (coefficient * xz - xx - 3 * zz)
  let u := 3 * (xx - zz)
  ⟨xy * (yy - s) - yz * t, u * t + (yy + s) * (yy - s), yz * (yy + s) + xy * u⟩

def multiple (k : Nat) (p : Point) : Point :=
  byBits (fun a => a.add a) (fun a => a.add p) infinity k

-- Affine coordinates; both are zero at infinity, which is not on the curve.
def affine (p : Point) : Field × Field :=
  let w := inverse p.z
  (p.x * w, p.y * w)

end Point

end DeviceAuth.P256
