import DeviceAuth.Sha256

namespace DeviceAuth

namespace Hmac

def blockSize : Nat := 64

structure Prepared where
  inner : Sha256.State
  outer : Sha256.State

def keyBlock (key : Bytes) : Bytes :=
  let short := if key.length > blockSize then (sha256 key).bytes else key
  short ++ List.replicate (blockSize - short.length) 0

def padded (key : Bytes) (pad : UInt8) : Sha256.State :=
  Sha256.initial.absorb (Sha256.words ((keyBlock key).map (· ^^^ pad)))

def prepare (key : Bytes) : Prepared :=
  ⟨padded key 0x36, padded key 0x5c⟩

def Prepared.mac (key : Prepared) (message : Bytes) : Key :=
  key.outer.finish blockSize (key.inner.finish blockSize message).bytes

end Hmac

def hmac (key message : Bytes) : Key :=
  (Hmac.prepare key).mac message

namespace Hmac

def fold (digest : Key) : Fixed 16 where
  bytes := Bytes.xor (digest.bytes.take 16) (digest.bytes.drop 16)
  length_eq := by simp [Bytes.length_xor, digest.length_eq]

end Hmac

end DeviceAuth
