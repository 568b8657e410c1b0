import DeviceAuth.Sha256
import DeviceAuth.Version

namespace DeviceAuth

inductive Counter where
  | numeric (value : UInt64)
  | chain (state : Key) (steps : UInt64)
  deriving DecidableEq

namespace Counter

def ofSeed (seed : Key) : Counter :=
  .chain seed 0

def version : Counter → Version
  | .numeric _ => .v2
  | .chain _ _ => .v3

def data : Counter → Bytes
  | .numeric n => Bytes.bigEndian 8 n.toNat
  | .chain state _ => state.bytes

def next : Counter → Counter
  | .numeric n => .numeric (n + 1)
  | .chain state steps => .chain (sha256 state.bytes) (steps + 1)

def steps : Counter → UInt64
  | .numeric n => n
  | .chain _ steps => steps

def advance : Nat → Counter → Counter
  | 0, c => c
  | n + 1, c => advance n c.next

end Counter

end DeviceAuth
