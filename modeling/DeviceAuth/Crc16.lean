import DeviceAuth.Bytes

namespace DeviceAuth.Crc16

abbrev Remainder := BitVec 16

def polynomial : Remainder := 0xa001#16

def shift (c : Remainder) : Remainder :=
  if c.getLsbD 0 then (c >>> 1) ^^^ polynomial else c >>> 1

def shifts : Nat → Remainder → Remainder
  | 0, c => c
  | n + 1, c => shifts n (shift c)

def absorb (c : Remainder) (b : UInt8) : Remainder :=
  shifts 8 (c ^^^ b.toBitVec.setWidth 16)

def remainder (data : Bytes) : Remainder :=
  data.foldl absorb 0

def check (data : Bytes) : Bytes :=
  Bytes.bigEndian 2 (remainder data).toNat

def append (data : Bytes) : Bytes :=
  data ++ check data

def valid (data : Bytes) : Bool :=
  let body := data.take (data.length - 2)
  2 ≤ data.length && data.drop (data.length - 2) == check body

end DeviceAuth.Crc16
