import DeviceAuth.Aes.Block

namespace DeviceAuth.Aes

structure Schedule where
  first : Block
  rest : List Block

def roundConstants : List UInt8 :=
  [0x01, 0x02, 0x04, 0x08, 0x10, 0x20, 0x40, 0x80, 0x1b, 0x36]

def chain (k : Block) (head : Column) : Block :=
  let c0 := k.c0.xor head
  let c1 := k.c1.xor c0
  let c2 := k.c2.xor c1
  let c3 := k.c3.xor c2
  ⟨c0, c1, c2, c3⟩

def Column.scrambled (c : Column) (constant : UInt8) : Column :=
  (c.rotate.map substitute).xor ⟨constant, 0, 0, 0⟩

def expandShort : List UInt8 → Block → List Block
  | [], _ => []
  | r :: rs, k =>
      let next := chain k (k.c3.scrambled r)
      next :: expandShort rs next

-- Round keys after the pair `k`, `l`; the last constant yields one key only.
def expandLong : List UInt8 → Block → Block → List Block
  | [], _, _ => []
  | [r], k, l => [chain k (l.c3.scrambled r)]
  | r :: rs, k, l =>
      let even := chain k (l.c3.scrambled r)
      let odd := chain l (even.c3.map substitute)
      even :: odd :: expandLong rs even odd

def Schedule.ofShort (key : Fixed 16) : Schedule :=
  let k := Block.ofFixed key
  ⟨k, expandShort roundConstants k⟩

def Schedule.ofLong (key : Fixed 32) : Schedule :=
  let k := (Block.ofBytes key.bytes).headD Block.zero
  let l := (Block.ofBytes (key.bytes.drop 16)).headD Block.zero
  ⟨k, l :: expandLong (roundConstants.take 7) k l⟩

def encryptRounds : List Block → Block → Block
  | [], s => s
  | [k], s => s.substitute.shiftRows.xor k
  | k :: ks, s => encryptRounds ks (s.substitute.shiftRows.mixColumns.xor k)

def decryptRounds : List Block → Block → Block
  | [], s => s
  | [k], s => (s.xor k).unshiftRows.restore
  | k :: ks, s => ((decryptRounds ks s).xor k).unmixColumns.unshiftRows.restore

def Schedule.encrypt (k : Schedule) (b : Block) : Block :=
  encryptRounds k.rest (b.xor k.first)

def Schedule.decrypt (k : Schedule) (b : Block) : Block :=
  (decryptRounds k.rest b).xor k.first

end DeviceAuth.Aes
