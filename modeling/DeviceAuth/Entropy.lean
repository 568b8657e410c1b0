import DeviceAuth.P256.Key

namespace DeviceAuth

structure Entropy where
  byte : Nat → UInt8
  position : Nat := 0

namespace Entropy

def draw (n : Nat) (e : Entropy) : Fixed n × Entropy :=
  (⟨(List.range n).map fun i => e.byte (e.position + i), by simp⟩,
    { e with position := e.position + n })

def privateKey? : Nat → Entropy → Option (P256.PrivateKey × Entropy)
  | 0, _ => none
  | attempts + 1, e =>
      let (b, e) := e.draw 32
      match P256.PrivateKey.ofNat? (Bytes.ofBigEndian b.bytes) with
      | some k => some (k, e)
      | none => privateKey? attempts e

end Entropy

end DeviceAuth
