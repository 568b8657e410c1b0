import DeviceAuth.Bytes

namespace DeviceAuth.Base32

def bits : Nat → Nat → List Bool
  | 0, _ => []
  | width + 1, n => n.testBit width :: bits width n

def number (bs : List Bool) : Nat :=
  bs.foldl (fun n b => 2 * n + b.toNat) 0

def digit (n : Nat) : Char :=
  if n < 26 then Char.ofNat (65 + n) else Char.ofNat (24 + n)

def isDigit (c : Char) : Bool :=
  ('A' ≤ c && c ≤ 'Z') || ('2' ≤ c && c ≤ '7')

def value? (c : Char) : Option Nat :=
  if 'A' ≤ c ∧ c ≤ 'Z' then some (c.toNat - 65)
  else if '2' ≤ c ∧ c ≤ '7' then some (c.toNat - 24)
  else none

def digits : List Bool → List Char
  | a :: b :: c :: d :: e :: rest => digit (number [a, b, c, d, e]) :: digits rest
  | [] => []
  | rest => [digit (number (rest ++ List.replicate (5 - rest.length) false))]

def octets? : List Bool → Option Bytes
  | a :: b :: c :: d :: e :: f :: g :: h :: rest =>
      (octets? rest).map (UInt8.ofNat (number [a, b, c, d, e, f, g, h]) :: ·)
  | rest => if rest.length < 5 ∧ rest.all (!·) then some [] else none

def encode (b : Bytes) : List Char :=
  digits (b.flatMap fun x => bits 8 x.toNat)

def decode? (cs : List Char) : Option Bytes := do
  let values ← cs.mapM value?
  octets? (values.flatMap (bits 5))

end DeviceAuth.Base32
