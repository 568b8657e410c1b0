import DeviceAuth.Text

namespace DeviceAuth

structure Codec (α : Type) where
  write : α → Bytes
  read : Bytes → Option (α × Bytes)

namespace Codec

variable {α β : Type}

def map (c : Codec α) (f : α → β) (back : β → α) : Codec β where
  write b := c.write (back b)
  read input := (c.read input).map fun (a, rest) => (f a, rest)

def filterMap (c : Codec α) (f? : α → Option β) (back : β → α) : Codec β where
  write b := c.write (back b)
  read input := (c.read input).bind fun (a, rest) => (f? a).map (·, rest)

def pair (c : Codec α) (d : Codec β) : Codec (α × β) where
  write ab := c.write ab.1 ++ d.write ab.2
  read input :=
    (c.read input).bind fun (a, rest) => (d.read rest).map fun (b, rest) => ((a, b), rest)

def fixed (width : Nat) : Codec (Fixed width) where
  write b := b.bytes
  read input := (Fixed.ofBytes? width (input.take width)).map (·, input.drop width)

def number (width : Nat) : Codec Nat :=
  (fixed width).map (fun b => Bytes.ofLittleEndian b.bytes)
    (fun n => ⟨Bytes.littleEndian width n, Bytes.length_littleEndian width n⟩)

def byte : Codec UInt8 :=
  (number 1).map UInt8.ofNat UInt8.toNat

def word32 : Codec UInt32 :=
  (number 4).map UInt32.ofNat UInt32.toNat

def word64 : Codec UInt64 :=
  (number 8).map UInt64.ofNat UInt64.toNat

def bytes : Codec Bytes where
  write b := (number 8).write b.length ++ b
  read input :=
    (number 8).read input |>.bind fun (n, rest) =>
      if n ≤ rest.length then some (rest.take n, rest.drop n) else none

def text : Codec String :=
  bytes.filterMap Text.ofUtf8? Text.utf8

def flag : Codec Bool :=
  byte.filterMap (fun b => if b = 0 then some false else if b = 1 then some true else none)
    (fun b => if b then 1 else 0)

def option (c : Codec α) : Codec (Option α) where
  write
    | none => flag.write false
    | some a => flag.write true ++ c.write a
  read input :=
    (flag.read input).bind fun (present, rest) =>
      if present then (c.read rest).map fun (a, rest) => (some a, rest) else some (none, rest)

def choice [BEq α] (values : List α) : Codec α :=
  word32.filterMap (fun n => values[n.toNat]?) (fun a => UInt32.ofNat (values.idxOf a))

-- The value at the front; what follows it is ignored.
def decode? (c : Codec α) (input : Bytes) : Option α :=
  (c.read input).map Prod.fst

end Codec

end DeviceAuth
