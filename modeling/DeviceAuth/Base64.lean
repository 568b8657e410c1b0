import DeviceAuth.Bytes
import DeviceAuth.Failure

namespace DeviceAuth.Base64

def digit (n : Nat) : Char :=
  if n < 26 then Char.ofNat (65 + n)
  else if n < 52 then Char.ofNat (71 + n)
  else if n < 62 then Char.ofNat (n - 4)
  else if n = 62 then '+'
  else '/'

def value? (c : Char) : Option Nat :=
  if 'A' ≤ c ∧ c ≤ 'Z' then some (c.toNat - 65)
  else if 'a' ≤ c ∧ c ≤ 'z' then some (c.toNat - 71)
  else if '0' ≤ c ∧ c ≤ '9' then some (c.toNat + 4)
  else if c = '+' then some 62
  else if c = '/' then some 63
  else none

def chars : Bytes → List Char
  | [] => []
  | [a] => [digit (a.toNat / 4), digit (a.toNat % 4 * 16), '=', '=']
  | [a, b] =>
      [digit (a.toNat / 4), digit (a.toNat % 4 * 16 + b.toNat / 16), digit (b.toNat % 16 * 4), '=']
  | a :: b :: c :: rest =>
      digit (a.toNat / 4) :: digit (a.toNat % 4 * 16 + b.toNat / 16) ::
        digit (b.toNat % 16 * 4 + c.toNat / 64) :: digit (c.toNat % 64) :: chars rest

def first (s t : Nat) : UInt8 :=
  UInt8.ofNat (s * 4 + t / 16)

def second (t u : Nat) : UInt8 :=
  UInt8.ofNat (t % 16 * 16 + u / 4)

def third (u v : Nat) : UInt8 :=
  UInt8.ofNat (u % 4 * 64 + v)

def ofChars? : List Char → Option Bytes
  | [] => some []
  | [c, d, '=', '='] => do
      let s ← value? c
      let t ← value? d
      if t % 16 = 0 then some [first s t] else none
  | [c, d, e, '='] => do
      let s ← value? c
      let t ← value? d
      let u ← value? e
      if u % 4 = 0 then some [first s t, second t u] else none
  | c :: d :: e :: f :: rest => do
      let s ← value? c
      let t ← value? d
      let u ← value? e
      let v ← value? f
      let more ← ofChars? rest
      return first s t :: second t u :: third u v :: more
  | _ => none

def encode (b : Bytes) : String :=
  String.ofList (chars b)

def decode (s : String) : Except FormatFault Bytes :=
  match ofChars? s.toList with
  | some b => .ok b
  | none => .error .base64

def decodeFixed (n : Nat) (what : String) (s : String) : Except FormatFault (Fixed n) := do
  let b ← decode s
  match Fixed.ofBytes? n b with
  | some f => return f
  | none => throw (.size what n b.length)

end DeviceAuth.Base64
