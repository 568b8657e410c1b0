import DeviceAuth.Aes.Substitution

namespace DeviceAuth.Aes

structure Column where
  b0 : UInt8
  b1 : UInt8
  b2 : UInt8
  b3 : UInt8
  deriving DecidableEq

structure Block where
  c0 : Column
  c1 : Column
  c2 : Column
  c3 : Column
  deriving DecidableEq

namespace Column

@[inline] def map (f : UInt8 → UInt8) (c : Column) : Column :=
  ⟨f c.b0, f c.b1, f c.b2, f c.b3⟩

def xor (c d : Column) : Column :=
  ⟨c.b0 ^^^ d.b0, c.b1 ^^^ d.b1, c.b2 ^^^ d.b2, c.b3 ^^^ d.b3⟩

def rotate (c : Column) : Column :=
  ⟨c.b1, c.b2, c.b3, c.b0⟩

def double (a : UInt8) : UInt8 :=
  if a < 0x80 then a <<< 1 else (a <<< 1) ^^^ 0x1b

def mix (c : Column) : Column :=
  let t := c.b0 ^^^ c.b1 ^^^ c.b2 ^^^ c.b3
  ⟨c.b0 ^^^ t ^^^ double (c.b0 ^^^ c.b1), c.b1 ^^^ t ^^^ double (c.b1 ^^^ c.b2),
    c.b2 ^^^ t ^^^ double (c.b2 ^^^ c.b3), c.b3 ^^^ t ^^^ double (c.b3 ^^^ c.b0)⟩

-- The inverse matrix is the product of `mix` with the one whose first row is 5, 0, 4, 0.
def unmix (c : Column) : Column :=
  let u := double (double (c.b0 ^^^ c.b2))
  let v := double (double (c.b1 ^^^ c.b3))
  mix ⟨c.b0 ^^^ u, c.b1 ^^^ v, c.b2 ^^^ u, c.b3 ^^^ v⟩

def bytes (c : Column) : Bytes :=
  [c.b0, c.b1, c.b2, c.b3]

end Column

namespace Block

@[inline] def map (f : Column → Column) (b : Block) : Block :=
  ⟨f b.c0, f b.c1, f b.c2, f b.c3⟩

def xor (a b : Block) : Block :=
  ⟨a.c0.xor b.c0, a.c1.xor b.c1, a.c2.xor b.c2, a.c3.xor b.c3⟩

def shiftRows (b : Block) : Block :=
  ⟨⟨b.c0.b0, b.c1.b1, b.c2.b2, b.c3.b3⟩, ⟨b.c1.b0, b.c2.b1, b.c3.b2, b.c0.b3⟩,
    ⟨b.c2.b0, b.c3.b1, b.c0.b2, b.c1.b3⟩, ⟨b.c3.b0, b.c0.b1, b.c1.b2, b.c2.b3⟩⟩

def unshiftRows (b : Block) : Block :=
  ⟨⟨b.c0.b0, b.c3.b1, b.c2.b2, b.c1.b3⟩, ⟨b.c1.b0, b.c0.b1, b.c3.b2, b.c2.b3⟩,
    ⟨b.c2.b0, b.c1.b1, b.c0.b2, b.c3.b3⟩, ⟨b.c3.b0, b.c2.b1, b.c1.b2, b.c0.b3⟩⟩

def substitute (b : Block) : Block :=
  b.map (Column.map Aes.substitute)

def restore (b : Block) : Block :=
  b.map (Column.map Aes.restore)

def mixColumns (b : Block) : Block :=
  b.map Column.mix

def unmixColumns (b : Block) : Block :=
  b.map Column.unmix

def bytes (b : Block) : Bytes :=
  b.c0.bytes ++ b.c1.bytes ++ b.c2.bytes ++ b.c3.bytes

def ofBytes : Bytes → List Block
  | a0 :: a1 :: a2 :: a3 :: b0 :: b1 :: b2 :: b3 :: c0 :: c1 :: c2 :: c3 :: d0 :: d1 :: d2 :: d3 ::
      rest =>
    ⟨⟨a0, a1, a2, a3⟩, ⟨b0, b1, b2, b3⟩, ⟨c0, c1, c2, c3⟩, ⟨d0, d1, d2, d3⟩⟩ :: ofBytes rest
  | _ => []

def zero : Block :=
  ⟨⟨0, 0, 0, 0⟩, ⟨0, 0, 0, 0⟩, ⟨0, 0, 0, 0⟩, ⟨0, 0, 0, 0⟩⟩

def ofFixed (b : Fixed 16) : Block :=
  (ofBytes b.bytes).headD zero

theorem length_bytes (b : Block) : b.bytes.length = 16 := rfl

theorem length_flatMap_bytes (bs : List Block) :
    (bs.flatMap bytes).length = 16 * bs.length := by
  induction bs with
  | nil => rfl
  | cons b bs ih =>
      rw [List.flatMap_cons, List.length_append, ih, length_bytes, List.length_cons]
      omega

theorem length_ofBytes (b : Bytes) : (ofBytes b).length = b.length / 16 := by
  fun_induction ofBytes b with
  | case1 =>
      simp only [List.length_cons, *]
      omega
  | case2 b h =>
      rw [List.length_nil]
      symm
      apply Nat.div_eq_of_lt
      apply Nat.lt_of_not_le
      intro hb
      match b, hb with
      | _ :: _ :: _ :: _ :: _ :: _ :: _ :: _ :: _ :: _ :: _ :: _ :: _ :: _ :: _ :: _ :: _, _ =>
          exact h _ _ _ _ _ _ _ _ _ _ _ _ _ _ _ _ _ rfl

theorem shiftRows_unshiftRows (b : Block) : b.unshiftRows.shiftRows = b := rfl

theorem unshiftRows_shiftRows (b : Block) : b.shiftRows.unshiftRows = b := rfl

end Block

end DeviceAuth.Aes
