namespace DeviceAuth.P256

def prime : Nat :=
  0xffffffff00000001000000000000000000000000ffffffffffffffffffffffff

def order : Nat :=
  0xffffffff00000000ffffffffffffffffbce6faada7179e84f3b9cac2fc632551

abbrev Field := Fin prime

abbrev Scalar := Fin order

def Field.ofNat (n : Nat) : Field :=
  ⟨n % prime, Nat.mod_lt n (by decide)⟩

def Scalar.ofNat (n : Nat) : Scalar :=
  ⟨n % order, Nat.mod_lt n (by decide)⟩

instance (n : Nat) : OfNat Field n :=
  ⟨Field.ofNat n⟩

def bits (n : Nat) : List Bool :=
  (List.range 256).map fun i => n.testBit (255 - i)

def byBits {α : Type} (twice : α → α) (plus : α → α) (start : α) (n : Nat) : α :=
  (bits n).foldl (fun a b => if b then plus (twice a) else twice a) start

def power {n : Nat} (x : Fin n) (e : Nat) : Fin n :=
  byBits (fun a => a * a) (fun a => a * x) ⟨1 % n, Nat.mod_lt 1 x.pos⟩ e

def inverse {n : Nat} (x : Fin n) : Fin n :=
  power x (n - 2)

-- A root of the squares: the prime is 3 modulo 4.
def squareRoot? (x : Field) : Option Field :=
  let y := power x ((prime + 1) / 4)
  if y * y = x then some y else none

end DeviceAuth.P256
