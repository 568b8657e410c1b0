import DeviceAuth.Hmac

namespace DeviceAuth.Pbkdf2

def rounds (password : Hmac.Prepared) : Nat → Key → Key → Key
  | 0, _, sum => sum
  | n + 1, u, sum =>
      let next := password.mac u.bytes
      rounds password n next (sum.xor next)

def stretch (password salt : Bytes) (iterations : Nat) : Key :=
  let prepared := Hmac.prepare password
  let first := prepared.mac (salt ++ Bytes.bigEndian 4 1)
  rounds prepared (iterations - 1) first first

end DeviceAuth.Pbkdf2
