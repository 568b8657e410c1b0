import DeviceAuth.Base64
import DeviceAuth.Counter
import DeviceAuth.Framing
import DeviceAuth.Hmac

namespace DeviceAuth

structure FactorKeys where
  possession : Option Key := none
  knowledge : Option Key := none
  biometry : Option Key := none
  deriving DecidableEq

namespace FactorKeys

def get (ks : FactorKeys) : Factor → Option Key
  | .possession => ks.possession
  | .knowledge => ks.knowledge
  | .biometry => ks.biometry

def find (ks : FactorKeys) (f : Factor) : Except Failure Key :=
  match ks.get f with
  | some k => .ok k
  | none => .error (.input (.missingFactorKey f))

end FactorKeys

namespace FactorSet

def check (fs : FactorSet) : Except Failure Unit :=
  if fs.allowed then .ok () else .error (.input (.factorCombination fs))

end FactorSet

namespace FactorSignature

def decimalValue (mac : Key) : Nat :=
  Bytes.ofBigEndian (mac.bytes.drop 28) % 0x80000000 % 100000000

def decimal (mac : Key) : String :=
  String.ofList (List.leftpad 8 '0' (Nat.toDigits 10 (decimalValue mac)))

def code : Version → Key → String
  | .v2, mac => decimal mac
  | .v3, mac => Base64.encode mac.bytes

def input (counter : Counter) (data : Bytes) : Bytes :=
  Framing.join [counter.data, data]

def factorCode (keys : FactorKeys) (counter : Counter) (data : Bytes) (f : Factor) :
    Except Failure String := do
  let key ← keys.find f
  return code counter.version (hmac key.bytes (input counter data))

def compute (factors : FactorSet) (keys : FactorKeys) (counter : Counter) (data : Bytes) :
    Except Failure String := do
  factors.check
  let codes ← factors.toList.mapM (factorCode keys counter data)
  return "-".intercalate codes

def verify (factors : FactorSet) (keys : FactorKeys) (data : Bytes) (signature : String) :
    Nat → Counter → Except Failure Counter
  | lookahead, counter => do
      let expected ← compute factors keys counter data
      if expected = signature then return counter.next
      match lookahead with
      | 0 => throw .counterOutOfSync
      | n + 1 => verify factors keys data signature n counter.next

end FactorSignature

end DeviceAuth
