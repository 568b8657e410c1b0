import DeviceAuth.Envelope
import DeviceAuth.HttpRequest
import DeviceAuth.Json.Value
import DeviceAuth.Session.Activate

namespace DeviceAuth.Json

def byte? : Value → Option UInt8
  | .number text =>
      let n := text.foldl (fun n c => 10 * n + (c.toNat - 48)) 0
      if text.all isDigit ∧ n < 256 then some (UInt8.ofNat n) else none
  | _ => none

def bytes? : Value → Option Bytes
  | .array items => items.mapM byte?
  | _ => none

def text? : Value → Option String
  | .string content => content
  | _ => none

-- The values of the named fields in order; outside nothing if a name comes twice, inside nothing
-- where it is missing.
def pick? (fields : List (String × Value)) (name : String) : Option (Option Value) :=
  match fields.filter fun f => f.1 == name with
  | [] => some none
  | [f] => some (some f.2)
  | _ => none

def named? (names : List String) : Value → Option (List (Option Value))
  | .object fields => do
      let fields ← fields.mapM fun f => f.1.map (·, f.2)
      names.mapM (pick? fields)
  | .array items => if items.length = names.length then some (items.map some) else none
  | _ => none

def optional? {α : Type} (read : Value → Option α) : Option Value → Option (Option α)
  | none | some .null => some none
  | some v => (read v).map some

def Cryptogram.ofJson? (v : Value) : Option Cryptogram := do
  match ← named? ["ephemeralPublicKey", "body", "mac", "nonce"] v with
  | [ephemeralKey, some body, some mac, some nonce] =>
      return {
        ephemeralKey := ← optional? bytes? ephemeralKey
        body := ← bytes? body
        mac := ← bytes? mac
        nonce := ← bytes? nonce }
  | _ => none

def encrypted? (v : Value) : Option Cryptogram := do
  match ← named? ["encryptedData"] v with
  | [some c] => Cryptogram.ofJson? c
  | _ => none

def Activated.ofJson? (v : Value) : Option Session.Activated := do
  match ← named? ["activationId", "activationFingerprint"] v with
  | [some id, some fingerprint] => return ⟨← text? id, ← text? fingerprint⟩
  | _ => none

def HttpSignature.ofJson? (v : Value) : Option HttpSignature := do
  match ← named? ["version", "activationId", "applicationKey", "nonce", "factor", "signature"] v with
  | [some version, some activationId, some applicationKey, some nonce, some factor,
      some signature] =>
      return {
        version := ← text? version
        activationId := ← text? activationId
        applicationKey := ← text? applicationKey
        nonce := ← text? nonce
        factor := ← text? factor
        signature := ← text? signature }
  | _ => none

def escapeChar (c : Char) : String :=
  if c = '"' then "\\\""
  else if c = '\\' then "\\\\"
  else if c = '\x08' then "\\b"
  else if c = '\t' then "\\t"
  else if c = '\n' then "\\n"
  else if c = '\x0c' then "\\f"
  else if c = '\r' then "\\r"
  else if c.toNat < 32 then "\\u00" ++ hexByte (UInt8.ofNat c.toNat)
  else c.toString

def ofText (s : String) : String :=
  "\"" ++ String.join (s.toList.map escapeChar) ++ "\""

def ofBytes (b : Bytes) : String :=
  "[" ++ ",".intercalate (b.map fun x => toString x.toNat) ++ "]"

def ofFields (fields : List (String × String)) : String :=
  "\x7b" ++ ",".intercalate (fields.map fun f => ofText f.1 ++ ":" ++ f.2) ++ "\x7d"

def ofCryptogram (c : Cryptogram) : String :=
  ofFields [
    ("ephemeralPublicKey", (c.ephemeralKey.map ofBytes).getD "null"),
    ("body", ofBytes c.body),
    ("mac", ofBytes c.mac),
    ("nonce", ofBytes c.nonce)]

def ofEncrypted (c : Cryptogram) : String :=
  ofFields [("encryptedData", ofCryptogram c)]

def ofActivated (a : Session.Activated) : String :=
  ofFields [("activationId", ofText a.activationId), ("activationFingerprint", ofText a.fingerprint)]

def ofHttpSignature (s : HttpSignature) : String :=
  ofFields [
    ("version", ofText s.version),
    ("activationId", ofText s.activationId),
    ("applicationKey", ofText s.applicationKey),
    ("nonce", ofText s.nonce),
    ("factor", ofText s.factor),
    ("signature", ofText s.signature)]

end DeviceAuth.Json
