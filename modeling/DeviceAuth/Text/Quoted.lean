import DeviceAuth.ActivationCode
import DeviceAuth.Setup
import DeviceAuth.Text.Shown

namespace DeviceAuth.Text

def hexadecimal (n : Nat) : String :=
  String.ofList (Nat.toDigits 16 n)

def quoteChar (c : Char) : String :=
  if c = '\x00' then "\\0"
  else if c = '\t' then "\\t"
  else if c = '\n' then "\\n"
  else if c = '\r' then "\\r"
  else if c = '"' then "\\\""
  else if c = '\\' then "\\\\"
  else if isShown c then c.toString
  else "\\u\x7b" ++ hexadecimal c.toNat ++ "\x7d"

def quote (s : String) : String :=
  "\"" ++ String.join (s.toList.map quoteChar) ++ "\""

def fieldsText (name : String) (fields : List (String × String)) (more : Bool) : String :=
  let shown := fields.map fun f => f.1 ++ ": " ++ f.2
  name ++ " \x7b " ++ ", ".intercalate (if more then shown ++ [".."] else shown) ++ " \x7d"

end DeviceAuth.Text

namespace DeviceAuth

def Recovery.description (r : Recovery) : String :=
  Text.fieldsText "RecoveryData" [("recovery_code", Text.quote r.code), ("puk", Text.quote "***")]
    false

def Setup.description (s : Setup) : String :=
  Text.fieldsText "SessionSetup" [
    ("application_key", Text.quote s.applicationKey),
    ("instance_id", Text.quote s.instanceId),
    ("has_external_encryption_key", if s.externalKey.isSome then "true" else "false")] true

end DeviceAuth
