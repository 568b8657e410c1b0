import DeviceAuth.Base32
import DeviceAuth.Base64
import DeviceAuth.Crc16
import DeviceAuth.Failure

namespace DeviceAuth

structure ActivationCode where
  payload : Fixed 10
  signature : Option Bytes
  deriving DecidableEq

-- A code as its holder hands it on, who may have changed any part of it.
structure OfferedCode where
  text : String
  signature : Option Bytes
  deriving DecidableEq

namespace ActivationCode

def grouped : List Char → List Char
  | a :: b :: c :: d :: e :: f :: rest => a :: b :: c :: d :: e :: '-' :: grouped (f :: rest)
  | rest => rest

def codeChars (payload : Fixed 10) : List Char :=
  grouped (Base32.encode (Crc16.append payload.bytes))

def text (c : ActivationCode) : String :=
  String.ofList (codeChars c.payload)

def offered (c : ActivationCode) : OfferedCode where
  text := c.text
  signature := c.signature

def shortId (c : ActivationCode) : String :=
  String.ofList ((codeChars c.payload).take 11)

def password (c : ActivationCode) : String :=
  String.ofList ((codeChars c.payload).drop 12)

def isHyphenPlace (i : Nat) : Bool :=
  i % 6 == 5

def shaped (cs : List Char) : Bool :=
  cs.length == 23 &&
    cs.zipIdx.all fun (c, i) => if isHyphenPlace i then c == '-' else Base32.isDigit c

def readPayload (cs : List Char) : Except Failure (Fixed 10) :=
  if shaped cs then
    match Base32.decode? (cs.filter (· != '-')) with
    | none => .error (.format .base32)
    | some decoded =>
        match Crc16.valid decoded, Fixed.ofBytes? 10 (decoded.take 10) with
        | true, some p => .ok p
        | _, _ => .error .checksum
  else .error (.format .codeShape)

def readSignature (cs : List Char) : Except FormatFault Bytes :=
  if cs.isEmpty then .error .emptyCodeSignature
  else
    match Base64.ofChars? cs with
    | some b => .ok b
    | none => .error .base64

def ofChars (cs : List Char) : Except Failure ActivationCode := do
  match cs.dropWhile (· != '#') with
  | [] => return ⟨← readPayload cs, none⟩
  | _ :: rest =>
      let signature ← (readSignature rest).mapError .format
      return ⟨← readPayload (cs.takeWhile (· != '#')), some signature⟩

def parse (s : String) : Except Failure ActivationCode :=
  ofChars s.toList

def unmarked : List Char → List Char
  | 'R' :: ':' :: rest => rest
  | cs => cs

def parseRecovery (s : String) : Except Failure ActivationCode :=
  let cs := unmarked s.toList
  if cs.contains '#' then .error (.format .signedRecoveryCode) else ofChars cs

def corrected? (c : Char) : Option Char :=
  let d :=
    if c = '0' then 'O'
    else if c = '1' then 'I'
    else c.toUpper
  if Base32.isDigit d then some d else none

end ActivationCode

structure Recovery where
  code : String
  puk : String
  deriving DecidableEq, Repr

namespace Recovery

def isEmpty (r : Recovery) : Bool :=
  r.code.isEmpty && r.puk.isEmpty

def validCode (s : String) : Bool :=
  (ActivationCode.parseRecovery s).isOk

def validPuk (s : String) : Bool :=
  s.toList.length == 10 && s.toList.all fun c => '0' ≤ c && c ≤ '9'

def check (r : Recovery) : Except Failure Unit :=
  if r.isEmpty then .ok ()
  else if !validCode r.code then .error (.format .recoveryCode)
  else if !validPuk r.puk then .error (.format .recoveryPuk)
  else .ok ()

end Recovery

end DeviceAuth
