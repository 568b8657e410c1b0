import DeviceAuth.ActivationCode
import DeviceAuth.Framing
import DeviceAuth.Text

namespace DeviceAuth.Activation

structure Request where
  code : Option String
  deviceKey : Bytes
  deriving DecidableEq

structure Response where
  activationId : String
  serverKey : Bytes
  counterSeed : Option Key
  signature : Bytes
  recovery : Option Recovery
  deriving DecidableEq

def textOf (what : String) (b : Bytes) : Except FormatFault String :=
  match Text.ofUtf8? b with
  | some s => .ok s
  | none => .error (.notUtf8 what)

namespace Request

def encode (r : Request) : Bytes :=
  Framing.join [Text.utf8 (r.code.getD ""), r.deviceKey]

def decode (b : Bytes) : Except FormatFault Request := do
  match ← Framing.split b with
  | [code, deviceKey] =>
      if code.isEmpty then return ⟨none, deviceKey⟩
      return ⟨some (← textOf "Activation code" code), deviceKey⟩
  | parts => throw (.componentCount "2" parts.length)

end Request

namespace Response

def seedBytes (r : Response) : Bytes :=
  match r.counterSeed with
  | some seed => seed.bytes
  | none => []

def signedParts (r : Response) : List Bytes :=
  [Text.utf8 r.activationId, r.serverKey, r.seedBytes]

def signedData (r : Response) : Bytes :=
  Framing.join r.signedParts

def recoveryParts (r : Response) : List Bytes :=
  match r.recovery with
  | some recovery => [Text.utf8 recovery.code, Text.utf8 recovery.puk]
  | none => []

def encode (r : Response) : Bytes :=
  Framing.join (r.signedParts ++ [r.signature] ++ r.recoveryParts)

def seed (b : Bytes) : Except FormatFault (Option Key) :=
  if b.isEmpty then .ok none
  else
    match Fixed.ofBytes? 32 b with
    | some k => .ok (some k)
    | none => .error (.size "Counter data" 32 b.length)

def ofParts (activationId serverKey counterSeed signature : Bytes) (recovery : Option Recovery) :
    Except FormatFault Response := do
  let activationId ← textOf "Activation ID" activationId
  if activationId.isEmpty then throw .emptyActivationId
  let counterSeed ← seed counterSeed
  return { activationId, serverKey, counterSeed, signature, recovery }

-- The recovery data of a response are read before its activation, the second part first.
def decode (b : Bytes) : Except FormatFault Response := do
  match ← Framing.split b with
  | [activationId, serverKey, counterSeed, signature] =>
      ofParts activationId serverKey counterSeed signature none
  | [activationId, serverKey, counterSeed, signature, code, puk] =>
      let puk ← textOf "Recovery PUK" puk
      let code ← textOf "Recovery code" code
      ofParts activationId serverKey counterSeed signature (some ⟨code, puk⟩)
  | parts => throw (.componentCount "4 or 6" parts.length)

end Response

end DeviceAuth.Activation
