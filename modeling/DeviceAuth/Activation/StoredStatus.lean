import DeviceAuth.Activation.RecordCodec

namespace DeviceAuth.Activation

inductive StoredStatus where
  | empty
  | activated (record : Record)
  | removed
  deriving DecidableEq

namespace StoredStatus

def magic : Bytes :=
  [0x50, 0x41]

def formatVersion : UInt8 := 1

def emptyFlags : UInt8 := 0

def activatedFlags : UInt8 := 2

def removedFlags : UInt8 := 4

def flags : StoredStatus → UInt8
  | .empty => emptyFlags
  | .activated _ => activatedFlags
  | .removed => removedFlags

def body : StoredStatus → Bytes
  | .activated r => Record.codec.write r
  | _ => []

def content (s : StoredStatus) : Bytes :=
  magic ++ [formatVersion, s.flags] ++ s.body

def encode (s : StoredStatus) : Bytes :=
  s.content ++ (sha256 s.content).bytes

def ofBody (flags : UInt8) (body : Bytes) : Except Failure StoredStatus :=
  if flags = emptyFlags ∧ body = [] then .ok .empty
  else if flags = removedFlags ∧ body = [] then .ok .removed
  else if flags = activatedFlags then do
    let r ← Record.codec.decode body
    if r.complete then return .activated r
    throw (.corrupted .incomplete)
  else .error (.corrupted (.flags flags))

-- Length and digest are judged before the content, and the content from its front.
def decode (blob : Bytes) : Except Failure StoredStatus :=
  let content := blob.take (blob.length - 32)
  if blob.length < 36 then .error (.corrupted .blobLength)
  else if (sha256 content).bytes ≠ blob.drop (blob.length - 32) then .error (.corrupted .digest)
  else
    match content with
    | m0 :: m1 :: format :: flags :: body =>
        if [m0, m1] ≠ magic then .error (.corrupted .magic)
        else if format ≠ formatVersion then .error (.corrupted (.formatVersion format))
        else ofBody flags body
    | _ => .error (.corrupted .blobLength)

end StoredStatus

end DeviceAuth.Activation
