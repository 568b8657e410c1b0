import DeviceAuth.Text

namespace DeviceAuth.Text

def replacement : Char := '\uFFFD'

def isContinuation (b : UInt8) : Bool :=
  0x80 ≤ b && b ≤ 0xbf

-- The second bytes that may follow a lead byte; overlong forms, surrogates and numbers beyond the
-- last character are out.
def isSecond (lead b : UInt8) : Bool :=
  if lead = 0xe0 then 0xa0 ≤ b && b ≤ 0xbf
  else if lead = 0xed then 0x80 ≤ b && b ≤ 0x9f
  else if lead = 0xf0 then 0x90 ≤ b && b ≤ 0xbf
  else if lead = 0xf4 then 0x80 ≤ b && b ≤ 0x8f
  else isContinuation b

def low (b : UInt8) : Nat :=
  b.toNat % 64

def decodeStep (lead : UInt8) (rest : Bytes) : Char × Nat :=
  if lead < 0x80 then (Char.ofNat lead.toNat, 0)
  else if 0xc2 ≤ lead ∧ lead ≤ 0xdf then
    match rest with
    | b :: _ => if isSecond lead b then (Char.ofNat (lead.toNat % 32 * 64 + low b), 1) else (replacement, 0)
    | [] => (replacement, 0)
  else if 0xe0 ≤ lead ∧ lead ≤ 0xef then
    match rest with
    | b :: tail =>
        if isSecond lead b then
          match tail with
          | c :: _ =>
              if isContinuation c then
                (Char.ofNat (lead.toNat % 16 * 4096 + low b * 64 + low c), 2)
              else (replacement, 1)
          | [] => (replacement, 1)
        else (replacement, 0)
    | [] => (replacement, 0)
  else if 0xf0 ≤ lead ∧ lead ≤ 0xf4 then
    match rest with
    | b :: tail =>
        if isSecond lead b then
          match tail with
          | c :: tail =>
              if isContinuation c then
                match tail with
                | d :: _ =>
                    if isContinuation d then
                      (Char.ofNat (lead.toNat % 8 * 262144 + low b * 4096 + low c * 64 + low d), 3)
                    else (replacement, 2)
                | [] => (replacement, 2)
              else (replacement, 1)
          | [] => (replacement, 1)
        else (replacement, 0)
    | [] => (replacement, 0)
  else (replacement, 0)

def lossyChars : Bytes → List Char
  | [] => []
  | lead :: rest =>
      let (c, taken) := decodeStep lead rest
      c :: lossyChars (rest.drop taken)
termination_by b => b.length
decreasing_by
  simp only [List.length_drop, List.length_cons]
  omega

def lossy (b : Bytes) : String :=
  String.ofList (lossyChars b)

end DeviceAuth.Text
