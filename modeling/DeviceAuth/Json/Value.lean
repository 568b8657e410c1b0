namespace DeviceAuth.Json

inductive Value where
  | null
  | bool (b : Bool)
  | number (text : List Char)
  | string (content : Option String)
  | array (items : List Value)
  | object (fields : List (Option String × Value))

abbrev Rest := List Char

def skipBlank (cs : Rest) : Rest :=
  cs.dropWhile fun c => c == ' ' || c == '\t' || c == '\n' || c == '\r'

def isDigit (c : Char) : Bool :=
  '0' ≤ c && c ≤ '9'

def hexValue? (c : Char) : Option Nat :=
  if isDigit c then some (c.toNat - 48)
  else if 'a' ≤ c ∧ c ≤ 'f' then some (c.toNat - 87)
  else if 'A' ≤ c ∧ c ≤ 'F' then some (c.toNat - 55)
  else none

inductive Piece where
  | char (c : Char)
  | unit (n : Nat)

def simpleEscape? : Char → Option Char
  | '"' => some '"'
  | '\\' => some '\\'
  | '/' => some '/'
  | 'b' => some '\x08'
  | 'f' => some '\x0c'
  | 'n' => some '\n'
  | 'r' => some '\r'
  | 't' => some '\t'
  | _ => none

def pieces? : Rest → Option (List Piece × Rest)
  | '"' :: rest => some ([], rest)
  | '\\' :: 'u' :: a :: b :: c :: d :: rest => do
      let n := (← hexValue? a) * 4096 + (← hexValue? b) * 256 + (← hexValue? c) * 16 + (← hexValue? d)
      let (ps, rest) ← pieces? rest
      return (.unit n :: ps, rest)
  | '\\' :: c :: rest => do
      let c ← simpleEscape? c
      let (ps, rest) ← pieces? rest
      return (.char c :: ps, rest)
  | c :: rest =>
      if c.toNat < 32 then none
      else do
        let (ps, rest) ← pieces? rest
        return (.char c :: ps, rest)
  | [] => none

def isHigh (n : Nat) : Bool :=
  0xd800 ≤ n && n < 0xdc00

def isLow (n : Nat) : Bool :=
  0xdc00 ≤ n && n < 0xe000

-- Surrogates count only in pairs, the high one first.
def assemble? : List Piece → Option (List Char)
  | [] => some []
  | .char c :: ps => (assemble? ps).map (c :: ·)
  | .unit high :: .unit low :: ps =>
      if isHigh high then
        if isLow low then
          (assemble? ps).map (Char.ofNat (0x10000 + (high - 0xd800) * 1024 + (low - 0xdc00)) :: ·)
        else none
      else if isLow high then none
      else (assemble? (.unit low :: ps)).map (Char.ofNat high :: ·)
  | .unit n :: ps =>
      if isHigh n || isLow n then none else (assemble? ps).map (Char.ofNat n :: ·)

def string? (cs : Rest) : Option (Option String × Rest) :=
  (pieces? cs).map fun (ps, rest) => ((assemble? ps).map String.ofList, rest)

def digits? (cs : Rest) : Option (List Char × Rest) :=
  if (cs.takeWhile isDigit).isEmpty then none
  else some (cs.takeWhile isDigit, cs.dropWhile isDigit)

def integer? : Rest → Option (List Char × Rest)
  | '0' :: rest => some (['0'], rest)
  | cs => digits? cs

def fraction? : Rest → Option (List Char × Rest)
  | '.' :: rest => (digits? rest).map fun (ds, rest) => ('.' :: ds, rest)
  | cs => some ([], cs)

def signs : Rest → List Char × Rest
  | '+' :: rest => (['+'], rest)
  | '-' :: rest => (['-'], rest)
  | cs => ([], cs)

def exponent? : Rest → Option (List Char × Rest)
  | c :: rest =>
      if c = 'e' ∨ c = 'E' then
        let (sign, rest) := signs rest
        (digits? rest).map fun (ds, rest) => (c :: sign ++ ds, rest)
      else some ([], c :: rest)
  | [] => some ([], [])

def unsigned? (cs : Rest) : Option (List Char × Rest) := do
  let (whole, rest) ← integer? cs
  let (part, rest) ← fraction? rest
  let (power, rest) ← exponent? rest
  return (whole ++ part ++ power, rest)

def number? : Rest → Option (List Char × Rest)
  | '-' :: rest => (unsigned? rest).map fun (text, rest) => ('-' :: text, rest)
  | cs => unsigned? cs

mutual

-- The value at the front. The fuel bounds the number of values and commas that are read.
def value? : Nat → Rest → Option (Value × Rest)
  | 0, _ => none
  | fuel + 1, cs =>
      match skipBlank cs with
      | 'n' :: 'u' :: 'l' :: 'l' :: rest => some (.null, rest)
      | 't' :: 'r' :: 'u' :: 'e' :: rest => some (.bool true, rest)
      | 'f' :: 'a' :: 'l' :: 's' :: 'e' :: rest => some (.bool false, rest)
      | '"' :: rest => (string? rest).map fun (s, rest) => (.string s, rest)
      | '[' :: rest =>
          match skipBlank rest with
          | ']' :: rest => some (.array [], rest)
          | rest => (items? fuel rest).map fun (vs, rest) => (.array vs, rest)
      | '{' :: rest =>
          match skipBlank rest with
          | '}' :: rest => some (.object [], rest)
          | rest => (fields? fuel rest).map fun (fs, rest) => (.object fs, rest)
      | rest => (number? rest).map fun (text, rest) => (.number text, rest)

def items? : Nat → Rest → Option (List Value × Rest)
  | 0, _ => none
  | fuel + 1, cs => do
      let (v, rest) ← value? fuel cs
      match skipBlank rest with
      | ',' :: rest =>
          let (vs, rest) ← items? fuel rest
          return (v :: vs, rest)
      | ']' :: rest => return ([v], rest)
      | _ => none

def fields? : Nat → Rest → Option (List (Option String × Value) × Rest)
  | 0, _ => none
  | fuel + 1, cs => do
      match skipBlank cs with
      | '"' :: rest =>
          let (key, rest) ← string? rest
          match skipBlank rest with
          | ':' :: rest =>
              let (v, rest) ← value? fuel rest
              match skipBlank rest with
              | ',' :: rest =>
                  let (fs, rest) ← fields? fuel rest
                  return ((key, v) :: fs, rest)
              | '}' :: rest => return ([(key, v)], rest)
              | _ => none
          | _ => none
      | _ => none

end

def parse? (s : String) : Option Value := do
  let cs := s.toList
  let (v, rest) ← value? (2 * cs.length + 1) cs
  if (skipBlank rest).isEmpty then some v else none

end DeviceAuth.Json
