import GattGateway.Text.Utf8

/-!
# Records read from JSON

A reader for one JSON object with known members. It keeps texts as they stand between their
quotes, escapes included, and steps over the values of unknown members with rules of its own:
strings, objects and arrays are followed, anything else ends at the next delimiter.
-/
namespace GattGateway.Json

open Text (Bytes)

def quote : UInt8 := 0x22
def backslash : UInt8 := 0x5C
def comma : UInt8 := 0x2C
def colon : UInt8 := 0x3A
def openBrace : UInt8 := 0x7B
def closeBrace : UInt8 := 0x7D
def openBracket : UInt8 := 0x5B
def closeBracket : UInt8 := 0x5D

def isSpace (b : UInt8) : Bool := b == 0x20 || b == 0x0A || b == 0x09 || b == 0x0D

def isDelimiter (b : UInt8) : Bool := b == comma || b == closeBrace || b == closeBracket

def isDigit (b : UInt8) : Bool := 0x30 ≤ b && b ≤ 0x39

/-- What a known member must hold. -/
inductive Shape
  | text
  | optionalText
  | number (limit : Nat)
  deriving DecidableEq, Repr

/-- What a known member held. -/
inductive Scalar
  | absent
  | text (s : String)
  | number (n : Nat)
  deriving DecidableEq, Repr

/-- The next byte that is no space, and what follows it. -/
def next? (bs : Bytes) : Option (UInt8 × Bytes) :=
  match bs.dropWhile isSpace with
  | [] => none
  | b :: rest => some (b, rest)

/-- The bytes up to the closing quote, and what follows it. `escaped` says that an odd number of
backslashes has just gone by. -/
def spanText : Bool → Bytes → Option (Bytes × Bytes)
  | _, [] => none
  | escaped, b :: bs =>
    if b = quote ∧ escaped = false then some ([], bs)
    else (spanText (b == backslash && !escaped) bs).map fun p => (b :: p.1, p.2)

/-- A text whose opening quote has been read. -/
def readText (bs : Bytes) : Option (String × Bytes) := do
  let (inner, rest) ← spanText false bs
  let s ← Text.ofUtf8? inner
  return (s, rest)

/-- Zero, or digits without a leading zero, up to the limit. -/
def readNumber (limit : Nat) (bs : Bytes) : Option (Nat × Bytes) := do
  let (b, rest) ← next? bs
  if b = 0x30 then return (0, rest)
  else if isDigit b then
    let digits := b :: rest.takeWhile isDigit
    let n := digits.foldl (fun n d => 10 * n + (d.toNat - 0x30)) 0
    if n ≤ limit then return (n, rest.dropWhile isDigit) else none
  else none

def Shape.read : Shape → Bytes → Option (Scalar × Bytes)
  | .text, bs => do
    let (b, rest) ← next? bs
    if b = quote then
      let (s, rest) ← readText rest
      return (.text s, rest)
    else none
  | .optionalText, bs => do
    let (b, rest) ← next? bs
    if b = quote then
      let (s, rest) ← readText rest
      return (.text s, rest)
    else match b :: rest with
      | 0x6E :: 0x75 :: 0x6C :: 0x6C :: rest => return (.absent, rest)
      | _ => none
  | .number limit, bs => do
    let (n, rest) ← readNumber limit bs
    return (.number n, rest)

/-- Everything up to the next delimiter, which must come. -/
def skipBare (bs : Bytes) : Option Bytes :=
  match bs.dropWhile (! isDelimiter ·) with
  | [] => none
  | b :: rest => some (b :: rest)

mutual

/-- Steps over one value. -/
def skipValue : Nat → Bytes → Option Bytes
  | 0, _ => none
  | fuel + 1, bs => do
    let (b, rest) ← next? bs
    if b = quote then
      let (_, rest) ← readText rest
      return rest
    else if b = openBrace then
      let (_, rest) ← readMembers (fun _ => none) fuel true rest
      return rest
    else if b = openBracket then skipItems fuel true rest
    else if isDelimiter b then none
    else skipBare rest

/-- Steps over the rest of an array. A first item may follow a comma. -/
def skipItems : Nat → Bool → Bytes → Option Bytes
  | 0, _, _ => none
  | fuel + 1, first, bs => do
    let (b, rest) ← next? bs
    if b = closeBracket then return rest
    else if b = comma then
      let (c, rest) ← next? rest
      if c = closeBracket then none
      else
        let rest ← skipValue fuel (c :: rest)
        skipItems fuel first rest
    else if first then
      let rest ← skipValue fuel (b :: rest)
      skipItems fuel false rest
    else none

/-- The known members up to the closing brace, in order. -/
def readMembers (fields : String → Option Shape) :
    Nat → Bool → Bytes → Option (List (String × Scalar) × Bytes)
  | 0, _, _ => none
  | fuel + 1, first, bs => do
    let (b, rest) ← next? bs
    if b = closeBrace then return ([], rest)
    let (c, rest) ← if first then some (b, rest) else if b = comma then next? rest else none
    if c ≠ quote then none
    let (key, rest) ← readText rest
    let (d, rest) ← next? rest
    if d ≠ colon then none
    match fields key with
    | some shape =>
      let (v, rest) ← shape.read rest
      let (ms, rest) ← readMembers fields fuel false rest
      return ((key, v) :: ms, rest)
    | none =>
      let rest ← skipValue fuel rest
      readMembers fields fuel false rest

end

/-- The known members of the one object that the bytes hold. A known member given twice is
refused, and so is anything but spaces after the object. -/
def readRecord? (fields : String → Option Shape) (bs : Bytes) : Option (List (String × Scalar)) := do
  let (b, rest) ← next? bs
  if b ≠ openBrace then none
  let (ms, rest) ← readMembers fields (2 * bs.length + 1) true rest
  if rest.all isSpace ∧ (ms.map Prod.fst).Nodup then return ms else none

/-- The text of a member. -/
def textOf? (ms : List (String × Scalar)) (key : String) : Option String :=
  match ms.lookup key with
  | some (.text s) => some s
  | _ => none

def numberOf? (ms : List (String × Scalar)) (key : String) : Option Nat :=
  match ms.lookup key with
  | some (.number n) => some n
  | _ => none

end GattGateway.Json
