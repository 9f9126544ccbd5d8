/-!
# Hexadecimal text

Digits, bytes as two digits each, and numbers read in base sixteen.
-/
namespace GattGateway.Text

inductive LetterCase
  | lower
  | upper
  deriving DecidableEq, Repr

/-- The value of one digit, in either letter case. -/
def hexValue? (c : Char) : Option Nat :=
  if '0' ≤ c ∧ c ≤ '9' then some (c.toNat - '0'.toNat)
  else if 'a' ≤ c ∧ c ≤ 'f' then some (c.toNat - 'a'.toNat + 10)
  else if 'A' ≤ c ∧ c ≤ 'F' then some (c.toNat - 'A'.toNat + 10)
  else none

def isHexDigit (c : Char) : Bool := (hexValue? c).isSome

def LetterCase.digits : LetterCase → List Char
  | .lower => ['0', '1', '2', '3', '4', '5', '6', '7', '8', '9', 'a', 'b', 'c', 'd', 'e', 'f']
  | .upper => ['0', '1', '2', '3', '4', '5', '6', '7', '8', '9', 'A', 'B', 'C', 'D', 'E', 'F']

def hexDigit (letters : LetterCase) (n : Nat) : Char := letters.digits.getD n '0'

/-- One byte is two digits, the high half first. -/
def hexByte (letters : LetterCase) (b : UInt8) : List Char :=
  [hexDigit letters (b.toNat / 16), hexDigit letters (b.toNat % 16)]

def hexBytes (bs : List UInt8) : List Char := bs.flatMap (hexByte .lower)

/-- Bytes as lowercase digits without separators. -/
def hexText (bs : List UInt8) : String := String.ofList (hexBytes bs)

/-- A 16-bit number as its four lowercase digits. -/
def hexWord (w : UInt16) : List Char :=
  hexByte .lower (w >>> 8).toUInt8 ++ hexByte .lower w.toUInt8

/-- A run of digits as a number; the empty run is zero. -/
def hexRun? (cs : List Char) : Option Nat :=
  cs.foldlM (fun n c => (hexValue? c).map (16 * n + ·)) 0

/-- A number in base sixteen: at least one digit, after at most one plus sign. -/
def hexNumber? : List Char → Option Nat
  | [] => none
  | '+' :: [] => none
  | '+' :: cs => hexRun? cs
  | cs => hexRun? cs

/-- Pairs of digits as bytes. -/
def bytesOfHex? : List Char → Option (List UInt8)
  | [] => some []
  | [_] => none
  | h :: l :: cs => do
    let high ← hexValue? h
    let low ← hexValue? l
    let rest ← bytesOfHex? cs
    return UInt8.ofNat (16 * high + low) :: rest

theorem hexValue?_hexDigit (letters : LetterCase) {n : Nat} (h : n < 16) :
    hexValue? (hexDigit letters n) = some n := by
  have : ∀ k < 16, hexValue? (hexDigit letters k) = some k := by cases letters <;> decide
  exact this n h

theorem bytesOfHex?_hexBytes (bs : List UInt8) : bytesOfHex? (hexBytes bs) = some bs := by
  induction bs with
  | nil => rfl
  | cons b bs ih =>
    have hb : b.toNat < 256 := b.toNat_lt
    have ih' : bytesOfHex? (bs.flatMap (hexByte .lower)) = some bs := ih
    simp only [hexBytes, hexByte, List.flatMap_cons, List.cons_append, List.nil_append, bytesOfHex?,
      hexValue?_hexDigit .lower (show b.toNat / 16 < 16 by omega),
      hexValue?_hexDigit .lower (show b.toNat % 16 < 16 by omega), ih', Option.pure_def,
      Option.bind_eq_bind, Option.bind_some,
      show 16 * (b.toNat / 16) + b.toNat % 16 = b.toNat by omega, UInt8.ofNat_toNat]

theorem length_hexBytes (bs : List UInt8) : (hexBytes bs).length = 2 * bs.length := by
  induction bs with
  | nil => rfl
  | cons b bs ih =>
    have ih' : (bs.flatMap (hexByte .lower)).length = 2 * bs.length := ih
    simp only [hexBytes, hexByte, List.flatMap_cons, List.length_append, List.length_cons,
      List.length_nil, ih']
    omega

end GattGateway.Text
