import GattGateway.Text.Decimal
import GattGateway.Text.Hex

/-!
# JSON values and their printed form

Values are printed without spaces, members in the order given. In a text only the quote, the
backslash and the control characters are escaped.
-/
namespace GattGateway.Json

inductive Value
  | text (s : String)
  | number (n : Int)
  | list (items : List Value)
  | object (members : List (String × Value))
  deriving Repr

/-- One character inside quotes. -/
def escapeChar (c : Char) : List Char :=
  if c = '"' then ['\\', '"']
  else if c = '\\' then ['\\', '\\']
  else if c = '\x08' then ['\\', 'b']
  else if c = '\t' then ['\\', 't']
  else if c = '\n' then ['\\', 'n']
  else if c = '\x0c' then ['\\', 'f']
  else if c = '\r' then ['\\', 'r']
  else if c.toNat < 0x20 then
    ['\\', 'u', '0', '0', Text.hexDigit .upper (c.toNat / 16),
      Text.hexDigit .upper (c.toNat % 16)]
  else [c]

def quoted (s : String) : List Char := '"' :: s.toList.flatMap escapeChar ++ ['"']

/-- Decimal digits, after a minus sign for negative numbers. -/
def decimal (n : Int) : List Char :=
  if n < 0 then '-' :: Text.decimalDigits n.natAbs else Text.decimalDigits n.natAbs

mutual

def Value.render : Value → List Char
  | .text s => quoted s
  | .number n => decimal n
  | .list [] => ['[', ']']
  | .list (v :: vs) => '[' :: v.render ++ renderItems vs ++ [']']
  | .object [] => ['\x7b', '\x7d']
  | .object ((k, v) :: ms) =>
    '\x7b' :: quoted k ++ ':' :: v.render ++ renderMembers ms ++ ['\x7d']

/-- The items after the first, each behind a comma. -/
def renderItems : List Value → List Char
  | [] => []
  | v :: vs => ',' :: v.render ++ renderItems vs

def renderMembers : List (String × Value) → List Char
  | [] => []
  | (k, v) :: ms => ',' :: quoted k ++ ':' :: v.render ++ renderMembers ms

end

def Value.toText (v : Value) : String := String.ofList v.render

/-- The printed form, if it has no more bytes than there is room for. -/
def Value.textWithin? (v : Value) (room : Nat) : Option String :=
  if v.toText.utf8ByteSize ≤ room then some v.toText else none

end GattGateway.Json
