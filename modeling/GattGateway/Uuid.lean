import GattGateway.Json.Value
import GattGateway.Text.Blank
import GattGateway.Text.Hex

/-!
# Attribute identifiers

A stack names attributes by 16-bit or 128-bit identifiers. Everything else uses one canonical
form, the 128-bit one, written as 32 lowercase digits.
-/
namespace GattGateway

open Text

/-- An identifier as the stack reports it, long ones most significant byte first. -/
inductive Uuid
  | short (n : UInt16)
  | long (bytes : Vector UInt8 16)
  deriving DecidableEq, Repr

/-- The 128-bit form. -/
structure CanonicalUuid where
  bytes : Vector UInt8 16
  deriving DecidableEq, Repr

/-- Every 16-bit identifier stands for a 128-bit one that ends in these bytes. -/
def baseTail : List UInt8 :=
  [0x00, 0x00, 0x10, 0x00, 0x80, 0x00, 0x00, 0x80, 0x5F, 0x9B, 0x34, 0xFB]

def Uuid.canonical : Uuid → CanonicalUuid
  | .short n => ⟨⟨([(0 : UInt8), 0, (n >>> 8).toUInt8, n.toUInt8] ++ baseTail).toArray, rfl⟩⟩
  | .long bytes => ⟨bytes⟩

namespace CanonicalUuid

def ofList? (bs : List UInt8) : Option CanonicalUuid :=
  if h : bs.length = 16 then some ⟨⟨bs.toArray, by simpa using h⟩⟩ else none

def text (u : CanonicalUuid) : String := hexText u.bytes.toList

/-- Drops one leading mark of a number in base sixteen. -/
def dropMark : List Char → List Char
  | '0' :: 'x' :: cs => cs
  | '0' :: 'X' :: cs => cs
  | cs => cs

/-- Reads either form. The short one is four characters that are a number in base sixteen; in
the long one dashes may stand anywhere. -/
def parse? (s : String) : Option CanonicalUuid :=
  let body := dropMark (trimBlank s.toList)
  if body.length = 4 then
    (hexNumber? body).map fun n => (Uuid.short (UInt16.ofNat n)).canonical
  else (bytesOfHex? (body.filter (· ≠ '-'))).bind ofList?

def toJson (u : CanonicalUuid) : Json.Value := .text u.text

end CanonicalUuid

end GattGateway
