import GattGateway.Json.Value
import GattGateway.Text.Hex

/-!
# Device addresses

Six bytes, written as pairs of digits between colons.
-/
namespace GattGateway

open Text

structure Address where
  bytes : Vector UInt8 6
  deriving DecidableEq, Repr

namespace Address

def ofList? (bs : List UInt8) : Option Address :=
  if h : bs.length = 6 then some ⟨⟨bs.toArray, by simpa using h⟩⟩ else none

/-- Uppercase pairs between colons. -/
def digits (a : Address) : List Char := [':'].intercalate (a.bytes.toList.map (hexByte .upper))

def text (a : Address) : String := String.ofList a.digits

/-- One octet from its two characters: two digits, or a plus sign and one digit. -/
def octet? (h l : Char) : Option UInt8 := (hexNumber? [h, l]).map UInt8.ofNat

/-- Octets between colons. -/
def octets? : List Char → Option (List UInt8)
  | [h, l] => (octet? h l).map ([·])
  | h :: l :: ':' :: cs => do
    let b ← octet? h l
    let bs ← octets? cs
    return b :: bs
  | _ => none

def parse? (s : String) : Option Address := (octets? s.toList).bind ofList?

def toJson (a : Address) : Json.Value := .text a.text

end Address

/-- How a device got its address: registered for it, or drawn at random. -/
inductive AddressKind
  | registered
  | random
  deriving DecidableEq, Repr

namespace AddressKind

/-- Zero stands for a registered address, every other byte for a random one. -/
def ofByte (b : UInt8) : AddressKind := if b = 0 then .registered else .random

def toByte : AddressKind → UInt8
  | .registered => 0
  | .random => 1

def name : AddressKind → String
  | .registered => "Public"
  | .random => "Random"

def toJson (k : AddressKind) : Json.Value := .number k.toByte.toNat

theorem ofByte_toByte (k : AddressKind) : ofByte k.toByte = k := by cases k <;> rfl

end AddressKind

/-- A device that can be connected to. -/
structure Peer where
  address : Address
  kind : AddressKind
  deriving DecidableEq, Repr

end GattGateway
