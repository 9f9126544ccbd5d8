import GattGateway.Text.Utf8

/-!
# Advertising structures

A payload is a row of structures: a length, a type and a value of one byte less than the length
says. A zero length or a length without a type ends the row. A value that is cut short is decoded
from the bytes that are there.
-/
namespace GattGateway.Advert

open Text (Bytes)

inductive Structure
  | completeName (value : Bytes)
  | shortenedName (value : Bytes)
  | services (value : Bytes)
  | manufacturer (company : UInt16) (payload : Bytes)
  | unknown (type : UInt8) (value : Bytes)
  deriving DecidableEq, Repr

/-- A number of two bytes, the low one first. -/
def word (low high : UInt8) : UInt16 := UInt16.ofNat (low.toNat + 256 * high.toNat)

namespace Structure

/-- Manufacturer data is a company identifier and at least one byte. -/
def decode (type : UInt8) (value : Bytes) : Structure :=
  if type = 0x09 then .completeName value
  else if type = 0x08 then .shortenedName value
  else if type = 0x02 ∨ type = 0x03 then .services value
  else if type = 0xFF then
    match value with
    | low :: high :: b :: rest => .manufacturer (word low high) (b :: rest)
    | _ => .unknown type value
  else .unknown type value

end Structure

/-- The structures of a payload, in order. -/
def structures : Bytes → List Structure
  | [] => []
  | [_] => []
  | len :: type :: rest =>
    if len = 0 then []
    else
      Structure.decode type (rest.take (len.toNat - 1)) :: structures (rest.drop (len.toNat - 1))
  termination_by bs => bs.length
  decreasing_by simp only [List.length_drop, List.length_cons]; omega

end GattGateway.Advert
