import GattGateway.Advert.Structure
import GattGateway.Limits
import GattGateway.Text.Hex

/-!
# What a payload says of its device

The last readable name, the first distinct services, and the last manufacturer data.
-/
namespace GattGateway.Advert

open Text (Bytes)

structure Manufacturer where
  company : UInt16
  data : String
  deriving DecidableEq, Repr

structure Fields where
  name : String := ""
  services : List UInt16 := []
  manufacturer : Option Manufacturer := none
  deriving DecidableEq, Repr

/-- Two-byte numbers; an odd last byte is left out. -/
def words : Bytes → List UInt16
  | low :: high :: rest => word low high :: words rest
  | _ => []

/-- A name of whole characters that fits. -/
def fittingName (s : String) : String := String.ofList (Text.fitting maxNameBytes s.toList)

def addService (known : List UInt16) (s : UInt16) : List UInt16 :=
  if s ∈ known ∨ maxServices ≤ known.length then known else known ++ [s]

def Manufacturer.ofPayload (company : UInt16) (payload : Bytes) : Manufacturer :=
  ⟨company, Text.hexText (payload.take (maxManufacturerDigits / 2))⟩

namespace Fields

/-- A name that is no UTF-8 changes nothing. -/
def rename (f : Fields) (value : Bytes) : Fields :=
  match Text.ofUtf8? value with
  | some s => { f with name := fittingName s }
  | none => f

def add (f : Fields) : Structure → Fields
  | .completeName value => f.rename value
  | .shortenedName value => f.rename value
  | .services value => { f with services := (words value).foldl addService f.services }
  | .manufacturer company payload =>
    { f with manufacturer := some (.ofPayload company payload) }
  | .unknown _ _ => f

def ofPayload (payload : Bytes) : Fields := (structures payload).foldl add {}

end Fields

end GattGateway.Advert
