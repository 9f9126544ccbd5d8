import GattGateway.Uuid

/-!
# Characteristics

What a peer offers: identifiers, property bits and handles.
-/
namespace GattGateway

inductive Property
  | read
  | writeWithoutResponse
  | write
  | notify
  | indicate
  deriving DecidableEq, Repr

namespace Property

def mask : Property → UInt8
  | .read => 0x02
  | .writeWithoutResponse => 0x04
  | .write => 0x08
  | .notify => 0x10
  | .indicate => 0x20

def name : Property → String
  | .read => "read"
  | .writeWithoutResponse => "write-without-response"
  | .write => "write"
  | .notify => "notify"
  | .indicate => "indicate"

/-- All properties in the order in which they are reported. -/
def reported : List Property := [.read, .write, .notify, .writeWithoutResponse, .indicate]

end Property

structure Properties where
  bits : UInt8
  deriving DecidableEq, Repr

namespace Properties

def has (ps : Properties) (p : Property) : Bool := ps.bits &&& p.mask != 0

/-- The peer can send values on its own. -/
def pushes (ps : Properties) : Bool := ps.has .notify || ps.has .indicate

def names (ps : Properties) : List String := (Property.reported.filter ps.has).map Property.name

def toJson (ps : Properties) : Json.Value := .list (ps.names.map .text)

end Properties

/-- The stack's name for a characteristic of the connected peer. -/
abbrev Handle := Nat

/-- A characteristic as discovery finds it. -/
structure Characteristic where
  uuid : Uuid
  properties : Properties
  handle : Handle
  deriving DecidableEq, Repr

/-- A characteristic as it is announced. -/
structure Descriptor where
  uuid : CanonicalUuid
  properties : Properties
  deriving DecidableEq, Repr

def Characteristic.descriptor (c : Characteristic) : Descriptor := ⟨c.uuid.canonical, c.properties⟩

def Descriptor.toJson (d : Descriptor) : Json.Value :=
  .object [("uuid", d.uuid.toJson), ("properties", d.properties.toJson)]

end GattGateway
