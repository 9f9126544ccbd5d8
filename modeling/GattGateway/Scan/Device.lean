import GattGateway.Advert.Fields
import GattGateway.Keyed
import GattGateway.Scan.Report

/-!
# Devices seen in one scan window

All reports of one address make one device. Devices that neither name themselves nor carry
manufacturer data are left out.
-/
namespace GattGateway

structure Device where
  address : Address
  name : String
  rssi : Int8
  services : List UInt16
  kind : AddressKind
  company : Option UInt16
  manufacturerData : Option String
  deriving DecidableEq, Repr

namespace Device

def ofReport (r : Report) : Device :=
  let f := Advert.Fields.ofPayload r.payload
  { address := r.address
    name := f.name
    rssi := r.rssi
    services := f.services
    kind := r.kind
    company := f.manufacturer.map (·.company)
    manufacturerData := f.manufacturer.map (·.data) }

/-- A later sighting can raise the signal strength and fill in a missing name or missing
manufacturer data. -/
def merge (d later : Device) : Device :=
  let d := if d.rssi < later.rssi then { d with rssi := later.rssi } else d
  let d := if d.name = "" ∧ later.name ≠ "" then { d with name := later.name } else d
  if d.manufacturerData = none ∧ later.manufacturerData ≠ none then
    { d with company := later.company, manufacturerData := later.manufacturerData }
  else d

/-- A device that can be told from others of its kind. -/
def hasIdentity (d : Device) : Bool := d.name != "" || d.manufacturerData.isSome

def serviceText (s : UInt16) : String := String.ofList (Text.hexWord s)

/-- Manufacturer members appear only where there is something to show. -/
def toJson (d : Device) : Json.Value :=
  .object (
    [("address", d.address.toJson),
      ("name", .text d.name),
      ("rssi", .number d.rssi.toInt),
      ("services", .list (d.services.map fun s => .text (serviceText s))),
      ("addr_type", d.kind.toJson)]
    ++ (d.company.map fun c => ("manufacturer_id", Json.Value.number c.toNat)).toList
    ++ (d.manufacturerData.map fun t => ("manufacturer_data", Json.Value.text t)).toList)

end Device

/-- One device for each address, in the order of first sightings. -/
def mergeSightings (rs : List Report) : List Device :=
  (rs.map Device.ofReport).foldl (upsert Device.address Device.merge) []

/-- The devices worth reporting. -/
def devicesOf (rs : List Report) : List Device := (mergeSightings rs).filter Device.hasIdentity

def devicesToJson (ds : List Device) : Json.Value := .list (ds.map Device.toJson)

/-- The longest JSON text of one device: names and quotes of all members, an address of 17
characters, a name whose bytes all need six characters, and every number at its longest. -/
def maxEncodedDevice : Nat :=
  "\x7b\"address\":\"".length + 17
    + "\",\"name\":\"".length + 6 * maxNameBytes
    + "\",\"rssi\":".length + "-128".length
    + ",\"services\":[".length + maxServices * "\"ffff\",".length + "]".length
    + ",\"addr_type\":".length + "255".length
    + ",\"manufacturer_id\":".length + "65535".length
    + ",\"manufacturer_data\":\"".length + maxManufacturerDigits + "\"\x7d".length

/-- Bytes of the JSON text of all devices of one scan window. -/
def maxScanBytes : Nat := 2 + maxReports * (maxEncodedDevice + 1)

end GattGateway
