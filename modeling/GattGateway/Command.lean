import GattGateway.Address
import GattGateway.Json.Record
import GattGateway.Topics

/-!
# Commands

What a client can ask for.
-/
namespace GattGateway

open Text (Bytes)

inductive Command
  | connect (peer : Peer)
  | disconnect
  | write (uuid : CanonicalUuid) (data : Bytes)
  | read (uuid : CanonicalUuid)
  deriving DecidableEq, Repr

namespace Command

/-- The members of the payload of a connect command. -/
def connectShape : String → Option Json.Shape
  | "address" => some .text
  | "addr_type" => some (.number 255)
  | _ => none

/-- The peer named by the payload of a connect command. Without a kind it is registered. -/
def peerOf (payload : Bytes) : Except Fault Peer :=
  match Json.readRecord? connectShape payload with
  | none => .error .invalidPayload
  | some ms =>
    match Json.textOf? ms "address" with
    | none => .error .invalidPayload
    | some text =>
      match Address.parse? text with
      | none => .error .invalidAddress
      | some address =>
        .ok ⟨address, .ofByte (UInt8.ofNat ((Json.numberOf? ms "addr_type").getD 0))⟩

def uuidOf (segment : String) : Except Fault CanonicalUuid :=
  match CanonicalUuid.parse? segment with
  | some uuid => .ok uuid
  | none => .error .invalidUuid

def parse (route : Route) (payload : Bytes) : Except Fault Command :=
  match route with
  | .connect => (peerOf payload).map .connect
  | .disconnect => .ok .disconnect
  | .write segment => do
    let uuid ← uuidOf segment
    if payload.length ≤ maxValueBytes then .ok (.write uuid payload) else .error .bufferOverflow
  | .read segment => (uuidOf segment).map .read

/-- The command that a message holds; none if its topic is no command of this gateway. -/
def ofMessage (topics : Topics) (topic : String) (payload : Bytes) : Except Fault (Option Command) :=
  match topics.route topic with
  | none => .ok none
  | some route => (parse route payload).map some

end Command

end GattGateway
