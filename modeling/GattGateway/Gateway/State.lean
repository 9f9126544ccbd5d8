import GattGateway.Call
import GattGateway.Event
import GattGateway.Inbox
import GattGateway.Keyed

/-!
# The state of a gateway

One radio, at most one session with a peer, a pool of workers that forward notifications, and the
flags by which scan cycles and commands keep out of each other's way.
-/
namespace GattGateway

inductive PeerLink
  | disconnected
  | connecting
  | connected
  | disconnecting
  deriving DecidableEq, Repr

def PeerLink.name : PeerLink → String
  | .disconnected => "Disconnected"
  | .connecting => "Connecting"
  | .connected => "Connected"
  | .disconnecting => "Disconnecting"

/-- A characteristic that a session can reach. -/
structure TableEntry where
  uuid : CanonicalUuid
  handle : Handle
  properties : Properties
  deriving DecidableEq, Repr

def TableEntry.ofCharacteristic (c : Characteristic) : TableEntry :=
  ⟨c.uuid.canonical, c.handle, c.properties⟩

structure Session where
  connection : Connection
  table : List TableEntry
  deriving DecidableEq, Repr

namespace Session

/-- Of characteristics with one identifier the last is reached. -/
def ofDiscovery (connection : Connection) (cs : List Characteristic) : Session :=
  ⟨connection,
    (cs.map TableEntry.ofCharacteristic).foldl (upsert TableEntry.uuid fun _ new => new) []⟩

def find? (s : Session) (uuid : CanonicalUuid) : Option TableEntry :=
  s.table.find? (·.uuid = uuid)

end Session

/-- What a worker is to forward. -/
structure Subscription where
  connection : Connection
  handle : Handle
  uuid : CanonicalUuid
  indicate : Bool
  deriving DecidableEq, Repr

inductive SlotState
  | idle
  | forwarding (uuid : CanonicalUuid)
  /-- Cancelled, but its worker has not come to an end in time; not to be used again until it has. -/
  | draining
  deriving DecidableEq, Repr

/-- The place of one worker: its state, the subscription handed to it, and the two signals by which
it is told to stop and tells that it has. -/
structure Slot where
  state : SlotState := .idle
  assigned : Option Subscription := none
  cancelled : Bool := false
  stopped : Bool := false
  deriving DecidableEq, Repr

namespace Slot

def isIdle (s : Slot) : Bool := s.state == .idle

def isForwarding (s : Slot) : Bool :=
  match s.state with
  | .forwarding _ => true
  | _ => false

def forwards (s : Slot) (uuid : CanonicalUuid) : Bool := s.state == .forwarding uuid

def assign (sub : Subscription) : Slot :=
  { state := .forwarding sub.uuid, assigned := some sub }

def release (s : Slot) : Slot := { s with state := .idle, stopped := true }

end Slot

abbrev Worker := Fin workerCount

structure Gateway where
  peerLink : PeerLink := .disconnected
  scanning : Bool := false
  powered : Bool := false
  session : Option Session := none
  slots : Vector Slot workerCount := Vector.replicate workerCount {}
  /-- A scan cycle or a connect sequence holds the radio. -/
  busy : Bool := false
  /-- No scan cycle may start. -/
  paused : Bool := false
  /-- The command topics are subscribed and the broker can be reached. -/
  ready : Bool := false
  lastScan : Option Instant := none
  /-- The topics of reads and writes are subscribed. -/
  valueTopics : Bool := false
  inbox : Inbox := {}
  deriving DecidableEq, Repr

namespace Gateway

def radioInUse (g : Gateway) : Bool := g.scanning || g.peerLink != .disconnected

def slot (g : Gateway) (w : Worker) : Slot := g.slots[w]

def setSlot (g : Gateway) (w : Worker) (s : Slot) : Gateway := { g with slots := g.slots.set w s }

/-- Workers assigned to a characteristic. -/
def forwardingCount (g : Gateway) : Nat := g.slots.toList.countP Slot.isForwarding

def lookup? (g : Gateway) (uuid : CanonicalUuid) : Option (Connection × TableEntry) := do
  let s ← g.session
  let e ← s.find? uuid
  return (s.connection, e)

def workers : List Worker := List.finRange workerCount

/-- Hands a characteristic to an idle worker. Nothing happens if it is unknown, if a worker
forwards it already, or if no worker is idle. -/
def forward? (g : Gateway) (uuid : CanonicalUuid) : Option Gateway :=
  match g.lookup? uuid with
  | none => none
  | some (connection, e) =>
    if workers.any fun w => (g.slot w).forwards uuid then none
    else
      match workers.find? fun w => (g.slot w).isIdle with
      | none => none
      | some w =>
        some (g.setSlot w (.assign ⟨connection, e.handle, uuid, !e.properties.has .notify⟩))

/-- Hands every characteristic that can push to a worker, as long as there are any. -/
def forwardAll (g : Gateway) (ds : List Descriptor) : Gateway :=
  ds.foldl (fun g d => if d.properties.pushes then (g.forward? d.uuid).getD g else g) g

end Gateway

end GattGateway
