import GattGateway.Bench.World
import GattGateway.Event
import GattGateway.Gateway.Errand

/-!
# The journal

One line for each event, for each call when it begins or fails, and for each errand that ends.
-/
namespace GattGateway

open Text (decimal hexText)

/-- Words with a space between any two. -/
def spaced (ws : List String) : String := " ".intercalate ws

def truth (b : Bool) : String := if b then "true" else "false"

def RadioFault.toJson : RadioFault → Json.Value
  | .stack code => .object [("raw", .number code.toNat)]
  | e => .text e.name

namespace Bench

def Failure.toJson : Failure → Json.Value
  | .radio e => e.toJson
  | .link e => .text e.name

end Bench

def Event.line : Event → String
  | .scanStarted => "event ScanStarted"
  | .scanComplete n => spaced ["event ScanComplete", decimal n]
  | .connected a n => spaced ["event Connected", a.text, decimal n]
  | .disconnected => "event Disconnected"
  | .notification u v => spaced ["event Notification", u.text, hexText v]
  | .readValue u v => spaced ["event ReadValue", u.text, hexText v]
  | .error message => spaced ["event Error", message]

/-- What a call is made with. -/
def Call.arguments : Call → List String
  | .scan p => [decimal p.interval, decimal p.window, truth p.active]
  | .dial peer => [peer.address.text, decimal peer.kind.toByte.toNat]
  | .discover c => [decimal c]
  | .read c h => [decimal c, decimal h]
  | .write c h data => [decimal c, decimal h, hexText data]
  | .enablePush c h indicate => [decimal c, decimal h, truth indicate]
  | .awaitPush c h => [decimal c, decimal h]
  | .hangUp c => [decimal c]
  | .publish m => [m.delivery.name, truth m.retain, hexText m.payload, m.topic.text]
  | .subscribe t => [Delivery.name .atMostOnce, t.text]
  | .handOver u v => [u.text, hexText v]
  | _ => []

def Call.line (c : Call) : String := spaced (c.name :: c.arguments)

namespace Bench

def failureLine (c : Call) (f : Failure) : String := spaced [c.name, "failed", f.toJson.toText]

end Bench

def Errand.Yield.text : Errand.Yield → String
  | .nothing => ""
  | .devices ds => (devicesToJson ds).toText
  | .descriptors ds => (Json.Value.list (ds.map Descriptor.toJson)).toText
  | .value v => hexText v

namespace Bench

def errandLine (number : Nat) : Errand.Result → String
  | .ok y => spaced ["done", decimal number, "ok", y.text]
  | .error e => spaced ["done", decimal number, "err", e.name]

end Bench

end GattGateway
