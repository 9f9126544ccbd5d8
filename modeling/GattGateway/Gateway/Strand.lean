import GattGateway.Gateway.Autoscan
import GattGateway.Gateway.Errand
import GattGateway.Gateway.Forwarding
import GattGateway.Gateway.Serving
import GattGateway.Gateway.Startup

/-!
# Strands

Everything that runs beside each other on one gateway. A gateway that runs first brings itself up
and then goes on scanning, serving commands and forwarding, in this order.
-/
namespace GattGateway

inductive Strand
  | startup (s : Startup.Stage)
  | autoscan (s : Autoscan.Stage)
  | serving (s : Serving.Stage)
  | worker (w : Worker) (outlet : Forwarding.Outlet) (s : Forwarding.Stage)
  | errand (number : Nat) (s : Errand.Stage)
  deriving Repr

namespace Strand

/-- How a strand comes to its end. -/
inductive Ending
  | up
  | errand (number : Nat) (result : Errand.Result)
  deriving Repr

def workers (outlet : Forwarding.Outlet) : List Strand :=
  Gateway.workers.map fun w => .worker w outlet .idle

/-- What a gateway goes on with once it is up. -/
def running : List Strand :=
  .autoscan .deciding :: .serving .receiving :: workers .broker

/-- What follows an ending. -/
def Ending.successors : Ending → List Strand
  | .up => running
  | .errand _ _ => []

/-- The call that a strand waits for. -/
def call? (setup : Setup) : Strand → Option Call
  | .startup s => s.call?
  | .autoscan s => s.call? setup
  | .serving s => s.call?
  | .worker _ _ s => s.call?
  | .errand _ s => s.call? setup

/-- The instant until which a strand waits. -/
def deadline? : Strand → Option Instant
  | .startup s => s.deadline?
  | .autoscan s => s.deadline?
  | .serving s => s.deadline?
  | .worker _ _ s => s.deadline?
  | .errand _ s => s.deadline?

/-- The signal that a strand waits for has been given. -/
def signalled (g : Gateway) : Strand → Bool
  | .startup s => s.signalled
  | .autoscan s => s.signalled
  | .serving s => s.signalled g
  | .worker w _ s => s.signalled g w
  | .errand _ s => s.signalled g

/-- A report that comes in while a strand scans. -/
def hear (r : Report) : Strand → Strand
  | .autoscan s => .autoscan (s.hear r)
  | .errand n s => .errand n (s.hear r)
  | s => s

/-- The segment that a strand runs when it wakes. -/
def resume (m : Moment) (g : Gateway) (wake : Wake) : Strand → Segment Strand Ending
  | .startup s => (Startup.resume m g s wake).andThen .startup fun g _ => .finish g .up
  | .autoscan s => (Autoscan.resume m g s wake).andThen .autoscan fun _ r => nomatch r
  | .serving s => (Serving.resume m g s wake).andThen .serving fun _ r => nomatch r
  | .worker w outlet s =>
    (Forwarding.resume m g w outlet s wake).andThen (.worker w outlet) fun _ r => nomatch r
  | .errand n s =>
    (Errand.resume m g s wake).andThen (.errand n) fun g r => .finish g (.errand n r)

end Strand

end GattGateway
