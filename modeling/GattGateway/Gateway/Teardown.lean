import GattGateway.Gateway.Segment

/-!
# Closing a session

The workers are told to stop, one after the other, and each is awaited for a while. Then the
connection is closed and the radio switched off, unless it scans.
-/
namespace GattGateway.Teardown

inductive Stage
  | stopping (w : Worker) (deadline : Instant)
  | hangingUp (connection : Connection)
  | poweringDown
  deriving DecidableEq, Repr

namespace Stage

def call? : Stage → Option Call
  | .stopping _ _ => none
  | .hangingUp connection => some (.hangUp connection)
  | .poweringDown => some .powerOff

def deadline? : Stage → Option Instant
  | .stopping _ deadline => some deadline
  | _ => none

/-- The awaited worker has stopped. -/
def signalled (g : Gateway) : Stage → Bool
  | .stopping w _ => (g.slot w).stopped
  | _ => false

end Stage

/-- The first worker from a given one on that forwards. -/
def nextForwarding? (g : Gateway) (first : Nat) : Option Worker :=
  Gateway.workers.find? fun w => first ≤ w.val && (g.slot w).isForwarding

def release (g : Gateway) : Segment Stage Unit :=
  let g := { g with peerLink := .disconnected }
  if !g.scanning && g.powered then .wait g .poweringDown else .finish g ()

def hangUp (g : Gateway) : Segment Stage Unit :=
  match g.session with
  | some s =>
    .wait { g with session := none, peerLink := .disconnecting } (.hangingUp s.connection)
  | none => release g

/-- Stops the workers from a given one on. -/
def stopFrom (m : Moment) (g : Gateway) (first : Nat) : Segment Stage Unit :=
  match nextForwarding? g first with
  | some w =>
    .wait (g.setSlot w { g.slot w with cancelled := true })
      (.stopping w (m.now + m.timing.teardownTimeout))
  | none => hangUp g

def begin (m : Moment) (g : Gateway) : Segment Stage Unit := stopFrom m g 0

def resume (m : Moment) (g : Gateway) : Stage → Wake → Segment Stage Unit
  | .stopping w _, .signal =>
    stopFrom m (g.setSlot w { g.slot w with stopped := false }) (w.val + 1)
  | .stopping w _, .timeout =>
    stopFrom m (g.setSlot w { g.slot w with state := .draining }) (w.val + 1)
  | .hangingUp _, .reply _ => release g
  | .poweringDown, .reply r =>
    match r.radio with
    | .ok _ => .finish { g with powered := false } ()
    | .error _ => .finish g ()
  | stage, _ => .wait g stage

end GattGateway.Teardown
