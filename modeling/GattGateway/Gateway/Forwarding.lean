import GattGateway.Gateway.Segment

/-!
# Workers that forward notifications

A worker waits for a subscription, asks the peer to push values, and forwards every value that is
not empty. It comes to an end when it is cancelled, when a call of the radio fails or when the
connection is lost, and is then free for the next subscription.
-/
namespace GattGateway.Forwarding

open Text (Bytes)

/-- Where values go: to the broker, or to another receiver. -/
inductive Outlet
  | broker
  | receiver
  deriving DecidableEq, Repr

inductive Stage
  | idle
  | enabling (sub : Subscription)
  | awaiting (sub : Subscription) (deadline : Instant)
  | delivering (sub : Subscription) (value : Bytes) (call : Call)
  deriving DecidableEq, Repr

namespace Stage

def call? : Stage → Option Call
  | .idle => none
  | .enabling sub => some (.enablePush sub.connection sub.handle sub.indicate)
  | .awaiting sub _ => some (.awaitPush sub.connection sub.handle)
  | .delivering _ _ call => some call

def deadline? : Stage → Option Instant
  | .awaiting _ deadline => some deadline
  | _ => none

/-- A subscription has come, or the word to stop. -/
def signalled (g : Gateway) (w : Worker) : Stage → Bool
  | .idle => (g.slot w).assigned.isSome
  | .enabling _ => (g.slot w).cancelled
  | .awaiting _ _ => (g.slot w).cancelled
  | .delivering _ _ _ => false

end Stage

abbrev Step := Segment Stage Empty

def release (g : Gateway) (w : Worker) : Step := .wait (g.setSlot w (g.slot w).release) .idle

/-- Takes the word to stop. -/
def stop (g : Gateway) (w : Worker) : Step :=
  release (g.setSlot w { g.slot w with cancelled := false }) w

/-- Waits for the next value as long as the connection lasts. -/
def serve (m : Moment) (g : Gateway) (w : Worker) (sub : Subscription) : Step :=
  if m.alive sub.connection then .wait g (.awaiting sub (m.now + m.timing.notifyWait))
  else release g w

def deliver (m : Moment) (g : Gateway) (w : Worker) (sub : Subscription) (value : Bytes) :
    Outlet → Step
  | .broker =>
    .telling (.notification sub.uuid value)
      (match m.topics.topic (.notification sub.uuid) with
      | .ok topic => .wait g (.delivering sub value (.publish { topic, payload := value }))
      | .error _ => serve m g w sub)
  | .receiver => .wait g (.delivering sub value (.handOver sub.uuid value))

def resume (m : Moment) (g : Gateway) (w : Worker) (outlet : Outlet) : Stage → Wake → Step
  | .idle, .signal =>
    match (g.slot w).assigned with
    | some sub => .wait (g.setSlot w { g.slot w with assigned := none }) (.enabling sub)
    | none => .wait g .idle
  | .enabling _, .signal => stop g w
  | .enabling sub, .reply r =>
    match r.radio with
    | .ok _ => serve m g w sub
    | .error _ => release g w
  | .awaiting _ _, .signal => stop g w
  | .awaiting sub _, .timeout => serve m g w sub
  | .awaiting sub _, .reply r =>
    match r.received with
    | .ok [] => serve m g w sub
    | .ok value => deliver m g w sub value outlet
    | .error _ => release g w
  | .delivering sub _ _, .reply _ => serve m g w sub
  | stage, _ => .wait g stage

end GattGateway.Forwarding
