import GattGateway.Gateway.State

/-!
# Segments

Everything the gateway does is cut into segments, the code between two waits. A segment sees one
moment, changes the gateway, tells events, and ends with the next stage to wait in or with a
result. What wakes a stage is a signal, the reply to its call, or its deadline.
-/
namespace GattGateway

/-- What does not change while a gateway runs. -/
structure Setup where
  timing : Timing
  topics : Topics
  deriving DecidableEq, Repr

/-- What a segment can see of the world around the gateway. -/
structure Moment extends Setup where
  now : Instant
  /-- The link to the broker is up. -/
  online : Bool
  /-- The connections that have not been lost. -/
  alive : Connection → Bool

inductive Wake
  | signal
  | reply (r : Reply)
  | timeout
  deriving DecidableEq, Repr

inductive Turn (σ ρ : Type)
  | wait (stage : σ)
  | finish (result : ρ)
  deriving DecidableEq, Repr

structure Segment (σ ρ : Type) where
  gateway : Gateway
  turn : Turn σ ρ
  events : List Event := []
  deriving DecidableEq, Repr

namespace Segment

variable {σ ρ τ π : Type}

def wait (g : Gateway) (stage : σ) : Segment σ ρ := { gateway := g, turn := .wait stage }

def finish (g : Gateway) (result : ρ) : Segment σ ρ := { gateway := g, turn := .finish result }

/-- Tells an event before anything else. -/
def telling (e : Event) (s : Segment σ ρ) : Segment σ ρ := { s with events := e :: s.events }

/-- A segment of a routine inside a longer one, which goes on with its result. -/
def andThen (s : Segment σ ρ) (lift : σ → τ) (next : Gateway → ρ → Segment τ π) : Segment τ π :=
  match s.turn with
  | .wait stage => { gateway := s.gateway, turn := .wait (lift stage), events := s.events }
  | .finish result =>
    let rest := next s.gateway result
    { rest with events := s.events ++ rest.events }

end Segment

end GattGateway
