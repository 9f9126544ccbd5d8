import GattGateway.Gateway.Greeting

/-!
# Startup

The broker is connected and greeted, again and again until both succeed.
-/
namespace GattGateway.Startup

inductive Stage
  | starting
  | joining
  | greeting (s : Greeting.Stage)
  | resting (deadline : Instant)
  deriving DecidableEq, Repr

namespace Stage

def call? : Stage → Option Call
  | .joining => some .openLink
  | .greeting s => s.call?
  | _ => none

def deadline? : Stage → Option Instant
  | .resting deadline => some deadline
  | _ => none

def signalled : Stage → Bool
  | .starting => true
  | _ => false

end Stage

def rest (m : Moment) (g : Gateway) : Segment Stage Unit :=
  .wait g (.resting (m.now + m.timing.linkRetry))

def settle (m : Moment) (s : Segment Greeting.Stage Greeting.Result) : Segment Stage Unit :=
  s.andThen .greeting fun g result =>
    match result with
    | .ok _ => .finish g ()
    | .error _ => rest m g

def resume (m : Moment) (g : Gateway) : Stage → Wake → Segment Stage Unit
  | .starting, .signal => .wait g .joining
  | .joining, .reply r =>
    match r.link with
    | .ok _ => settle m (Greeting.begin m g)
    | .error _ => rest m g
  | .greeting s, w => settle m (Greeting.resume m g s w)
  | .resting _, .timeout => .wait g .joining
  | stage, _ => .wait g stage

end GattGateway.Startup
