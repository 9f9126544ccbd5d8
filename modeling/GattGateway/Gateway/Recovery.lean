import GattGateway.Gateway.Segment

/-!
# Recovery of the broker link

Using the radio can knock the broker link over, so every use is followed by a bounded wait for it.
A link that is up but not ready has never been lost; one that is up and ready has been greeted
anew.
-/
namespace GattGateway.Recovery

inductive Outcome
  | greeted
  | kept
  | lost
  deriving DecidableEq, Repr

structure Stage where
  pollsLeft : Nat
  deadline : Instant
  deriving DecidableEq, Repr

def poll (m : Moment) (g : Gateway) : Nat → Segment Stage Outcome
  | 0 => .finish g .lost
  | n + 1 =>
    if m.online then
      if g.ready then .finish g .greeted
      else .finish { g with ready := true } .kept
    else .wait g ⟨n, m.now + m.timing.recoveryPoll⟩

def begin (m : Moment) (g : Gateway) : Segment Stage Outcome := poll m g m.timing.recoveryPolls

def resume (m : Moment) (g : Gateway) : Stage → Wake → Segment Stage Outcome
  | stage, .timeout => poll m g stage.pollsLeft
  | stage, _ => .wait g stage

end GattGateway.Recovery
