import GattGateway.Bench.Schedule

/-!
# Scripts

A script is a list of steps on a bench. After each step everything runs that can run, and the
state of the gateway is recorded.
-/
namespace GattGateway.Bench

open Text (Bytes)

inductive Step
  | advance (ms : Duration)
  | run
  | workers
  | message (topic : String) (payload : Bytes)
  | behave (name : String) (behaviour : Behaviour)
  | online (value : Bool)
  | scanEnds (value : Bool)
  | offer (characteristics : List Characteristic)
  | advertise (adverts : List Advert)
  | value (handle : Handle) (data : Bytes)
  | push (handle : Handle) (data : Bytes)
  | dropLink
  | forward (uuid : CanonicalUuid)
  | errand (task : Errand.Task)
  deriving DecidableEq, Repr

/-- What is recorded after a step. -/
structure Record where
  now : Instant
  result : Option Bool
  lines : List String
  gateway : Gateway
  deriving Repr

def withWorld (b : Bench) (f : World → World) : Bench := { b with world := f b.world }

/-- The effect of a step, and its result if it has one. -/
def act (b : Bench) : Step → Bench × Option Bool
  | .advance ms => (b.advance ms, none)
  | .run => (b.spawn [.startup .starting], none)
  | .workers => (b.spawn (Strand.workers .receiver), none)
  | .message topic payload =>
    match b.gateway.inbox.accept? topic payload with
    | some inbox => ({ b with gateway := { b.gateway with inbox } }, some true)
    | none => (b, some false)
  | .behave name behaviour =>
    (b.withWorld fun w =>
      { w with behaviours := (name, behaviour) :: w.behaviours.filter (·.1 ≠ name) }, none)
  | .online value => (b.withWorld fun w => { w with online := value }, none)
  | .scanEnds value => (b.withWorld fun w => { w with scanEnds := value }, none)
  | .offer cs => (b.withWorld fun w => { w with offered := cs }, none)
  | .advertise adverts => (b.withWorld fun w => { w with adverts }, none)
  | .value handle data =>
    (b.withWorld fun w => { w with values := (handle, data) :: w.values }, none)
  | .push handle data =>
    (b.withWorld fun w => { w with pushed := w.pushed ++ [(handle, data)] }, none)
  | .dropLink => (b.withWorld fun w => { w with connection := none }, none)
  | .forward uuid =>
    match b.gateway.forward? uuid with
    | some gateway => ({ b with gateway }, some true)
    | none => (b, some false)
  | .errand task =>
    ({ b with errands := b.errands + 1 }.spawn [.errand b.errands (.starting task)], none)

def step (b : Bench) (s : Step) : Bench × Record :=
  let (b, result) := { b with journal := [] }.act s
  let b := b.settle
  (b, { now := b.now, result, lines := b.journal.reverse, gateway := b.gateway })

def run : Bench → List Step → List Record
  | _, [] => []
  | b, s :: ss =>
    let (b, r) := b.step s
    r :: run b ss

end GattGateway.Bench
