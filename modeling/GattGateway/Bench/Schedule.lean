import GattGateway.Bench.Journal
import GattGateway.Gateway.Strand

/-!
# The schedule

Strands take turns on one thread. In a round each of them runs until it can only wait; rounds
follow each other at one instant until nothing moves, and then the clock goes on to the next
deadline. A wait is looked at in a fixed order: its signal, the reply to its call, its deadline.
A deadline is not looked at in the round in which the wait begins.
-/
namespace GattGateway

/-- A strand and the wait that it is in. -/
structure Bench.Task where
  strand : Strand
  /-- How far the strand's call has got, once it has begun. -/
  progress : Option Progress := none
  /-- The wait has just begun. -/
  fresh : Bool := true
  deriving Repr

structure Bench where
  setup : Setup
  gateway : Gateway := {}
  world : Bench.World := {}
  now : Instant := 0
  tasks : List Bench.Task := []
  /-- The latest line first. -/
  journal : List String := []
  errands : Nat := 0
  deriving Repr

namespace Bench

def moment (b : Bench) : Moment :=
  { b.setup with
    now := b.now
    online := b.world.online
    alive := fun c => b.world.connection = some c }

def note (b : Bench) (line : String) : Bench :=
  { b with journal := (Text.decimal b.now ++ " " ++ line) :: b.journal }

def noteAll (b : Bench) (lines : List String) : Bench := lines.foldl note b

/-- Starts the call that a task waits for, or looks after it. Tells its reply, if there is one,
and whether the call has just begun. -/
def attend (b : Bench) (t : Task) : Bench × Task × Option Reply × Bool :=
  match t.strand.call? b.setup with
  | none => (b, t, none, false)
  | some c =>
    let (b, r) : Bench × Response :=
      match t.progress with
      | none => (b.note c.line, b.world.start b.now c)
      | some p => (b, b.world.resume b.now c p)
    let b := { b with world := r.world }
    let b := b.noteAll (r.failure.toList.map (failureLine c))
    let strand := r.heard.foldl (fun s report => s.hear report) t.strand
    match r.outcome with
    | .pending p => (b, { t with strand, progress := some p }, none, t.progress.isNone)
    | .answered reply => (b, { t with strand }, some reply, t.progress.isNone)

/-- Runs a segment. -/
def wake (b : Bench) (strand : Strand) (w : Wake) : Bench × Turn Strand Strand.Ending :=
  let s := strand.resume b.moment b.gateway w
  ({ b with gateway := s.gateway }.noteAll (s.events.map Event.line), s.turn)

/-- What a look at a task has come to. -/
inductive Polled
  | waiting (t : Task)
  | ended (e : Strand.Ending)
  deriving Repr

/-- The wake of a task that does not have to wait any longer, and else the task as it waits. -/
def look (b : Bench) (t : Task) : Bench × Task × Option Wake × Bool :=
  if t.strand.signalled b.gateway then (b, t, some .signal, true)
  else
    let (b, t, reply, begun) := b.attend t
    match reply with
    | some r => (b, t, some (.reply r), true)
    | none =>
      if !t.fresh && (t.strand.deadline?.any (· ≤ b.now)) then (b, t, some .timeout, true)
      else (b, { t with fresh := false }, none, begun)

/-- Runs one task until it can only wait, and tells whether it has moved. -/
def poll : Nat → Bench → Task → Bool → Bench × Polled × Bool
  | 0, b, t, moved => (b, .waiting t, moved)
  | fuel + 1, b, t, moved =>
    match b.look t with
    | (b, t, none, begun) => (b, .waiting t, moved || begun)
    | (b, t, some w, _) =>
      match b.wake t.strand w with
      | (b, .wait strand) => poll fuel b { strand } true
      | (b, .finish e) => (b, .ended e, true)

/-- More segments than any task runs at one instant. -/
def patience : Nat := 1000000

def noteEnding (b : Bench) : Strand.Ending → Bench
  | .up => b
  | .errand n r => b.note (errandLine n r)

/-- Polls tasks in order. What follows an ended task takes its place. -/
def pollAll : Nat → Bench → List Task → Bench × List Task × Bool
  | 0, b, ts => (b, ts, false)
  | _, b, [] => (b, [], false)
  | fuel + 1, b, t :: ts =>
    match poll patience b t false with
    | (b, .waiting t, moved) =>
      let (b, ts, more) := pollAll fuel b ts
      (b, t :: ts, moved || more)
    | (b, .ended e, _) =>
      let (b, ts, _) := pollAll fuel (b.noteEnding e) (e.successors.map ({ strand := · }) ++ ts)
      (b, ts, true)

def round (b : Bench) : Bench × Bool :=
  let (b, tasks, moved) := pollAll patience { b with tasks := [] } b.tasks
  ({ b with tasks }, moved)

/-- Rounds at one instant until nothing moves. -/
def settleWithin : Nat → Bench → Bench
  | 0, b => b
  | fuel + 1, b =>
    match b.round with
    | (b, true) => settleWithin fuel b
    | (b, false) => b

def settle (b : Bench) : Bench := settleWithin patience b

/-- The instants at which a task has to be looked at. -/
def deadlines (t : Task) : List Instant :=
  t.strand.deadline?.toList ++ (t.progress.bind Progress.deadline?).toList

/-- The next deadline that is to come, up to the target. -/
def next? (b : Bench) (target : Instant) : Option Instant :=
  ((b.tasks.flatMap deadlines).filter fun d => b.now < d && d ≤ target).min?

/-- Lets the clock go on to the target, with a stop at every deadline. -/
def advanceWithin : Nat → Bench → Instant → Bench
  | 0, b, target => { b with now := target }
  | fuel + 1, b, target =>
    match b.next? target with
    | some d => advanceWithin fuel (settle { b with now := d }) target
    | none => { b with now := target }

/-- There is at most one stop at each instant on the way. -/
def advance (b : Bench) (ms : Duration) : Bench := advanceWithin (ms + 1) b (b.now + ms)

def spawn (b : Bench) (strands : List Strand) : Bench :=
  { b with tasks := b.tasks ++ strands.map ({ strand := · }) }

end Bench

end GattGateway
