import GattGateway.Gateway.Dial
import GattGateway.Gateway.Greeting
import GattGateway.Gateway.Sweep
import GattGateway.Gateway.Teardown

/-!
# Errands

One operation of the gateway on its own, outside its two loops.
-/
namespace GattGateway.Errand

open Text (Bytes)

inductive Task
  | greet
  | scan
  | connect (peer : Peer)
  | disconnect
  | read (uuid : CanonicalUuid)
  | write (uuid : CanonicalUuid) (data : Bytes)
  deriving DecidableEq, Repr

inductive Yield
  | nothing
  | devices (ds : List Device)
  | descriptors (ds : List Descriptor)
  | value (bytes : Bytes)
  deriving DecidableEq, Repr

inductive Stage
  | starting (task : Task)
  | greeting (s : Greeting.Stage)
  | sweeping (s : Sweep.Stage)
  | dialling (s : Dial.Stage)
  | clearing (s : Teardown.Stage)
  | reading (connection : Connection) (handle : Handle)
  | writing (connection : Connection) (handle : Handle) (data : Bytes)
  deriving Repr

namespace Stage

def call? (s : Setup) : Stage → Option Call
  | .starting _ => none
  | .greeting stage => stage.call?
  | .sweeping stage => stage.call? s
  | .dialling stage => stage.call?
  | .clearing stage => stage.call?
  | .reading connection handle => some (.read connection handle)
  | .writing connection handle data => some (.write connection handle data)

def deadline? : Stage → Option Instant
  | .sweeping s => s.deadline?
  | .dialling s => s.deadline?
  | .clearing s => s.deadline?
  | _ => none

def signalled (g : Gateway) : Stage → Bool
  | .starting _ => true
  | .clearing s => s.signalled g
  | _ => false

def hear (r : Report) : Stage → Stage
  | .sweeping s => .sweeping (s.hear r)
  | s => s

end Stage

abbrev Result := Except Fault Yield

abbrev Step := Segment Stage Result

def greet (s : Segment Greeting.Stage Greeting.Result) : Step :=
  s.andThen .greeting fun g r => .finish g (r.map fun _ => .nothing)

def sweep (s : Segment Sweep.Stage Sweep.Result) : Step :=
  s.andThen .sweeping fun g r => .finish g (r.map .devices)

def dial (s : Segment Dial.Stage Dial.Result) : Step :=
  s.andThen .dialling fun g r => .finish g (r.map .descriptors)

def clear (s : Segment Teardown.Stage Unit) : Step :=
  s.andThen .clearing fun g _ => .finish g (.ok .nothing)

def start (m : Moment) (g : Gateway) : Task → Step
  | .greet => greet (Greeting.begin m g)
  | .scan => sweep (Sweep.begin m g)
  | .connect peer => dial (Dial.begin m g peer)
  | .disconnect => clear (Teardown.begin m g)
  | .read uuid =>
    match g.lookup? uuid with
    | some (connection, e) => .wait g (.reading connection e.handle)
    | none => .finish g (.ok (.value []))
  | .write uuid data =>
    match g.lookup? uuid with
    | some (connection, e) => .wait g (.writing connection e.handle data)
    | none => .finish g (.ok .nothing)

def resume (m : Moment) (g : Gateway) : Stage → Wake → Step
  | .starting task, .signal => start m g task
  | .greeting s, w => greet (Greeting.resume m g s w)
  | .sweeping s, w => sweep (Sweep.resume m g s w)
  | .dialling s, w => dial (Dial.resume m g s w)
  | .clearing s, w => clear (Teardown.resume m g s w)
  | .reading _ _, .reply r =>
    match r.received with
    | .ok value => .finish g (.ok (.value value))
    | .error e => .finish g (.error (.radio e))
  | .writing _ _ _, .reply r =>
    match r.radio with
    | .ok _ => .finish g (.ok .nothing)
    | .error e => .finish g (.error (.radio e))
  | stage, _ => .wait g stage

end GattGateway.Errand
