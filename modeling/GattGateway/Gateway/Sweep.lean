import GattGateway.Gateway.Segment
import GattGateway.Scan.Device

/-!
# One scan of the surroundings

The radio is switched on, reports are collected until the scan window closes, and the radio is
switched off again, whatever happened. Faults of stopping and of switching off change nothing.
-/
namespace GattGateway.Sweep

inductive Stage
  | poweringUp
  | listening (deadline : Instant) (heard : Collector)
  | stopping (heard : Except RadioFault Collector)
  | poweringDown (heard : Except RadioFault Collector)
  deriving Repr

abbrev Result := Except Fault (List Device)

namespace Stage

def call? (s : Setup) : Stage → Option Call
  | .poweringUp => some .powerOn
  | .listening _ _ => some (.scan s.timing.scan.parameters)
  | .stopping _ => some .stopScan
  | .poweringDown _ => some .powerOff

def deadline? : Stage → Option Instant
  | .listening deadline _ => some deadline
  | _ => none

/-- A report that comes in while the window is open. -/
def hear (r : Report) : Stage → Stage
  | .listening deadline heard => .listening deadline (heard.add r)
  | s => s

end Stage

def result (heard : Except RadioFault Collector) : Result :=
  match heard with
  | .ok c => .ok (devicesOf c.reports)
  | .error e => .error (.scanFailure e)

/-- Gives the radio up. -/
def close (g : Gateway) (heard : Except RadioFault Collector) : Segment Stage Result :=
  let g := { g with scanning := false }
  if g.powered then .wait g (.poweringDown heard) else .finish g (result heard)

def listen (m : Moment) (g : Gateway) : Segment Stage Result :=
  .wait g (.listening (m.now + (m.timing.scan.duration + m.timing.scan.grace))
    (.empty m.timing.scan.maxEntries))

def begin (m : Moment) (g : Gateway) : Segment Stage Result :=
  if g.radioInUse then .finish g (.error .busy)
  else
    let g := { g with scanning := true }
    if g.powered then listen m g else .wait g .poweringUp

def resume (m : Moment) (g : Gateway) : Stage → Wake → Segment Stage Result
  | .poweringUp, .reply r =>
    match r.radio with
    | .ok _ => listen m { g with powered := true }
    | .error e => close g (.error e)
  | .listening _ heard, .reply r => .wait g (.stopping (r.radio.map fun _ => heard))
  | .listening _ heard, .timeout => .wait g (.stopping (.ok heard))
  | .stopping heard, .reply _ => close g heard
  | .poweringDown heard, .reply r =>
    match r.radio with
    | .ok _ => .finish { g with powered := false } (result heard)
    | .error _ => .finish g (result heard)
  | stage, _ => .wait g stage

end GattGateway.Sweep
