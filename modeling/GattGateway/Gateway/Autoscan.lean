import GattGateway.Gateway.Recovery
import GattGateway.Gateway.Sweep

/-!
# Autonomous scanning

Scan cycles start on their own while the broker can be reached, nothing else holds the radio and
the last start is long enough ago. A cycle holds the radio until its outcome has been published.
-/
namespace GattGateway.Autoscan

open Text (Bytes)

inductive Stage
  | deciding
  | resting (deadline : Instant)
  | sweeping (s : Sweep.Stage)
  | recovering (found : Sweep.Result) (s : Recovery.Stage)
  | publishing (message : Message) (devices : Nat)
  | reporting (message : Message)
  deriving Repr

namespace Stage

def call? (s : Setup) : Stage → Option Call
  | .sweeping stage => stage.call? s
  | .publishing message _ => some (.publish message)
  | .reporting message => some (.publish message)
  | _ => none

def deadline? : Stage → Option Instant
  | .resting deadline => some deadline
  | .sweeping s => s.deadline?
  | .recovering _ s => some s.deadline
  | _ => none

def signalled : Stage → Bool
  | .deciding => true
  | _ => false

def hear (r : Report) : Stage → Stage
  | .sweeping s => .sweeping (s.hear r)
  | s => s

end Stage

abbrev Step := Segment Stage Empty

/-- The JSON text of all devices, if it fits. -/
def encode (ds : List Device) : Except Fault Bytes :=
  match (devicesToJson ds).textWithin? maxScanBytes with
  | some text => .ok (Text.utf8 text)
  | none => .error .bufferOverflow

/-- The message that publishes a scan cycle's devices. -/
def resultsMessage (m : Moment) (ds : List Device) : Except Fault Message := do
  let payload ← encode ds
  let topic ← m.topics.topic .scanResults
  return { topic, payload }

/-- Gives the radio up. -/
def release (g : Gateway) : Step := .wait { g with busy := false } .deciding

def report (m : Moment) (g : Gateway) (e : Fault) : Step :=
  let text := "Scan failed: " ++ e.message
  .telling (.error text)
    (match m.topics.topic .error with
    | .ok topic => .wait g (.reporting { topic, payload := Text.utf8 text })
    | .error _ => release g)

def publish (m : Moment) (g : Gateway) (found : Sweep.Result) : Step :=
  match found with
  | .error e => report m g e
  | .ok ds =>
    match resultsMessage m ds with
    | .ok message => .wait g (.publishing message ds.length)
    | .error e => report m g e

/-- After the radio has been used the broker link gets its time to recover. -/
def recover (m : Moment) (found : Sweep.Result) (s : Segment Recovery.Stage Recovery.Outcome) : Step :=
  s.andThen (.recovering found) fun g _ => publish m g found

def sweep (m : Moment) (s : Segment Sweep.Stage Sweep.Result) : Step :=
  s.andThen .sweeping fun g found => recover m found (Recovery.begin m g)

/-- Takes the radio. -/
def start (m : Moment) (g : Gateway) : Step :=
  let g := { g with busy := true, lastScan := some m.now, ready := false }
  .telling .scanStarted (sweep m (Sweep.begin m g))

/-- The last scan cycle started less than the scan interval ago. -/
def isEarly (m : Moment) (g : Gateway) : Bool :=
  match g.lastScan with
  | some last => m.now - last < m.timing.scanInterval
  | none => false

def consider (m : Moment) (g : Gateway) : Step :=
  if !(m.online && g.ready) then .wait g (.resting (m.now + m.timing.idlePoll))
  else if g.paused || g.busy then .wait g (.resting (m.now + m.timing.idlePoll))
  else if isEarly m g then .wait g (.resting (m.now + m.timing.intervalPoll))
  else start m g

def resume (m : Moment) (g : Gateway) : Stage → Wake → Step
  | .deciding, .signal => consider m g
  | .resting _, .timeout => consider m g
  | .sweeping s, w => sweep m (Sweep.resume m g s w)
  | .recovering found s, w => recover m found (Recovery.resume m g s w)
  | .publishing _ devices, .reply r =>
    match r.link with
    | .ok _ => .telling (.scanComplete devices) (release g)
    | .error e => report m g (.link e)
  | .reporting _, .reply _ => release g
  | stage, _ => .wait g stage

end GattGateway.Autoscan
