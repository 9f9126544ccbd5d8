import GattGateway.Call

/-!
# A scripted world

A radio and a broker that do as they are told. Every call takes effect at once, unless a behaviour
delays it, lets it fail or never lets it return.
-/
namespace GattGateway.Bench

open Text (Bytes)

inductive Failure
  | radio (e : RadioFault)
  | link (e : LinkFault)
  deriving DecidableEq, Repr

def Failure.reply : Failure → Reply
  | .radio e => .radioFault e
  | .link e => .linkFault e

/-- What is to happen to the calls of one name. -/
structure Behaviour where
  /-- Milliseconds until the call takes effect; it never does if they are negative. -/
  delay : Int := 0
  failure : Option Failure := none
  /-- Calls to leave alone before. -/
  skip : Nat := 0
  /-- Calls that it lasts for. -/
  times : Option Nat := none
  deriving DecidableEq, Repr

/-- A report, and when it is sent after the start of a scan. -/
structure Advert where
  offset : Duration
  report : Report
  deriving DecidableEq, Repr

structure World where
  behaviours : List (String × Behaviour) := []
  offered : List Characteristic := []
  adverts : List Advert := []
  /-- A scan ends after the last report. -/
  scanEnds : Bool := false
  online : Bool := false
  /-- The connection that has not been lost. -/
  connection : Option Connection := none
  dialled : Nat := 0
  values : List (Handle × Bytes) := []
  /-- Values that the peer has pushed and nobody has taken. -/
  pushed : List (Handle × Bytes) := []
  deriving DecidableEq, Repr

end Bench

def Call.name : Call → String
  | .powerOn => "radio.on"
  | .powerOff => "radio.off"
  | .scan _ => "radio.scan"
  | .stopScan => "radio.stop_scan"
  | .dial _ => "radio.connect"
  | .discover _ => "radio.discover"
  | .read _ _ => "radio.read"
  | .write _ _ _ => "radio.write"
  | .enablePush _ _ _ => "radio.subscribe"
  | .awaitPush _ _ => "radio.notified"
  | .hangUp _ => "radio.disconnect"
  | .openLink => "transport.connect"
  | .publish _ => "transport.publish"
  | .subscribe _ => "transport.subscribe"
  | .handOver _ _ => "forward"

namespace Bench

/-- How far a call has got. -/
inductive Progress
  | delayed (deadline : Instant) (failure : Option Failure)
  | hearing (start : Instant) (rest : List Advert)
  | listening
  | never
  deriving DecidableEq, Repr

def Progress.deadline? : Progress → Option Instant
  | .delayed deadline _ => some deadline
  | .hearing start (a :: _) => some (start + a.offset)
  | _ => none

inductive Outcome
  | pending (p : Progress)
  | answered (r : Reply)
  deriving DecidableEq, Repr

/-- What comes of looking after a call: the world afterwards, the reports heard on the way, the
failure to be noted, and how far the call has got. -/
structure Response where
  world : World
  heard : List Report := []
  failure : Option Failure := none
  outcome : Outcome
  deriving DecidableEq, Repr

namespace Response

def answer (w : World) (r : Reply) : Response := { world := w, outcome := .answered r }

def pend (w : World) (p : Progress) : Response := { world := w, outcome := .pending p }

def fail (w : World) (f : Failure) : Response :=
  { world := w, failure := some f, outcome := .answered f.reply }

end Response

namespace World

/-- The behaviour of the next call of a name. -/
def draw (w : World) (name : String) : Option Behaviour × World :=
  let others := w.behaviours.filter (·.1 ≠ name)
  match w.behaviours.lookup name with
  | none => (none, w)
  | some b =>
    if 0 < b.skip then
      (none, { w with behaviours := (name, { b with skip := b.skip - 1 }) :: others })
    else
      match b.times with
      | none => (some b, w)
      | some n =>
        if n ≤ 1 then (some b, { w with behaviours := others })
        else (some b, { w with behaviours := (name, { b with times := some (n - 1) }) :: others })

/-- The reports of a scan that are due. -/
def hear (w : World) (now start : Instant) : List Advert → Response
  | [] => if w.scanEnds then .answer w .done else .pend w .never
  | a :: as =>
    if start + a.offset ≤ now then
      let r := hear w now start as
      { r with heard := a.report :: r.heard }
    else .pend w (.hearing start (a :: as))

/-- The first value that the peer has pushed, even over a lost connection. -/
def listen (w : World) (connection : Connection) (handle : Handle) : Response :=
  match w.pushed.find? (·.1 = handle) with
  | some p => .answer { w with pushed := w.pushed.erase p } (.value p.2)
  | none =>
    if w.connection = some connection then .pend w .listening
    else .answer w (.radioFault .disconnected)

def effect (w : World) (now : Instant) : Call → Response
  | .scan _ => w.hear now now w.adverts
  | .dial _ =>
    let c := w.dialled + 1
    .answer { w with dialled := c, connection := some c } (.connection c)
  | .discover _ => .answer w (.characteristics w.offered)
  | .read _ handle => .answer w (.value ((w.values.lookup handle).getD []))
  | .awaitPush connection handle => w.listen connection handle
  | .hangUp connection =>
    if w.connection = some connection then .answer { w with connection := none } .done
    else .answer w .done
  | .openLink => .answer { w with online := true } .done
  | .publish _ => if w.online then .answer w .done else .fail w (.link .notConnected)
  | .subscribe _ => if w.online then .answer w .done else .fail w (.link .notConnected)
  | _ => .answer w .done

def perform (w : World) (now : Instant) (c : Call) : Option Failure → Response
  | some f => .fail w f
  | none => w.effect now c

def start (w : World) (now : Instant) (c : Call) : Response :=
  match w.draw c.name with
  | (none, w) => w.effect now c
  | (some b, w) =>
    if b.delay < 0 then .pend w .never
    else if b.delay = 0 then w.perform now c b.failure
    else .pend w (.delayed (now + b.delay.toNat) b.failure)

/-- Looks after a call that has been started. -/
def resume (w : World) (now : Instant) (c : Call) : Progress → Response
  | .delayed deadline failure =>
    if deadline ≤ now then w.perform now c failure else .pend w (.delayed deadline failure)
  | .hearing start rest => w.hear now start rest
  | .listening => w.effect now c
  | .never => .pend w .never

end World

end Bench

end GattGateway
