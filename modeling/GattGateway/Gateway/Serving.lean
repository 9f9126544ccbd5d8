import GattGateway.Command
import GattGateway.Gateway.Dial
import GattGateway.Gateway.Recovery
import GattGateway.Gateway.Teardown

/-!
# Serving commands

Requests are handled one at a time. A connect command keeps scan cycles from starting,
waits for the radio, replaces the session and announces the characteristics of the new one; if any
of that fails the gateway is left without a session and free to scan. Every failed command is
reported once.
-/
namespace GattGateway.Serving

open Text (Bytes)

inductive Stage
  | receiving
  | acquiring (peer : Peer) (wasPaused : Bool) (giveUp : Instant) (deadline : Instant)
  | clearing (peer : Peer) (s : Teardown.Stage)
  | dialling (peer : Peer) (s : Dial.Stage)
  | recovering (peer : Peer) (found : Dial.Result) (s : Recovery.Stage)
  | subscribing (peer : Peer) (found : List Descriptor) (name : TopicName) (topic : Topic)
  | announcing (peer : Peer) (characteristics : Nat) (message : Message)
  | unwinding (fault : Fault) (s : Teardown.Stage)
  | leaving (s : Teardown.Stage)
  | parting (message : Message)
  | writing (connection : Connection) (handle : Handle) (data : Bytes)
  | reading (uuid : CanonicalUuid) (connection : Connection) (handle : Handle)
  | answering (uuid : CanonicalUuid) (value : Bytes) (message : Message)
  | reporting (message : Message)
  deriving Repr

namespace Stage

def call? : Stage → Option Call
  | .receiving => none
  | .acquiring _ _ _ _ => none
  | .clearing _ s => s.call?
  | .dialling _ s => s.call?
  | .recovering _ _ _ => none
  | .subscribing _ _ _ topic => some (.subscribe topic)
  | .announcing _ _ message => some (.publish message)
  | .unwinding _ s => s.call?
  | .leaving s => s.call?
  | .parting message => some (.publish message)
  | .writing connection handle data => some (.write connection handle data)
  | .reading _ connection handle => some (.read connection handle)
  | .answering _ _ message => some (.publish message)
  | .reporting message => some (.publish message)

def deadline? : Stage → Option Instant
  | .acquiring _ _ _ deadline => some deadline
  | .clearing _ s => s.deadline?
  | .dialling _ s => s.deadline?
  | .recovering _ _ s => some s.deadline
  | .unwinding _ s => s.deadline?
  | .leaving s => s.deadline?
  | _ => none

def signalled (g : Gateway) : Stage → Bool
  | .receiving => !g.inbox.requests.isEmpty
  | .clearing _ s => s.signalled g
  | .unwinding _ s => s.signalled g
  | .leaving s => s.signalled g
  | _ => false

end Stage

abbrev Step := Segment Stage Empty

def report (m : Moment) (g : Gateway) (e : Fault) : Step :=
  .telling (.error e.message)
    (match m.topics.topic .error with
    | .ok topic => .wait g (.reporting { topic, payload := Text.utf8 e.message })
    | .error _ => .wait g .receiving)

/-- A message on one of the gateway's own topics, or a report that it cannot be sent. -/
def send (m : Moment) (g : Gateway) (name : TopicName) (payload : Bytes) (next : Message → Stage) :
    Step :=
  match m.topics.topic name with
  | .ok topic => .wait g (next { topic, payload })
  | .error e => report m g e

/-! ## Connecting -/

/-- Undoes what a failed connect command has done. -/
def unwind (m : Moment) (e : Fault) (s : Segment Teardown.Stage Unit) : Step :=
  s.andThen (.unwinding e) fun g _ => report m { g with paused := false, busy := false } e

def abandon (m : Moment) (g : Gateway) (e : Fault) : Step := unwind m e (Teardown.begin m g)

/-- What announces the characteristics of a session. -/
def descriptorsToJson (ds : List Descriptor) : Json.Value :=
  .object [("chars", .list (ds.map Descriptor.toJson))]

/-- The JSON text of the characteristics, if it fits. -/
def encode (ds : List Descriptor) : Except Fault Bytes :=
  match (descriptorsToJson ds).textWithin? maxConnectedBytes with
  | some text => .ok (Text.utf8 text)
  | none => .error .bufferOverflow

def connectedMessage (m : Moment) (ds : List Descriptor) : Except Fault Message := do
  let payload ← encode ds
  let topic ← m.topics.topic .connected
  return { topic, payload }

/-- Forwards what can be pushed and announces the session. -/
def announce (m : Moment) (g : Gateway) (peer : Peer) (ds : List Descriptor) : Step :=
  let g := g.forwardAll ds
  match connectedMessage m ds with
  | .ok message => .wait g (.announcing peer ds.length message)
  | .error e => abandon m g e

def subscribeTo (m : Moment) (g : Gateway) (peer : Peer) (ds : List Descriptor)
    (name : TopicName) : Step :=
  match m.topics.topic name with
  | .ok topic => .wait g (.subscribing peer ds name topic)
  | .error e => abandon m g e

def settle (m : Moment) (peer : Peer) (found : Dial.Result)
    (s : Segment Recovery.Stage Recovery.Outcome) : Step :=
  s.andThen (.recovering peer found) fun g outcome =>
    match found with
    | .error e => abandon m g e
    | .ok ds =>
      if outcome = .lost then abandon m g .linkDisrupted
      else if g.valueTopics then announce m g peer ds
      else subscribeTo m g peer ds .writeFilter

def dial (m : Moment) (peer : Peer) (s : Segment Dial.Stage Dial.Result) : Step :=
  s.andThen (.dialling peer) fun g found => settle m peer found (Recovery.begin m g)

def clear (m : Moment) (peer : Peer) (s : Segment Teardown.Stage Unit) : Step :=
  s.andThen (.clearing peer) fun g _ => dial m peer (Dial.begin m { g with ready := false } peer)

/-- Takes the radio if nobody holds it, and else waits or gives up. -/
def acquire (m : Moment) (g : Gateway) (peer : Peer) (wasPaused : Bool) (giveUp : Instant) : Step :=
  if !g.busy then clear m peer (Teardown.begin m { g with busy := true })
  else if giveUp ≤ m.now then report m { g with paused := wasPaused } .busy
  else .wait g (.acquiring peer wasPaused giveUp (m.now + m.timing.busyPoll))

/-! ## Dispatch -/

def leave (m : Moment) (s : Segment Teardown.Stage Unit) : Step :=
  s.andThen .leaving fun g _ =>
    send m { g with valueTopics := false, paused := false } .disconnected [] .parting

def answer (m : Moment) (g : Gateway) (uuid : CanonicalUuid) (value : Bytes) : Step :=
  send m g (.readResponse uuid) value (.answering uuid value)

def handle (m : Moment) (g : Gateway) : Command → Step
  | .connect peer =>
    acquire m { g with paused := true } peer g.paused (m.now + m.timing.busyWait)
  | .disconnect => leave m (Teardown.begin m g)
  | .write uuid data =>
    match g.lookup? uuid with
    | some (connection, e) => .wait g (.writing connection e.handle data)
    | none => .wait g .receiving
  | .read uuid =>
    match g.lookup? uuid with
    | some (connection, e) => .wait g (.reading uuid connection e.handle)
    | none => answer m g uuid []

def dispatch (m : Moment) (g : Gateway) (r : Request) : Step :=
  match Command.ofMessage m.topics r.topic.text r.payload with
  | .ok none => .wait g .receiving
  | .ok (some command) => handle m g command
  | .error e => report m g e

def resume (m : Moment) (g : Gateway) : Stage → Wake → Step
  | .receiving, .signal =>
    match g.inbox.pop? with
    | some (request, inbox) => dispatch m { g with inbox } request
    | none => .wait g .receiving
  | .acquiring peer wasPaused giveUp _, .timeout => acquire m g peer wasPaused giveUp
  | .clearing peer s, w => clear m peer (Teardown.resume m g s w)
  | .dialling peer s, w => dial m peer (Dial.resume m g s w)
  | .recovering peer found s, w => settle m peer found (Recovery.resume m g s w)
  | .subscribing peer ds name _, .reply r =>
    match r.link with
    | .ok _ =>
      if name = .writeFilter then subscribeTo m g peer ds .readFilter
      else announce m { g with valueTopics := true } peer ds
    | .error e => abandon m g (.link e)
  | .announcing peer characteristics _, .reply r =>
    match r.link with
    | .ok _ =>
      .telling (.connected peer.address characteristics) (.wait { g with busy := false } .receiving)
    | .error e => abandon m g (.link e)
  | .unwinding e s, w => unwind m e (Teardown.resume m g s w)
  | .leaving s, w => leave m (Teardown.resume m g s w)
  | .parting _, .reply r =>
    match r.link with
    | .ok _ => .telling .disconnected (.wait g .receiving)
    | .error e => report m g (.link e)
  | .writing _ _ _, .reply r =>
    match r.radio with
    | .ok _ => .wait g .receiving
    | .error e => report m g (.radio e)
  | .reading uuid _ _, .reply r =>
    match r.received with
    | .ok value => answer m g uuid value
    | .error e => report m g (.radio e)
  | .answering uuid value _, .reply r =>
    match r.link with
    | .ok _ => .telling (.readValue uuid value) (.wait g .receiving)
    | .error e => report m g (.link e)
  | .reporting _, .reply _ => .wait g .receiving
  | stage, _ => .wait g stage

end GattGateway.Serving
