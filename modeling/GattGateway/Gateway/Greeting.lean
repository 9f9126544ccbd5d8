import GattGateway.Gateway.Segment

/-!
# The greeting of a broker

After every connect to the broker the topics of commands are subscribed, and then the gateway
announces itself.
-/
namespace GattGateway.Greeting

open Text (Bytes)

inductive Stage
  | subscribing (name : TopicName) (topic : Topic)
  | announcing (message : Message)
  deriving DecidableEq, Repr

abbrev Result := Except Fault Unit

def Stage.call? : Stage → Option Call
  | .subscribing _ topic => some (.subscribe topic)
  | .announcing message => some (.publish message)

def subscribeTo (m : Moment) (g : Gateway) (name : TopicName) : Segment Stage Result :=
  match m.topics.topic name with
  | .ok topic => .wait g (.subscribing name topic)
  | .error e => .finish g (.error e)

def online : Bytes := Text.utf8 "online"

def announce (m : Moment) (g : Gateway) : Segment Stage Result :=
  let g := { g with ready := true }
  match m.topics.topic .status with
  | .ok topic =>
    .wait g (.announcing { topic, payload := online, delivery := .atLeastOnce, retain := true })
  | .error e => .finish g (.error e)

def begin (m : Moment) (g : Gateway) : Segment Stage Result :=
  subscribeTo m { g with ready := false } .connect

/-- What follows the subscription of a topic. -/
def proceed (m : Moment) (g : Gateway) : TopicName → Segment Stage Result
  | .connect => subscribeTo m g .disconnect
  | .disconnect => if g.valueTopics then subscribeTo m g .writeFilter else announce m g
  | .writeFilter => subscribeTo m g .readFilter
  | _ => announce m g

def resume (m : Moment) (g : Gateway) : Stage → Wake → Segment Stage Result
  | .subscribing name _, .reply r =>
    match r.link with
    | .ok _ => proceed m g name
    | .error e => .finish g (.error (.link e))
  | .announcing _, .reply r =>
    match r.link with
    | .ok _ => .finish g (.ok ())
    | .error e => .finish g (.error (.link e))
  | stage, _ => .wait g stage

end GattGateway.Greeting
