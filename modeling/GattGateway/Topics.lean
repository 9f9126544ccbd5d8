import GattGateway.Fault
import GattGateway.Limits
import GattGateway.Text.Utf8
import GattGateway.Uuid

/-!
# Topics

All topics of a gateway start with its base, the topic prefix and the device identifier. Inbound
topics are sorted into routes.
-/
namespace GattGateway

open Text (Bytes)

structure Topic where
  text : String
  fits : text.utf8ByteSize ≤ maxTopicBytes
  deriving DecidableEq, Repr

def Topic.ofText? (s : String) : Option Topic :=
  if h : s.utf8ByteSize ≤ maxTopicBytes then some ⟨s, h⟩ else none

/-- What a gateway publishes on or subscribes to. -/
inductive TopicName
  | status
  | connect
  | disconnect
  | connected
  | disconnected
  | scanResults
  | error
  | writeFilter
  | readFilter
  | readResponse (uuid : CanonicalUuid)
  | notification (uuid : CanonicalUuid)
  deriving DecidableEq, Repr

/-- The part behind the base. -/
def TopicName.path : TopicName → String
  | .status => "/status"
  | .connect => "/connect"
  | .disconnect => "/disconnect"
  | .connected => "/connected"
  | .disconnected => "/disconnected"
  | .scanResults => "/scan/results"
  | .error => "/error"
  | .writeFilter => "/write/#"
  | .readFilter => "/read/#"
  | .readResponse uuid => "/read/" ++ uuid.text ++ "/response"
  | .notification uuid => "/notify/" ++ uuid.text

/-- Where an inbound message is headed. Identifiers stand as they were received. -/
inductive Route
  | connect
  | disconnect
  | write (segment : String)
  | read (segment : String)
  deriving DecidableEq, Repr

structure Topics where
  base : String
  fits : base.utf8ByteSize ≤ maxBaseBytes
  deriving DecidableEq, Repr

/-- What stands behind a given start. -/
def behind? : List Char → List Char → Option (List Char)
  | [], cs => some cs
  | _ :: _, [] => none
  | s :: ss, c :: cs => if s = c then behind? ss cs else none

theorem behind?_eq_some_iff {start cs rest : List Char} :
    behind? start cs = some rest ↔ cs = start ++ rest := by
  induction start generalizing cs with
  | nil => simp [behind?]
  | cons s ss ih =>
    cases cs with
    | nil => simp [behind?]
    | cons c cs =>
      by_cases h : s = c
      · simp [behind?, h, ih]
      · simp [behind?, h, Ne.symm h]

namespace Topics

def ofNames (topicPrefix deviceId : String) : Except Fault Topics :=
  let base := topicPrefix ++ "/" ++ deviceId
  if h : base.utf8ByteSize ≤ maxBaseBytes then .ok ⟨base, h⟩ else .error .topicTooLong

def topic (t : Topics) (name : TopicName) : Except Fault Topic :=
  match Topic.ofText? (t.base ++ name.path) with
  | some topic => .ok topic
  | none => .error .topicTooLong

/-- One segment that is not empty. -/
def isSegment (cs : List Char) : Bool := !cs.isEmpty && !cs.contains '/'

/-- Sorts what stands behind the base and a slash. -/
def routeOf (rest : List Char) : Option Route :=
  if rest = "connect".toList then some .connect
  else if rest = "disconnect".toList then some .disconnect
  else
    match behind? "write/".toList rest, behind? "read/".toList rest with
    | some cs, _ => if isSegment cs then some (.write (String.ofList cs)) else none
    | none, some cs => if isSegment cs then some (.read (String.ofList cs)) else none
    | none, none => none

/-- The route of an inbound topic, if it is a command for this gateway. -/
def route (t : Topics) (topic : String) : Option Route := do
  let rest ← behind? t.base.toList topic.toList
  let rest ← behind? ['/'] rest
  routeOf rest

end Topics

/-- How often a message is delivered. -/
inductive Delivery
  | atMostOnce
  | atLeastOnce
  deriving DecidableEq, Repr

def Delivery.name : Delivery → String
  | .atMostOnce => "AtMostOnce"
  | .atLeastOnce => "AtLeastOnce"

/-- A message to publish. -/
structure Message where
  topic : Topic
  payload : Bytes
  delivery : Delivery := .atMostOnce
  retain : Bool := false
  deriving DecidableEq, Repr

/-- What the broker publishes when the gateway is lost. -/
def Topics.lastWill (t : Topics) : Except Fault Message := do
  let topic ← t.topic .status
  return { topic, payload := Text.utf8 "offline", delivery := .atLeastOnce, retain := true }

end GattGateway
