import GattGateway.Topics

/-!
# The inbox

Messages from the broker wait in an inbox until they are handled, in the order of their arrival.
-/
namespace GattGateway

open Text (Bytes)

/-- A message from the broker that fits its buffers. -/
structure Request where
  topic : Topic
  payload : Bytes
  fits : payload.length ≤ maxPayloadBytes
  deriving DecidableEq, Repr

/-- A message, if its topic and its payload are short enough. -/
def Request.ofParts? (topic : String) (payload : Bytes) : Option Request := do
  let topic ← Topic.ofText? topic
  if fits : payload.length ≤ maxPayloadBytes then return ⟨topic, payload, fits⟩ else none

/-- Requests in the order of their arrival. -/
structure Inbox where
  requests : List Request := []
  fits : requests.length ≤ queueDepth := by decide
  deriving DecidableEq, Repr

namespace Inbox

def size (q : Inbox) : Nat := q.requests.length

/-- A full inbox takes nothing. -/
def push? (q : Inbox) (m : Request) : Option Inbox :=
  if fits : (q.requests ++ [m]).length ≤ queueDepth then some ⟨q.requests ++ [m], fits⟩ else none

def pop? (q : Inbox) : Option (Request × Inbox) :=
  match q with
  | ⟨[], _⟩ => none
  | ⟨m :: ms, fits⟩ => some (m, ⟨ms, Nat.le_of_succ_le fits⟩)

/-- Takes a message from the broker. One that is too long or finds the inbox full is dropped. -/
def accept? (q : Inbox) (topic : String) (payload : Bytes) : Option Inbox :=
  (Request.ofParts? topic payload).bind q.push?

end Inbox

end GattGateway
