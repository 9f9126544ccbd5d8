import GattGateway.Address
import GattGateway.Text.Utf8
import GattGateway.Uuid

/-!
# Events

What the gateway tells its observers.
-/
namespace GattGateway

open Text (Bytes)

inductive Event
  | scanStarted
  | scanComplete (devices : Nat)
  | connected (address : Address) (characteristics : Nat)
  | disconnected
  | notification (uuid : CanonicalUuid) (value : Bytes)
  | readValue (uuid : CanonicalUuid) (value : Bytes)
  | error (message : String)
  deriving DecidableEq, Repr

end GattGateway
