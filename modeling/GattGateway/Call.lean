import GattGateway.Characteristic
import GattGateway.Scan.Report
import GattGateway.Timing
import GattGateway.Topics

/-!
# Calls

What the gateway asks of the radio and of the broker, and what they answer.
-/
namespace GattGateway

open Text (Bytes)

/-- The radio's name for a connection. -/
abbrev Connection := Nat

inductive Call
  | powerOn
  | powerOff
  | scan (parameters : ScanParameters)
  | stopScan
  | dial (peer : Peer)
  | discover (connection : Connection)
  | read (connection : Connection) (handle : Handle)
  | write (connection : Connection) (handle : Handle) (data : Bytes)
  | enablePush (connection : Connection) (handle : Handle) (indicate : Bool)
  | awaitPush (connection : Connection) (handle : Handle)
  | hangUp (connection : Connection)
  | openLink
  | publish (message : Message)
  | subscribe (topic : Topic)
  | handOver (uuid : CanonicalUuid) (value : Bytes)
  deriving DecidableEq, Repr

inductive Reply
  | done
  | connection (c : Connection)
  | characteristics (cs : List Characteristic)
  | value (bytes : Bytes)
  | radioFault (e : RadioFault)
  | linkFault (e : LinkFault)
  deriving DecidableEq, Repr

namespace Reply

/-- The outcome of a radio call that returns nothing. -/
def radio : Reply → Except RadioFault Unit
  | .radioFault e => .error e
  | _ => .ok ()

/-- The outcome of a call to the broker. -/
def link : Reply → Except LinkFault Unit
  | .linkFault e => .error e
  | _ => .ok ()

/-- A reply without a connection is a failed attempt. -/
def dialled : Reply → Except RadioFault Connection
  | .connection c => .ok c
  | .radioFault e => .error e
  | _ => .error .connect

/-- As many characteristics as a session can hold. -/
def discovered : Reply → Except RadioFault (List Characteristic)
  | .characteristics cs => .ok (cs.take maxCharacteristics)
  | .radioFault e => .error e
  | _ => .error .discovery

/-- A reply without a value is a failed read. -/
def received : Reply → Except RadioFault Bytes
  | .value bytes => .ok bytes
  | .radioFault e => .error e
  | _ => .error .read

end Reply

end GattGateway
