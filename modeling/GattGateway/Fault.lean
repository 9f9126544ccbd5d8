import GattGateway.Text.Decimal

/-!
# Faults

What can go wrong with the radio, with the link to the broker and with a command, and the
sentence that is published for it.
-/
namespace GattGateway

/-- A failed radio call. -/
inductive RadioFault
  | stack (code : UInt32)
  | activation
  | scan
  | connect
  | discovery
  | read
  | write
  | notify
  | disconnected
  deriving DecidableEq, Repr

/-- A failed call to the broker. -/
inductive LinkFault
  | notConnected
  | connect
  | publish
  | subscribe
  deriving DecidableEq, Repr

inductive Fault
  | connectTimeout
  | busy
  | characteristicNotFound
  | scanFailure (cause : RadioFault)
  | radio (cause : RadioFault)
  | linkDisrupted
  | link (cause : LinkFault)
  | invalidAddress
  | invalidUuid
  | invalidPayload
  | topicTooLong
  | bufferOverflow
  deriving DecidableEq, Repr

def RadioFault.message : RadioFault → String
  | .stack code => "stack error 0x" ++ String.ofList (Nat.toDigits 16 code.toNat)
  | .activation => "radio activation failed"
  | .scan => "scan failed"
  | .connect => "connect failed"
  | .discovery => "service discovery failed"
  | .read => "read failed"
  | .write => "write failed"
  | .notify => "notify failed"
  | .disconnected => "peer disconnected"

def LinkFault.message : LinkFault → String
  | .notConnected => "not connected"
  | .connect => "broker connect failed"
  | .publish => "publish failed"
  | .subscribe => "subscribe failed"

/-- The sentence published on the error topic. -/
def Fault.message : Fault → String
  | .connectTimeout => "Connect timed out"
  | .busy => "Busy: BLE operation in progress"
  | .characteristicNotFound => "Characteristic not found"
  | .scanFailure cause => cause.message
  | .radio cause => "BLE: " ++ cause.message
  | .linkDisrupted => "Transport did not recover after BLE activity"
  | .link cause => "Transport: " ++ cause.message
  | .invalidAddress => "Invalid address"
  | .invalidUuid => "Invalid UUID"
  | .invalidPayload => "Invalid payload"
  | .topicTooLong => "Topic too long"
  | .bufferOverflow => "Buffer overflow"

def RadioFault.name : RadioFault → String
  | .stack code => "Raw(" ++ Text.decimal code.toNat ++ ")"
  | .activation => "Activation"
  | .scan => "ScanFailed"
  | .connect => "ConnectFailed"
  | .discovery => "DiscoveryFailed"
  | .read => "ReadFailed"
  | .write => "WriteFailed"
  | .notify => "NotifyFailed"
  | .disconnected => "Disconnected"

def LinkFault.name : LinkFault → String
  | .notConnected => "NotConnected"
  | .connect => "ConnectFailed"
  | .publish => "PublishFailed"
  | .subscribe => "SubscribeFailed"

/-- The name of a fault, with its cause in parentheses. -/
def Fault.name : Fault → String
  | .connectTimeout => "ConnectTimeout"
  | .busy => "Busy"
  | .characteristicNotFound => "CharacteristicNotFound"
  | .scanFailure cause => "ScanFailure(" ++ cause.name ++ ")"
  | .radio cause => "Radio(" ++ cause.name ++ ")"
  | .linkDisrupted => "TransportDisrupted"
  | .link cause => "Transport(" ++ cause.name ++ ")"
  | .invalidAddress => "InvalidAddress"
  | .invalidUuid => "InvalidUuid"
  | .invalidPayload => "InvalidPayload"
  | .topicTooLong => "TopicTooLong"
  | .bufferOverflow => "BufferOverflow"

end GattGateway
