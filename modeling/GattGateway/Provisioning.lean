import GattGateway.Json.Record

/-!
# Provisioning

The names, credentials and broker that a gateway is set up with, read from a JSON file.
-/
namespace GattGateway

open Json Text

structure Provisioning where
  topicPrefix : String
  deviceId : String
  wifiSsid : String
  wifiPassword : String
  broker : String
  port : UInt16
  user : Option String
  password : Option String
  deriving DecidableEq, Repr

namespace Provisioning

def shape : String → Option Shape
  | "topic_prefix" => some .text
  | "device_id" => some .text
  | "wifi_ssid" => some .text
  | "wifi_password" => some .text
  | "mqtt_broker" => some .text
  | "mqtt_port" => some (.number 65535)
  | "mqtt_user" => some .optionalText
  | "mqtt_password" => some .optionalText
  | _ => none

def ofMembers? (ms : List (String × Scalar)) : Option Provisioning := do
  let topicPrefix ← textOf? ms "topic_prefix"
  let deviceId ← textOf? ms "device_id"
  let wifiSsid ← textOf? ms "wifi_ssid"
  let wifiPassword ← textOf? ms "wifi_password"
  let broker ← textOf? ms "mqtt_broker"
  let port ← numberOf? ms "mqtt_port"
  return { topicPrefix, deviceId, wifiSsid, wifiPassword, broker
           port := UInt16.ofNat port
           user := textOf? ms "mqtt_user"
           password := textOf? ms "mqtt_password" }

/-- A gateway without a topic prefix or a device identifier cannot be set up. -/
def parse? (bs : Bytes) : Option Provisioning := do
  let p ← (readRecord? shape bs).bind ofMembers?
  if p.topicPrefix = "" ∨ p.deviceId = "" then none else return p

end Provisioning

end GattGateway
