/-!
# Capacities

The sizes that bound everything the gateway stores or sends. Sizes of texts count bytes.
-/
namespace GattGateway

/-- Reports kept of one scan window. -/
def maxReports : Nat := 200

/-- Bytes kept of one report's payload. -/
def maxAdvertBytes : Nat := 31

/-- Characteristics of one session. -/
def maxCharacteristics : Nat := 32

/-- Workers that forward notifications. -/
def workerCount : Nat := 8

/-- Bytes of one attribute value. -/
def maxValueBytes : Nat := 512

/-- Commands waiting to be handled. -/
def queueDepth : Nat := 8

def maxTopicBytes : Nat := 128

def maxBaseBytes : Nat := 64

/-- Bytes of one inbound payload: as long as the longest value to write. -/
def maxPayloadBytes : Nat := maxValueBytes

/-- Bytes of the JSON text published after a connect. -/
def maxConnectedBytes : Nat := 4 * 1024

def maxErrorBytes : Nat := 128

/-- Seconds between keep-alive messages on the broker link. -/
def keepAliveSeconds : Nat := 30

/-- Bytes of an advertised name. -/
def maxNameBytes : Nat := 32

/-- Service identifiers kept of one payload. -/
def maxServices : Nat := 16

/-- Hex digits kept of manufacturer data. -/
def maxManufacturerDigits : Nat := 64

end GattGateway
