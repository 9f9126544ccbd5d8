import GattGateway.Limits

/-!
# Timing

How long the gateway scans, waits and retries. All durations are milliseconds.
-/
namespace GattGateway

abbrev Instant := Nat

abbrev Duration := Nat

structure ScanParameters where
  interval : Duration
  window : Duration
  active : Bool
  deriving DecidableEq, Repr

structure ScanSettings where
  duration : Duration := 8000
  grace : Duration := 500
  maxEntries : Nat := maxReports
  parameters : ScanParameters := ⟨100, 30, true⟩
  deriving DecidableEq, Repr

structure Timing where
  scan : ScanSettings := {}
  /-- Least time from the start of one scan cycle to the start of the next. -/
  scanInterval : Duration := 5000
  /-- Pause of the scan loop while it may not scan. -/
  idlePoll : Duration := 1000
  /-- Pause of the scan loop while the scan interval lasts. -/
  intervalPoll : Duration := 500
  recoveryPolls : Nat := 30
  recoveryPoll : Duration := 1000
  /-- How long a connect command waits for the radio. -/
  busyWait : Duration := 30000
  busyPoll : Duration := 500
  connectTimeout : Duration := 15000
  notifyWait : Duration := 60000
  /-- How long a teardown waits for one worker. -/
  teardownTimeout : Duration := 5000
  linkRetry : Duration := 5000
  deriving DecidableEq, Repr

inductive Preset
  | standard
  | compact
  | coexistence
  deriving DecidableEq, Repr

/-- Where the radio shares its antenna the gateway scans more often. -/
def Preset.timing : Preset → Timing
  | .standard => {}
  | .compact => {}
  | .coexistence => { scanInterval := 2000 }

end GattGateway
