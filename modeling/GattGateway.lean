import GattGateway.Bench.Script
import GattGateway.Proofs.AcceptedTexts
import GattGateway.Proofs.Access
import GattGateway.Proofs.Attempts
import GattGateway.Proofs.Capacities
import GattGateway.Proofs.Channels
import GattGateway.Proofs.ConnectPayloads
import GattGateway.Proofs.Connections
import GattGateway.Proofs.Cuts
import GattGateway.Proofs.Deliveries
import GattGateway.Proofs.Disconnected
import GattGateway.Proofs.Greeted
import GattGateway.Proofs.Grouping
import GattGateway.Proofs.Handling
import GattGateway.Proofs.Identifiers
import GattGateway.Proofs.Layout
import GattGateway.Proofs.Notifications
import GattGateway.Proofs.Pause
import GattGateway.Proofs.PowerDown
import GattGateway.Proofs.Provisioning
import GattGateway.Proofs.RadioExclusion
import GattGateway.Proofs.RadioPower
import GattGateway.Proofs.RadioWait
import GattGateway.Proofs.Readiness
import GattGateway.Proofs.Restoration
import GattGateway.Proofs.Routing
import GattGateway.Proofs.ScanCapacity
import GattGateway.Proofs.ScanCycles
import GattGateway.Proofs.Scanning
import GattGateway.Proofs.Sightings
import GattGateway.Proofs.Subscriptions
import GattGateway.Proofs.Summary
import GattGateway.Proofs.UniqueReading
import GattGateway.Proofs.ValueTopics
import GattGateway.Provisioning
