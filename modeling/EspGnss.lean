import EspGnss.Foundation.System
import EspGnss.Foundation.Memory
import EspGnss.Nmea.Checksum
import EspGnss.Nmea.Fields
import EspGnss.Nmea.Parser
import EspGnss.Nmea.Line
import EspGnss.Nmea.Corruption
import EspGnss.Foundation.Framing
import EspGnss.Gnss.Input
import EspGnss.Gnss.Reference
import EspGnss.Gnss.Probe
import EspGnss.Gnss.BaudScan
import EspGnss.Gnss.BaudLock
import EspGnss.Gnss.Handover
import EspGnss.Foundation.QueueSet
import EspGnss.Gnss.Filter
import EspGnss.Gnss.Resume
import EspGnss.Gnss.Stack
import EspGnss.Gnss.Transition
import EspGnss.Gnss.Handshake
import EspGnss.Gnss.Epoch
import EspGnss.Gnss.Integrity
import EspGnss.Gnss.Window
import EspGnss.Gnss.Override
import EspGnss.Gnss.Readiness
import EspGnss.Gnss.Flush
import EspGnss.Gnss.Closing
import EspGnss.Foundation.CallTree
import EspGnss.Ota.Update
import EspGnss.Ota.Upload
import EspGnss.Ota.Fault
import EspGnss.Foundation.Resource
import EspGnss.Ota.Release
import EspGnss.Ota.Acceptance
import EspGnss.Ota.Selection
import EspGnss.Ota.Stack
import EspGnss.Ota.Decision
import EspGnss.Ota.Commit
import EspGnss.Ota.Confirmation
import EspGnss.Ota.Pending
import EspGnss.Ota.Timeout
import EspGnss.Ota.Init
import EspGnss.Foundation.Decimal
import EspGnss.Nmea.Decimal
import EspGnss.Gnss.Hdop
import EspGnss.Gnss.Pairing
import EspGnss.Gnss.Encoder
import EspGnss.Foundation.PooledTasks
import EspGnss.Pools
import EspGnss.Wakeup
import EspGnss.Log.Start
import EspGnss.Http.Delivery
import EspGnss.Http.Handback
import EspGnss.Http.Indication
import EspGnss.Http.InputOverride
import EspGnss.Http.Snapshot
import EspGnss.Http.Upload
import EspGnss.Wifi.Events
import EspGnss.Boot.Order
import EspGnss.Http.Relay
import EspGnss.Gnss.Joining
import EspGnss.Foundation.Custody
import EspGnss.Http.Custody
import EspGnss.Log.Custody
import EspGnss.Ota.Restart
import EspGnss.Gnss.BaudProof
import EspGnss.Foundation.Sessions
import EspGnss.Http.Clients
import EspGnss.Gnss.Sessions
import EspGnss.Gnss.MockRoute
import EspGnss.Gnss.Outcome
import EspGnss.Http.UploadOutcome
import EspGnss.Ota.Responses
import EspGnss.Foundation.Lines
import EspGnss.Ota.StatusPage
