import Rhiza.Log.Rotated
import Rhiza.Quepaxa.Certified
import Rhiza.Quepaxa.Replayed
import Rhiza.Quepaxa.OnFiles
import Rhiza.Quepaxa.Register
import Rhiza.Quepaxa.Gather
import Rhiza.Quepaxa.LogGate
import Rhiza.Quepaxa.Head
import Rhiza.Quepaxa.Persistence
import Rhiza.Archive.Copies
import Rhiza.Archive.Leases
import Rhiza.Sql.Binding
import Rhiza.Sql.Capture
import Rhiza.Sql.Reachable
import Rhiza.Sql.Snapshot
import Rhiza.Kv.Pages
import Rhiza.Graph.Limits
import Rhiza.Node.Grouped
import Rhiza.Node.InFlight
import Rhiza.Node.Retry
import Rhiza.Node.Speculation
import Rhiza.Node.Rebuild
import Rhiza.Node.Confirm
import Rhiza.Node.ProfileBatches
import Rhiza.Node.Accounting
import Rhiza.Node.Payloads
import Rhiza.Node.Base64
import Rhiza.Node.BatchPrefix
import Rhiza.Node.Exchanges
import Rhiza.Node.BarrierAnswers
import Rhiza.Client.Request
