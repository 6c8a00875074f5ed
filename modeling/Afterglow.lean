import Afterglow.Localdemo.Reset
import Afterglow.Pipeline.Dispatch
import Afterglow.Core.Postgres
import Afterglow.Pipeline.Redelivery
import Afterglow.Core.Lease
import Afterglow.Core.Keys
import Afterglow.Core.Admission
import Afterglow.Core.Receipts
import Afterglow.Httpapi.Batch
import Afterglow.Core.Reports
import Afterglow.Core.Tenant
import Afterglow.Core.Isolation
import Afterglow.Foottraffic.Store
import Afterglow.Foottraffic.Fingerprint
import Afterglow.Foottraffic.Outcome
import Afterglow.Foottraffic.Ledger
import Afterglow.Foottraffic.Report
import Afterglow.Core.Audit
import Afterglow.Core.Grace
import Afterglow.Core.Expiry
import Afterglow.Foottraffic.Order
import Afterglow.Pipeline.Retries
import Afterglow.Pipeline.Poison
import Afterglow.Core.Assurance
import Afterglow.Core.LockOrder
import Afterglow.Httpapi.Demo
import Afterglow.Httpapi.Fence
import Afterglow.Console.Proof
import Afterglow.Console.Resume
import Afterglow.Foottraffic.Canonical
import Afterglow.Foottraffic.Accounting
import Afterglow.Foottraffic.Examples
import Afterglow.Foottraffic.Samples
import Afterglow.Airports.Exact
import Afterglow.Airports.Service
import Afterglow.Airports.Recovery
import Afterglow.Httpapi.Limits
import Afterglow.Console.Price
import Afterglow.Console.Intake
import Afterglow.Console.Uncertain
import Afterglow.Pipeline.Tick
import Afterglow.Pipeline.Drain
import Afterglow.Httpapi.Scenario
import Afterglow.Pipeline.Calm
import Afterglow.Sync.Circuit
import Afterglow.Httpapi.Outage
import Afterglow.Console.Session
import Afterglow.Console.Reload
