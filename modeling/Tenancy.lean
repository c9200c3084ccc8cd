import Tenancy.Time.Clock
import Tenancy.Text.Utf8
import Tenancy.Message
import Tenancy.Store.Basic
import Tenancy.Lease
import Tenancy.Token
import Tenancy.Json.Shape
import Tenancy.Store.Sweeper
import Tenancy.Metrics
import Tenancy.Auth
import Tenancy.Settings.Telemetry
import Tenancy.Relay.Move
import Tenancy.Gateway.Basic
import Tenancy.Rpc.Call
import Tenancy.Health.Route
import Tenancy.Service.Step
import Tenancy.Service.Turn
import Tenancy.Proofs.Codec
import Tenancy.Proofs.Wire.Field
import Tenancy.Proofs.Rpc.Message
import Tenancy.Proofs.Store.DeadlineMap
import Tenancy.Proofs.Gateway.Call
import Tenancy.Proofs.Store.Footprint
import Tenancy.Proofs.Gateway.Trace
import Tenancy.Proofs.Lock.Holder
import Tenancy.Proofs.Lock.Expiry
import Tenancy.Proofs.Hub.Count
import Tenancy.Proofs.Hub.Tidy
import Tenancy.Proofs.Hub.Receive
import Tenancy.Proofs.Hub.Held
import Tenancy.Proofs.Hub.Delivery
import Tenancy.Proofs.Hub.Holdings
import Tenancy.Proofs.Store.Plain
import Tenancy.Proofs.Store.Books
import Tenancy.Proofs.Relay.Move
import Tenancy.Proofs.Relay.Running
import Tenancy.Proofs.Relay.Seen
import Tenancy.Proofs.Relay.Pipe
import Tenancy.Proofs.Service.Rest
import Tenancy.Proofs.Service.View
import Tenancy.Proofs.Service.Settle
import Tenancy.Proofs.Service.Call
import Tenancy.Proofs.Service.Handle
import Tenancy.Proofs.Service.Read
import Tenancy.Proofs.Service.Session
import Tenancy.Proofs.Service.Isolation
import Tenancy.Proofs.Service.Ledger
import Tenancy.Proofs.Service.Accounts
import Tenancy.Proofs.Service.Setup
import Tenancy.Proofs.Rpc.Caller
import Tenancy.Proofs.Rpc.Refinement
import Tenancy.Proofs.Service.Alike
import Tenancy.Proofs.Audit.Record
import Tenancy.Proofs.Audit.Trail
import Tenancy.Proofs.Digits
import Tenancy.Proofs.Time.Date
import Tenancy.Proofs.Time.Timestamp
import Tenancy.Proofs.Json.Scan
import Tenancy.Proofs.Json.Value
import Tenancy.Proofs.Json.Shape
import Tenancy.Proofs.Json.Form
import Tenancy.Proofs.Forms
import Tenancy.Proofs.Hub.Frozen
import Tenancy.Proofs.Hub.Reopen
import Tenancy.Proofs.Store.Memory
import Tenancy.Proofs.Gateway.Memory
import Tenancy.Proofs.Gateway.Admission
import Tenancy.Proofs.Collision
import Tenancy.Proofs.Identity
import Tenancy.Proofs.Relay.Stop
import Tenancy.Proofs.Relay.Backlog
import Tenancy.Proofs.Relay.Load
import Tenancy.Proofs.Service.Caller
import Tenancy.Proofs.Service.Schedule
import Tenancy.Proofs.Service.Steady
import Tenancy.Proofs.Service.Backlog
import Tenancy.Proofs.Service.Stop
import Tenancy.Proofs.Service.Lockstep
import Tenancy.Proofs.Service.Halt
import Tenancy.Proofs.Service.Shutdown
import Tenancy.Proofs.Hub.Waiting
import Tenancy.Proofs.Relay.Listener
import Tenancy.Proofs.Service.Change
import Tenancy.Proofs.Service.Listener
import Tenancy.Proofs.Service.Closing
import Tenancy.Proofs.Service.Channels
import Tenancy.Proofs.Lock.Lifetime
import Tenancy.Proofs.Text.Items
import Tenancy.Proofs.Gateway.AllowList
import Tenancy.Proofs.Metrics.Tally
import Tenancy.Proofs.Metrics.Conservation
import Tenancy.Proofs.Rpc.LeaseRange
import Tenancy.Proofs.Lock.Saturation
import Tenancy.Proofs.Audit.Lease
import Tenancy.Proofs.Store.Written
import Tenancy.Proofs.Store.Sweeper
import Tenancy.Proofs.Service.Sweeping
import Tenancy.Proofs.Key
import Tenancy.Proofs.Settings.Environment
import Tenancy.Proofs.Store.Deed
import Tenancy.Proofs.Service.Deeds
import Tenancy.Proofs.Health.Readiness
