import Tenancy.Audit

/-!
# Log events

The events that the parts report, each with its level, its message and its fields.
-/

namespace Tenancy

inductive LogLevel where
  | info
  | warn
  | error
  deriving DecidableEq, Repr, Inhabited

def LogLevel.name : LogLevel → String
  | .info => "INFO"
  | .warn => "WARN"
  | .error => "ERROR"

inductive LogEvent where
  | storeClosed
  | storeFailed (e : StoreError)
  | sweeperStarted (intervalMillis : Nat)
  | sweeperStopped
  | subscriberLagged (channel : String) (skipped : Nat)
  | relayStarted (t : Tenant) (channels : Nat)
  | relayStopped (t : Tenant) (outcome : String)
  | relayNotOpened (t : Tenant) (e : StoreError)
  | relaySourceFailed (t : Tenant) (e : StoreError)
  | relaySourceClosed (t : Tenant) (e : StoreError)
  | userRejected (user : String) (e : AuthError)
  | delimiterInTenant (t : Tenant)
  | everyUserAccepted
  | allowListLoaded (users : Nat)
  | auditRecord (r : Audit.Record)
  | auditDropped (e : AuditError) (operation : Audit.Operation) (user : String)
  deriving Repr, Inhabited

namespace LogEvent

def level : LogEvent → LogLevel
  | .storeFailed _ => .error
  | .subscriberLagged .. => .warn
  | .relayNotOpened .. => .warn
  | .relaySourceFailed .. => .warn
  | .relaySourceClosed .. => .warn
  | .userRejected .. => .warn
  | .delimiterInTenant _ => .warn
  | .everyUserAccepted => .warn
  | .auditDropped .. => .warn
  | _ => .info

def message : LogEvent → String
  | .storeClosed => "In-memory store closed"
  | .storeFailed _ => "Store error"
  | .sweeperStarted _ => "Expiry sweeper started"
  | .sweeperStopped => "Expiry sweeper stopped"
  | .subscriberLagged .. => "Subscriber lagged, messages dropped"
  | .relayStarted .. => "Relay started"
  | .relayStopped .. => "Relay stopped"
  | .relayNotOpened .. => "Relay subscription failed"
  | .relaySourceFailed .. => "Relay source failed"
  | .relaySourceClosed .. => "Relay source closed"
  | .userRejected .. => "User rejected"
  | .delimiterInTenant _ =>
    "Tenant id contains the namespace delimiter; its names may overlap another tenant"
  | .everyUserAccepted => "No user allow-list configured, accepting every user id"
  | .allowListLoaded _ => "User allow-list loaded"
  | .auditRecord _ => "audit"
  | .auditDropped .. => "Audit record dropped"

/-- The fields, apart from the time of an audit record. -/
def fields : LogEvent → List (String × Json)
  | .storeFailed e => [("error", .text e.message)]
  | .sweeperStarted n => [("interval_ms", .int n)]
  | .subscriberLagged channel skipped => [("channel", .text channel), ("skipped", .int skipped)]
  | .relayStarted t channels => [("tenant", .text t.display), ("channels", .int channels)]
  | .relayStopped t outcome => [("tenant", .text t.display), ("outcome", .text outcome)]
  | .relayNotOpened t e => [("tenant", .text t.display), ("error", .text e.message)]
  | .relaySourceFailed t e => [("tenant", .text t.display), ("error", .text e.message)]
  | .relaySourceClosed t e => [("tenant", .text t.display), ("error", .text e.message)]
  | .userRejected user e => [("user_id", .text user), ("error", .text e.message)]
  | .delimiterInTenant t =>
    [("user_id", .text t.user), ("organization_id", .text t.organizationId)]
  | .allowListLoaded n => [("users", .int n)]
  | .auditRecord r =>
    [("user_id", .text r.user), ("organization_id", .text (r.organization.getD "")),
      ("operation", .text r.operation.name), ("metadata", .text r.metadata.compact)]
  | .auditDropped e operation user =>
    [("error", .text e.message), ("operation", .text operation.name), ("user_id", .text user)]
  | _ => []

/-- The log that the event goes to, where it is not the general one. -/
def target? : LogEvent → Option String
  | .auditRecord _ => some "tenantkv::audit"
  | _ => none

/-- The time that the event carries as a field. -/
def time? : LogEvent → Option Timestamp
  | .auditRecord r => some r.recordedAt
  | _ => none

end LogEvent

end Tenancy
