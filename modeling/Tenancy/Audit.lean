import Tenancy.Error
import Tenancy.Json.Basic
import Tenancy.Tenant
import Tenancy.Time.Timestamp

/-!
# The audit trail

A record says who did what to which logical name, and when. Sinks take records in; one that
refuses them says why.
-/

namespace Tenancy.Audit

/-- The operations that leave a record. -/
inductive Operation where
  | acquireLock
  | releaseLock
  | renewLock
  | publish
  deriving DecidableEq, Repr, Inhabited

namespace Operation

def all : List Operation := [.acquireLock, .releaseLock, .renewLock, .publish]

def name : Operation → String
  | .acquireLock => "acquire_lock"
  | .releaseLock => "release_lock"
  | .renewLock => "renew_lock"
  | .publish => "publish"

end Operation

structure Record where
  user : String
  organization : Option String
  operation : Operation
  metadata : Json
  recordedAt : Timestamp
  deriving Repr, Inhabited

/-- A record of what `t` did at `now`; the organization is there if the tenant has one. -/
def record (t : Tenant) (operation : Operation) (metadata : Json) (now : Timestamp) : Record :=
  ⟨t.user, if t.hasOrganization then some t.organizationId else none, operation, metadata, now⟩

/-- Where records go: into a list, into the log, nowhere, or back with a reason. -/
inductive Sink where
  | recording
  | log
  | none
  | failing (reason : String)
  /-- Into a list, but each record that comes when an error is due goes back with it. -/
  | flaky (due : List (Option AuditError))
  deriving DecidableEq, Repr, Inhabited

namespace Sink

/-- Why a sink refuses the record that it is handed after `n` others, if it does. -/
def refusal? (sink : Sink) (n : Nat) : Option AuditError :=
  match sink with
  | .failing reason => some (.unavailable reason)
  | .flaky due => due[n]?.join
  | _ => Option.none

end Sink

end Tenancy.Audit
