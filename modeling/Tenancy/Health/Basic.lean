import Tenancy.Settings.Telemetry
import Tenancy.Store.Basic

/-!
# Health

What the service tells about itself: that it is alive, and whether it can serve, which depends
on its store.
-/

namespace Tenancy

inductive HealthStatus where
  | healthy
  | unhealthy
  deriving DecidableEq, Repr, Inhabited

namespace HealthStatus

def all : List HealthStatus := [.healthy, .unhealthy]

def name : HealthStatus → String
  | .healthy => "healthy"
  | .unhealthy => "unhealthy"

end HealthStatus

/-- The health of one dependency. -/
structure ComponentHealth where
  status : HealthStatus
  latencyMs : Option Nat := none
  error : Option String := none
  deriving DecidableEq, Repr, Inhabited

structure HealthDetails where
  store : ComponentHealth
  version : String
  uptimeSeconds : Nat
  deriving DecidableEq, Repr, Inhabited

structure Health where
  status : HealthStatus
  message : Option String := none
  details : Option HealthDetails := none
  deriving DecidableEq, Repr, Inhabited

namespace Health

/-- A process that answers is alive. -/
def alive : Health := { status := .healthy, message := some "Process is alive" }

/-- The health of a store, asked by a ping. -/
def ofStore (s : Store) (latencyMs : Nat) : ComponentHealth :=
  match s.ping with
  | .ok () => { status := .healthy, latencyMs := some latencyMs }
  | .error e => { status := .unhealthy, error := some ("Store check failed: " ++ e.message) }

/-- Ready to serve as long as the store answers. -/
def ready (s : Store) (latencyMs uptimeSeconds : Nat) : Health :=
  let store := ofStore s latencyMs
  { status := store.status, details := some ⟨store, serviceVersion, uptimeSeconds⟩ }

end Health

end Tenancy
