import Tenancy.Error
import Tenancy.Settings.Basic

/-!
# Telemetry settings

How a process names itself in its log, and in which form it writes log lines.
-/

namespace Tenancy

inductive LogFormat where
  | json
  | pretty
  deriving DecidableEq, Repr, Inhabited

def LogFormat.name : LogFormat → String
  | .json => "json"
  | .pretty => "pretty"

/-- The version that this service reports. -/
def serviceVersion : String := "0.3.0"

structure Telemetry where
  serviceName : String := "tenantkv-api"
  serviceVersion : String := Tenancy.serviceVersion
  environment : String := "development"
  logFormat : LogFormat := .json
  deriving DecidableEq, Repr, Inhabited

namespace Telemetry

/-- `pretty` and `text`, in any case and between blanks, are the readable form. -/
def formatOfText (s : String) : LogFormat :=
  let word := String.ofList ((Text.trim s.toList).map Char.toLower)
  if word = "pretty" ∨ word = "text" then .pretty else .json

def ofEnvironment (env : Environment) : Telemetry :=
  let defaults : Telemetry := {}
  { serviceName := (env.text? "TENANTKV_SERVICE_NAME").getD defaults.serviceName
    serviceVersion := (env.text? "TENANTKV_SERVICE_VERSION").getD defaults.serviceVersion
    environment := (env.text? "TENANTKV_ENVIRONMENT").getD defaults.environment
    logFormat := ((env.text? "TENANTKV_LOG_FORMAT").map formatOfText).getD defaults.logFormat }

/-- What starting the log a second time answers. -/
def startedTwice : GatewayError :=
  ⟨.internalError,
    "Failed to init subscriber: a global default trace dispatcher has already been set"⟩

end Telemetry

end Tenancy
