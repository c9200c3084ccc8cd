import Tenancy.Forms
import Tenancy.Target

/-!
# Health over HTTP

The routes under which health reports and metrics are served. Each answers GET, and HEAD with
the body left out; another method on a known path is refused with the methods that are allowed.
-/

namespace Tenancy.Health

inductive Route where
  | ping
  | live
  | ready
  | metrics
  deriving DecidableEq, Repr, Inhabited

namespace Route

def all : List Route := [.ping, .live, .ready, .metrics]

def path : Route → String
  | .ping => "/health/ping"
  | .live => "/health/live"
  | .ready => "/health/ready"
  | .metrics => "/metrics"

/-- The route of a request target. -/
def ofTarget? (target : String) : Option Route := all.find? (·.path = Target.path target)

end Route

/-- What a body holds. The text of the metrics is the business of whoever collects them. -/
inductive Body where
  | text (s : String)
  | json (j : Json)
  | metrics
  deriving Repr, Inhabited

structure Page where
  status : Nat
  contentType : Option String := none
  allow : Option String := none
  body : Body := .text ""
  deriving Repr, Inhabited

def textType : String := "text/plain; charset=utf-8"

def jsonType : String := "application/json"

def metricsType : String := "text/plain; version=0.0.4; charset=utf-8"

/-- The page of a route. -/
def page (r : Route) (s : Store) (latencyMs uptimeSeconds : Nat) : Page :=
  match r with
  | .ping => { status := 200, contentType := some textType, body := .text "pong" }
  | .live => { status := 200, contentType := some jsonType, body := .json (form.toJson alive) }
  | .ready =>
    let h := ready s latencyMs uptimeSeconds
    { status := if h.status = .healthy then 200 else 503
      contentType := some jsonType
      body := .json (form.toJson h) }
  | .metrics => { status := 200, contentType := some metricsType, body := .metrics }

/-- The answer to a request. -/
def respond (method target : String) (s : Store) (latencyMs uptimeSeconds : Nat) : Page :=
  match Route.ofTarget? target with
  | none => { status := 404 }
  | some r =>
    if method = "GET" then page r s latencyMs uptimeSeconds
    else if method = "HEAD" then
      let p := page r s latencyMs uptimeSeconds
      { p with body := match p.body with | .metrics => .metrics | _ => .text "" }
    else { status := 405, allow := some "GET,HEAD" }

end Tenancy.Health
