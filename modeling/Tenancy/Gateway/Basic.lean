import Tenancy.Auth
import Tenancy.Effects
import Tenancy.Gateway.Request
import Tenancy.Lock

/-!
# The gateway

The one door to a store for its tenants. A call is admitted or refused without looking at the
store: first the user, then the arguments. An admitted call makes exactly one call to the store,
under the physical name of its key or channel. What changes something leaves an audit record,
in logical names.
-/

namespace Tenancy

structure Gateway where
  settings : Settings := {}
  validator : Validator := .allowAll
  deriving Inhabited

/-- The outcome of a call. A subscription opens a feed, for a relay to read. -/
structure Reply where
  answer : Except GatewayError Response
  store : Store
  effects : Effects := {}
  feed : Option Feed := none

namespace Gateway

/-! ## Admission -/

/-- Whether the tenant may call, and what the log says about it. A tenant whose names may overlap
with another one is let in. -/
def authorize (g : Gateway) (t : Tenant) : Except AuthError Unit × List LogEvent :=
  if t.user = "" then (.error .missingUser, [])
  else match g.validator.check t.user with
    | .error e => (.error e, [.userRejected t.user e])
    | .ok () => (.ok (), if t.isDelimiterSafe then [] else [.delimiterInTenant t])

/-- Whether a call is admitted, and what the log says about it. -/
def admission (g : Gateway) (t : Tenant) (r : Request) : Except GatewayError Unit × List LogEvent :=
  match g.authorize t with
  | (.error e, log) => (.error (.ofAuth e), log)
  | (.ok (), log) => (r.check g.settings, log)

/-! ## Work -/

/-- The lease of an audit record, in milliseconds, as a 64-bit word. -/
def auditedMillis (ttl : Span) : Json := .int (ttl.millis % UInt64.size)

def lockSample (operation outcome : String) : Effects :=
  .ofSamples [.lock operation outcome .zero]

/-- The outcome of a call that the store failed. -/
def failed (e : StoreError) (s : Store) (sample : Metrics.Sample) : Reply :=
  { answer := .error (.ofStore e), store := s,
    effects := { log := [.storeFailed e], samples := [sample] } }

section Work

variable (clock : Clock) (token : String) (t : Tenant) (s : Store)

def audited (operation : Audit.Operation) (metadata : List (String × Json)) : Effects :=
  { records := [Audit.record t operation (.object metadata) clock.wall] }

/-- Takes a lock under a fresh token. -/
def acquire (key : String) (ttl : Span) : Reply :=
  match Lock.acquire (.ofLogical t key) token clock.now s ttl with
  | (.error e, s) => failed e s (.lock "acquire" "error" .zero)
  | (.ok true, s) =>
    { answer := .ok (.acquired (Lease.grant true token clock.wall ttl)), store := s
      effects := lockSample "acquire" "acquired" ++
        audited clock t .acquireLock [("key", .text key), ("ttl_ms", auditedMillis ttl)] }
  | (.ok false, s) =>
    { answer := .ok (.acquired (Lease.grant false token clock.wall ttl)), store := s
      effects := lockSample "acquire" "contended" }

def release (key : String) : Reply :=
  match Lock.release (.ofLogical t key) token clock.now s with
  | (.error e, s) => failed e s (.lock "release" "error" .zero)
  | (.ok true, s) =>
    { answer := .ok (.released true), store := s
      effects := lockSample "release" "released" ++ audited clock t .releaseLock [("key", .text key)] }
  | (.ok false, s) =>
    { answer := .ok (.released false), store := s, effects := lockSample "release" "not_owner" }

def renew (key : String) (ttl : Span) : Reply :=
  match Lock.renew (.ofLogical t key) token clock.now s ttl with
  | (.error e, s) => failed e s (.lock "renew" "error" .zero)
  | (.ok true, s) =>
    { answer := .ok (.renewed (Lease.renewal true clock.wall ttl)), store := s
      effects := lockSample "renew" "renewed" ++
        audited clock t .renewLock [("key", .text key), ("ttl_ms", auditedMillis ttl)] }
  | (.ok false, s) =>
    { answer := .ok (.renewed (Lease.renewal false clock.wall ttl)), store := s
      effects := lockSample "renew" "not_owner" }

/-- Publishes a message; its audit record has the length of the payload in bytes. -/
def publish (channel payload : String) : Reply :=
  match s.publish (t.isolate channel) payload with
  | (.error e, s) => failed e s (.publish false .zero)
  | (.ok n, s) =>
    { answer := .ok (.published n), store := s
      effects := .ofSamples [.publish true .zero] ++
        audited clock t .publish
          [("bytes", .int (Utf8.size payload)), ("channel", .text channel)] }

end Work

/-- Opens a feed. -/
def subscribe (t : Tenant) (s : Store) (channels : List String) : Reply :=
  match Feed.subscribe t channels s with
  | (.error e, s) => { answer := .error (.ofStore e), store := s, effects := .ofLog [.storeFailed e] }
  | (.ok f, s) => { answer := .ok .subscribed, store := s, feed := some f }

/-- The work of an admitted call; `fresh` is the token of a new lock. -/
def perform (clock : Clock) (fresh : String) (t : Tenant) (r : Request) (s : Store) : Reply :=
  match r with
  | .acquire key ttl => acquire clock fresh t s key ttl
  | .release key token => release clock token t s key
  | .renew key token ttl => renew clock token t s key ttl
  | .publish channel payload => publish clock t s channel payload
  | .subscribe channels => subscribe t s channels

/-- A call of the gateway. -/
def call (g : Gateway) (clock : Clock) (fresh : String) (t : Tenant) (r : Request) (s : Store) :
    Reply :=
  match g.admission t r with
  | (.error e, log) => { answer := .error e, store := s, effects := .ofLog log }
  | (.ok (), log) =>
    let reply := perform clock fresh t r s
    { reply with effects := .ofLog log ++ reply.effects }

end Gateway

end Tenancy
