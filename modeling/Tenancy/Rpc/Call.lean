import Tenancy.Gateway.Basic
import Tenancy.Relay.Mailbox
import Tenancy.Rpc.Caller
import Tenancy.Rpc.Message
import Tenancy.Target

/-!
# Remote calls

A remote call is a gateway call in other words: `Call.request` is what it asks of the gateway,
and `Result.ofResponse` how the gateway's response is told. `Method` are the paths under which
calls arrive as bytes.
-/

namespace Tenancy.Rpc

inductive Call where
  | acquireLock (m : AcquireLockRequest)
  | releaseLock (m : ReleaseLockRequest)
  | renewLock (m : RenewLockRequest)
  | publish (m : PublishRequest)
  | subscribe (m : SubscribeRequest)
  deriving DecidableEq, Repr, Inhabited

/-- What a call gives. A subscription gives a stream of messages. -/
inductive Result where
  | acquireLock (m : AcquireLockResponse)
  | releaseLock (m : ReleaseLockResponse)
  | renewLock (m : RenewLockResponse)
  | publish (m : PublishResponse)
  | subscribe
  deriving DecidableEq, Repr, Inhabited

/-! ## To the gateway and back -/

/-- The lease of a number of milliseconds; a negative number is none at all. -/
def leaseOfMillis (n : Int64) : Span := .ofMillis n.toInt.toNat

def millisOfTime (t : Timestamp) : Int64 := .ofInt t.millis

/-- A count as a signed word; the largest one stands for all that do not fit. -/
def countWord (n : Nat) : Int64 := .ofNat (min n (UInt64.size / 2 - 1))

def Call.request : Call → Request
  | .acquireLock m => .acquire m.key (leaseOfMillis m.ttlMs)
  | .releaseLock m => .release m.key m.ownerToken
  | .renewLock m => .renew m.key m.ownerToken (leaseOfMillis m.ttlMs)
  | .publish m => .publish m.channel m.message
  | .subscribe m => .subscribe m.channels

def Result.ofResponse : Response → Result
  | .acquired g => .acquireLock ⟨g.acquired, g.token.getD "", g.expiresAt.map millisOfTime⟩
  | .released success => .releaseLock ⟨success⟩
  | .renewed r => .renewLock ⟨r.renewed, r.expiresAt.map millisOfTime⟩
  | .published n => .publish ⟨countWord n⟩
  | .subscribed => .subscribe

/-- An item of a stream. -/
def itemOf : RelayItem → Except Status SubscribeMessage
  | .message m => .ok ⟨m.channel, m.payload, millisOfTime m.time⟩
  | .failure e => .error (.ofError e)

/-- What a stream yields when it is asked for its next item, out of the mailbox of its relay, and what
it leaves there; nothing while the mailbox is empty. -/
def next? (b : Mailbox) : Option (Except Status SubscribeMessage × Mailbox) :=
  b.take?.map fun x => (itemOf x.1, x.2)

/-- The outcome of a remote call. A stream is what a relay hands over from the feed. -/
structure Outcome where
  answer : Except Status Result
  store : Store
  effects : Effects := {}
  feed : Option Feed := none

/-- A remote call: one whose caller cannot be told does not reach the gateway. -/
def perform (g : Gateway) (clock : Clock) (fresh : String) (caller : Caller) (c : Call)
    (s : Store) : Outcome :=
  match caller.tenant with
  | .error status => { answer := .error status, store := s }
  | .ok t =>
    let reply := g.call clock fresh t c.request s
    { answer := (reply.answer.mapError .ofError).map .ofResponse
      store := reply.store, effects := reply.effects, feed := reply.feed }

/-! ## Calls as bytes -/

inductive Method where
  | acquireLock
  | releaseLock
  | renewLock
  | publish
  | subscribe
  deriving DecidableEq, Repr, Inhabited

namespace Method

def all : List Method := [.acquireLock, .releaseLock, .renewLock, .publish, .subscribe]

def path : Method → String
  | .acquireLock => "/tenantkv.v1.TenantKv/AcquireLock"
  | .releaseLock => "/tenantkv.v1.TenantKv/ReleaseLock"
  | .renewLock => "/tenantkv.v1.TenantKv/RenewLock"
  | .publish => "/tenantkv.v1.TenantKv/Publish"
  | .subscribe => "/tenantkv.v1.TenantKv/Subscribe"

/-- The method of a request target. -/
def ofTarget? (target : String) : Option Method := all.find? (·.path = Target.path target)

/-- The call that bytes stand for. -/
def read? (m : Method) (bytes : Utf8.Bytes) : Option Call :=
  match m with
  | .acquireLock => (AcquireLockRequest.codec.decode? bytes).map .acquireLock
  | .releaseLock => (ReleaseLockRequest.codec.decode? bytes).map .releaseLock
  | .renewLock => (RenewLockRequest.codec.decode? bytes).map .renewLock
  | .publish => (PublishRequest.codec.decode? bytes).map .publish
  | .subscribe => (SubscribeRequest.codec.decode? bytes).map .subscribe

end Method

/-- The bytes of a result. A stream has sent none yet. -/
def Result.bytes : Result → Utf8.Bytes
  | .acquireLock m => AcquireLockResponse.codec.encode m
  | .releaseLock m => ReleaseLockResponse.codec.encode m
  | .renewLock m => RenewLockResponse.codec.encode m
  | .publish m => PublishResponse.codec.encode m
  | .subscribe => []

/-- Why bytes are no call. -/
inductive RoutingError where
  | unknownPath
  | unreadable
  deriving DecidableEq, Repr, Inhabited

/-- The status of a call that was not understood; unreadable bytes have no fixed message. -/
def RoutingError.status : RoutingError → StatusCode × Option String
  | .unknownPath => (.unimplemented, some "")
  | .unreadable => (.internal, none)

/-- The call that arrives under a request target. -/
def route (target : String) (bytes : Utf8.Bytes) : Except RoutingError Call :=
  match Method.ofTarget? target with
  | none => .error .unknownPath
  | some m =>
    match m.read? bytes with
    | none => .error .unreadable
    | some c => .ok c

end Tenancy.Rpc
