import Tenancy.Rpc.Call
import Tenancy.Service.Basic
import Tenancy.Store.Call

/-!
# Steps of the service

What can happen to a service from outside, and what is answered. `Service.step` is one step,
after which the service is at rest again; `Service.run` is a run of steps. What the service does
not decide itself comes with the step, as its `Supply`.
-/

namespace Tenancy

/-- A lock operation without the checks of the gateway. -/
inductive LockCall where
  | acquire (fresh : String) (ttl : Span)
  | release (token : String)
  | renew (token : String) (ttl : Span)
  deriving DecidableEq, Repr, Inhabited

/-- What comes from outside: the token of a new lock, the handle of a new relay, and the turns in
which that relay takes messages of several channels. -/
structure Supply where
  fresh : String := ""
  handle : Nat := 0
  turns : List Nat := []
  deriving DecidableEq, Repr, Inhabited

/-- How a relay is started by hand. -/
structure RelayStart where
  handle : Nat
  capacity : Nat
  /-- Cancelled before it first runs. -/
  isCancelled : Bool := false
  /-- Its caller has left before it first runs. -/
  isAlone : Bool := false
  turns : List Nat := []
  deriving DecidableEq, Repr, Inhabited

/-- The mailbox of a relay that is started by hand; it holds one item at least. -/
def RelayStart.mailbox (how : RelayStart) : Mailbox := ⟨max how.capacity 1, [], !how.isAlone⟩

inductive Step where
  /-- Time passes. -/
  | advance (d : Span)
  | sweep
  /-- Starts one more sweeper. -/
  | startSweeper (interval : Span)
  /-- Stops all sweepers. -/
  | stopSweepers
  /-- Shuts the gateway down. -/
  | shutDown
  | closeStore
  | setFailing (on : Bool)
  | breakSubscriptions (e : StoreError)
  | store (c : StoreCall)
  /-- Takes from a subscription of the store what it has, at most `limit` items. -/
  | drain (id : Nat) (limit : Option Nat)
  | unsubscribe (id : Nat)
  | lock (t : Tenant) (key : String) (c : LockCall)
  | call (t : Tenant) (r : Request) (given : Supply)
  | rpc (caller : Rpc.Caller) (c : Rpc.Call) (given : Supply)
  | openFeed (t : Tenant) (channels : List String)
  /-- Starts a relay on a feed. -/
  | relayFeed (f : Feed) (how : RelayStart)
  /-- Opens a feed and starts a relay on it. -/
  | relayChannels (t : Tenant) (channels : List String) (how : RelayStart)
  /-- The caller of a relay reads, at most `limit` items. -/
  | read (handle : Nat) (limit : Option Nat)
  | cancel (handle : Nat)
  /-- The caller of a relay leaves. -/
  | leave (handle : Nat)
  /-- A remote stream is dropped: its caller leaves and the relay is cancelled. -/
  | hangUp (handle : Nat)
  /-- Asks how a relay ended. -/
  | outcome (handle : Nat)
  deriving Repr, Inhabited

inductive Answer where
  | done
  | flag (b : Bool)
  | count (n : Nat)
  | stored (a : Except StoreError StoreAnswer)
  | drained (items : List (Except StoreError Message)) (isEnded : Bool)
  | locked (a : Except StoreError Bool)
  | called (a : Except GatewayError Response)
  | replied (a : Except Rpc.Status Rpc.Result)
  | fed (a : Except StoreError Feed)
  | read (items : List RelayItem) (isEnded : Bool)
  /-- The caller has left and cannot read. -/
  | gone
  | running
  | ended (o : RelayOutcome)
  /-- The outcome was told before. -/
  | told

namespace Service

/-! ## Parts of steps -/

/-- The service after a call, with a relay on the feed that the call opened. -/
def after (s : Service) (store : Store) (effects : Effects) (feed : Option Feed) (given : Supply) :
    Service :=
  let s := { s with store }.leaving effects
  match feed with
  | some f =>
    let mailbox : Mailbox := { capacity := max s.gateway.settings.relayBuffer 1 }
    s.addRelay given.handle true (Relay.start f mailbox s.isShutDown given.turns)
  | none => s

/-- What a reader takes in one go, items and notices of lost messages together, before it has to
pause. -/
def stint : Nat := 128

/-- Asks a subscription once, and gives what is left of the stint. Where nothing is left nothing
comes of it, but the turn passes all the same. -/
def ask (s : Service) (id left : Nat) : Arrival × Nat × Service :=
  if left = 0 then (.nothing, 0, { s with store := s.store.passTurn id })
  else
    let (a, lag, store) := s.store.receive id 0
    (a, left - 1 - lag.toList.length, { s with store }.leaving (.ofLog (Lag.events lag)))

/-- Asks a subscription for its next item, and a second time after a pause if nothing came. -/
def look (s : Service) (id left : Nat) : Arrival × Nat × Service :=
  match s.ask id left with
  | (.nothing, _, s) => s.ask id stint
  | found => found

/-- Takes the items that a subscription has, at most `limit`; `fuel` bounds them too. -/
def drainIn (id : Nat) :
    Nat → Nat → Option Nat → Service → List (Except StoreError Message) × Bool × Service
  | 0, _, _, s => ([], false, s)
  | fuel + 1, left, limit, s =>
    if limit = some 0 then ([], false, s)
    else
      match s.look id left with
      | (.message m, left, s) =>
        let (items, isEnded, s) := drainIn id fuel left (limit.map (· - 1)) s
        (.ok m :: items, isEnded, s)
      | (.failure e, left, s) =>
        let (items, isEnded, s) := drainIn id fuel left (limit.map (· - 1)) s
        (.error e :: items, isEnded, s)
      | (.nothing, _, s) => ([], false, s)
      | (.ended, _, s) => ([], true, s)

/-- The caller of a relay takes an item, if there is one. -/
def take? (s : Service) (handle : Nat) : Option (RelayItem × Service) := do
  let r ← s.relay? handle
  let (x, mailbox) ← r.mailbox.take?
  some (x, (s.mapRelay handle fun r => { r with mailbox }).settle)

/-- The caller of a relay reads at most `limit` items; `fuel` bounds them too. At the end it sees
whether the relay has ended. -/
def readIn (handle : Nat) : Nat → Option Nat → Service → List RelayItem × Bool × Service
  | 0, _, s => ([], false, s)
  | fuel + 1, limit, s =>
    if limit = some 0 then ([], false, s)
    else match s.take? handle with
      | some (x, s) =>
        let (xs, isEnded, s) := readIn handle fuel (limit.map (· - 1)) s
        (x :: xs, isEnded, s)
      | none => ([], ((s.relay? handle).map (·.isEnded)).getD true, s)

/-- A bound on the items that the caller of a relay can read. -/
def readable (s : Service) (handle : Nat) : Nat :=
  match s.relay? handle with
  | some r => r.mailbox.items.length + r.reach s.store
  | none => 0

/-- The caller of a relay still listens. -/
def hasReader (s : Service) (handle : Nat) : Bool :=
  ((s.relay? handle).map (·.mailbox.isOpen)).getD false

/-- Runs the sweepers. -/
def runSweepers (s : Service) : Service :=
  let (sweepers, store) := Sweeper.runAll s.clock.now s.sweepers s.store
  { s with sweepers, store }

/-! ## Steps -/

/-- What a step does at once, before the relays and the sweepers go on. -/
def act (s : Service) : Step → Answer × Service
  | .advance d => (.done, { s with clock := s.clock.advance d })
  | .sweep =>
    let (n, store) := s.store.purge s.clock.now
    (.count n, { s with store })
  | .startSweeper interval =>
    let started := (Sweeper.start? interval s.clock.now).toList
    (.done, { s with sweepers := s.sweepers ++ started }.leaving
      (.ofLog [.sweeperStarted (interval.millis % UInt64.size)]))
  | .stopSweepers =>
    (.done, { s with sweepers := [] }.leaving (.ofLog (s.sweepers.map fun _ => .sweeperStopped)))
  | .shutDown =>
    (.done,
      { s with
        isShutDown := true
        relays := s.relays.map fun t =>
          if t.ofGateway then { t with relay := { t.relay with cancelled := true } } else t })
  | .closeStore => (.done, { s with store := s.store.close }.leaving (.ofLog [.storeClosed]))
  | .setFailing on => (.done, { s with store := s.store.setFailing on })
  | .breakSubscriptions e =>
    let (n, store) := s.store.breakSubscriptions e
    (.count n, { s with store })
  | .store c =>
    let (a, store) := s.store.call s.clock.now c
    (.stored a, { s with store })
  | .drain id limit =>
    let (items, isEnded, s) := drainIn id (s.store.waiting id + 1) stint limit s
    (.drained items isEnded, s)
  | .unsubscribe id => (.done, { s with store := s.store.unsubscribe id })
  | .lock t key c =>
    let k := Key.ofLogical t key
    let (a, store) := match c with
      | .acquire fresh ttl => Lock.acquire k fresh s.clock.now s.store ttl
      | .release token => Lock.release k token s.clock.now s.store
      | .renew token ttl => Lock.renew k token s.clock.now s.store ttl
    (.locked a, { s with store })
  | .call t r given =>
    let reply := s.gateway.call s.clock given.fresh t r s.store
    (.called reply.answer, s.after reply.store reply.effects reply.feed given)
  | .rpc caller c given =>
    let reply := Rpc.perform s.gateway s.clock given.fresh caller c s.store
    (.replied reply.answer, s.after reply.store reply.effects reply.feed given)
  | .openFeed t channels =>
    let (a, store) := Feed.subscribe t channels s.store
    (.fed a, { s with store })
  | .relayFeed f how =>
    (.done, s.addRelay how.handle false (Relay.start f how.mailbox how.isCancelled how.turns))
  | .relayChannels t channels how =>
    match Feed.subscribe t channels s.store with
    | (.ok f, store) =>
      (.done, { s with store }.addRelay how.handle false
        (Relay.start f how.mailbox how.isCancelled how.turns))
    | (.error e, store) =>
      (.done, { s with store }.addRelay how.handle false
        (Relay.startFailed t e how.mailbox how.isCancelled))
  | .read handle limit =>
    if s.hasReader handle then
      let (items, isEnded, s) := readIn handle (s.readable handle + 1) limit s
      (.read items isEnded, s)
    else (.gone, s)
  | .cancel handle => (.done, s.mapRelay handle fun r => { r with cancelled := true })
  | .leave handle =>
    (.flag (s.hasReader handle), s.mapRelay handle fun r => { r with mailbox := r.mailbox.drop })
  | .hangUp handle =>
    (.done, s.mapRelay handle fun r => { r with mailbox := r.mailbox.drop, cancelled := true })
  | .outcome handle =>
    match s.task? handle with
    | none => (.told, s)
    | some t =>
      if t.isReported then (.told, s)
      else match t.relay.outcome? with
        | none => (.running, s)
        | some o => (.ended o, s.mapTask handle fun t => { t with isReported := true })

/-- One step; afterwards the service is at rest. -/
def step (s : Service) (x : Step) : Answer × Service :=
  let (a, s) := s.act x
  (a, s.settle.runSweepers)

/-- The answers of a run, and the service at its end. -/
def run : Service → List Step → List Answer × Service
  | s, [] => ([], s)
  | s, x :: xs =>
    let (a, s) := s.step x
    let (as, s) := run s xs
    (a :: as, s)

end Service

end Tenancy
