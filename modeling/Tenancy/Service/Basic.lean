import Tenancy.Gateway.Basic
import Tenancy.Relay.Move
import Tenancy.Store.Sweeper

/-!
# The service

A gateway over one store, with all that runs beside it: relays, sweepers, and the way of audit
records to their sink. The relays of the gateway stop when it is shut down. The log, the metric
samples and the records taken by the sink are kept as they came.
-/

namespace Tenancy

/-- A relay under way, or ended. -/
structure RelayTask where
  /-- What its caller knows it by. -/
  handle : Nat
  relay : Relay
  /-- Opened by the gateway, so a shutdown cancels it. -/
  ofGateway : Bool := false
  /-- Somebody was told how it ended. -/
  isReported : Bool := false
  deriving DecidableEq, Repr, Inhabited

structure Service where
  gateway : Gateway := {}
  sink : Audit.Sink := .recording
  clock : Clock
  store : Store
  /-- Relays in the order in which they started. -/
  relays : List RelayTask := []
  sweepers : List Sweeper := []
  isShutDown : Bool := false
  /-- Records on their way to the sink. -/
  pending : List Audit.Record := []
  /-- Records that the sink took. -/
  trail : List Audit.Record := []
  /-- How many records the sink refused. -/
  refused : Nat := 0
  log : List LogEvent := []
  samples : List Metrics.Sample := []
  deriving Inhabited

namespace Service

/-- The service after what an action left behind. -/
def leaving (s : Service) (e : Effects) : Service :=
  { s with log := s.log ++ e.log, samples := s.samples ++ e.samples, pending := s.pending ++ e.records }

def task? (s : Service) (handle : Nat) : Option RelayTask := s.relays.find? (·.handle = handle)

def relay? (s : Service) (handle : Nat) : Option Relay := (s.task? handle).map (·.relay)

/-- Changes the relay with the given handle. -/
def mapTask (s : Service) (handle : Nat) (f : RelayTask → RelayTask) : Service :=
  { s with relays := s.relays.map fun t => if t.handle = handle then f t else t }

def mapRelay (s : Service) (handle : Nat) (f : Relay → Relay) : Service :=
  s.mapTask handle fun t => { t with relay := f t.relay }

/-- Adds a relay that just started. -/
def addRelay (s : Service) (handle : Nat) (ofGateway : Bool) (started : Relay × Effects) : Service :=
  let task : RelayTask := { handle, relay := started.1, ofGateway }
  { s with relays := s.relays ++ [task] }.leaving started.2

/-! ## Rest -/

/-- A move of the `i`-th relay, if it can make one. -/
def moveAt? (s : Service) (i : Nat) : Option Service := do
  let t ← s.relays[i]?
  let (relay, store, effects) ← t.relay.move? s.store s.clock.wall
  some ({ s with relays := s.relays.set i { t with relay }, store }.leaving effects)

/-- A move of the first relay that can make one. -/
def move? (s : Service) : Option Service := (List.range s.relays.length).findSome? s.moveAt?

/-- A bound on the moves that the relays can make before they all wait. -/
def reach (s : Service) : Nat := (s.relays.map fun t => t.relay.reach s.store).foldr (· + ·) 0

/-- Lets the relays move, at most the given number of times. -/
def settleIn : Nat → Service → Service
  | 0, s => s
  | n + 1, s =>
    match s.move? with
    | some s => settleIn n s
    | none => s

/-- Hands a record to the sink. -/
def hand (s : Service) (r : Audit.Record) : Service :=
  match s.sink.refusal? (s.trail.length + s.refused) with
  | some e =>
    { s with refused := s.refused + 1 }.leaving
      { log := [.auditDropped e r.operation r.user], samples := [.auditFailure r.operation.name] }
  | none =>
    let s := { s with trail := s.trail ++ [r] }
    if s.sink = .log then s.leaving (.ofLog [.auditRecord r]) else s

/-- Hands over the records that are on their way. -/
def deliver (s : Service) : Service := s.pending.foldl hand { s with pending := [] }

/-- The service at rest: every relay waits or has ended, and no record is on its way. -/
def settle (s : Service) : Service := (settleIn s.reach s).deliver

end Service

end Tenancy
