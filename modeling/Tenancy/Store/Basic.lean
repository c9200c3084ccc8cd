import Tenancy.Error
import Tenancy.Hub.Basic
import Tenancy.Store.Entries

/-!
# The store

Entries and a hub behind one door. Every call first asks whether the store is `available`: a
closed store answers `closed`, and a store behind a fault switch that is on answers
`connection`. A call that fails leaves the store as it was.

A store behind a fault switch also has a fault line into each open subscription, on which
`breakSubscriptions` puts errors. The subscription takes messages and errors in turns: whoever
was asked first last time is asked second.
-/

namespace Tenancy

/-- The errors on their way into a subscription. -/
structure FaultLine where
  id : Nat
  errors : List StoreError := []
  errorsFirst : Bool := false
  deriving DecidableEq, Repr, Inhabited

/-- The number of errors that a fault line holds; further ones push out the oldest. -/
def FaultLine.size : Nat := 16

/-- A switch that cuts the connection to a store. -/
structure FaultSwitch where
  failing : Bool := false
  lines : List FaultLine := []
  deriving DecidableEq, Repr, Inhabited

structure Store where
  entries : Entries := []
  hub : Hub
  closed : Bool := false
  faults : Option FaultSwitch := none
  deriving DecidableEq, Repr, Inhabited

/-- What a subscription of a store offers next. -/
inductive Arrival where
  | message (m : Message)
  | failure (e : StoreError)
  | nothing
  | ended
  deriving DecidableEq, Repr, Inhabited

namespace Store

/-- An empty store whose channels have the given capacity. -/
def ofCapacity (capacity : Nat) : Store := { hub := { capacity } }

/-- The store behind a fault switch. -/
def behindSwitch (s : Store) : Store := { s with faults := some {} }

/-- Whether a call is answered at all. -/
def available (s : Store) : Except StoreError Unit :=
  if (s.faults.map (·.failing)).getD false then .error (.connection "injected fault")
  else if s.closed then .error .closed
  else .ok ()

/-! ## Keys -/

/-- A call that only works on the entries. -/
def onEntries {α : Type} (s : Store) (f : Entries → α × Entries) :
    Except StoreError α × Store :=
  match s.available with
  | .error e => (.error e, s)
  | .ok () =>
    let (a, entries) := f s.entries
    (.ok a, { s with entries })

section Keys

variable (s : Store) (now : Instant)

def get (key : String) : Except StoreError (Option String) × Store :=
  s.onEntries fun es => es.get now key

def set (key value : String) (ttl : Option Span) : Except StoreError Unit × Store :=
  s.onEntries fun es => ((), es.set now key value ttl)

def setIfAbsent (key value : String) (ttl : Option Span) : Except StoreError Bool × Store :=
  s.onEntries fun es => es.setIfAbsent now key value ttl

def delete (key : String) : Except StoreError Bool × Store :=
  s.onEntries fun es => es.delete now key

def compareAndDelete (key expected : String) : Except StoreError Bool × Store :=
  s.onEntries fun es => es.compareAndDelete now key expected

def compareAndExpire (key expected : String) (ttl : Span) : Except StoreError Bool × Store :=
  s.onEntries fun es => es.compareAndExpire now key expected ttl

def expire (key : String) (ttl : Span) : Except StoreError Bool × Store :=
  s.onEntries fun es => es.expire now key ttl

def ping : Except StoreError Unit := s.available

/-- Removes the expired entries, and tells how many; a closed store does so too. -/
def purge : Nat × Store :=
  let (n, entries) := s.entries.purge now
  (n, { s with entries })

end Keys

/-! ## Channels -/

def publish (s : Store) (channel payload : String) : Except StoreError Nat × Store :=
  match s.available with
  | .error e => (.error e, s)
  | .ok () =>
    let (n, hub) := s.hub.publish channel payload
    (.ok n, { s with hub })

/-- Opens a subscription, and gives its id. -/
def subscribe (s : Store) (channels : List String) : Except StoreError Nat × Store :=
  match s.available with
  | .error e => (.error e, s)
  | .ok () =>
    let (id, hub) := s.hub.subscribe channels
    (.ok id,
      { s with
        hub
        faults := s.faults.map fun f => { f with lines := f.lines ++ [{ id }] } })

/-- Drops a subscription. -/
def unsubscribe (s : Store) (id : Nat) : Store :=
  { s with
    hub := s.hub.unsubscribe id
    faults := s.faults.map fun f => { f with lines := f.lines.filter (·.id ≠ id) } }

/-- The fault line into a subscription. -/
def line? (s : Store) (id : Nat) : Option FaultLine :=
  s.faults.bind fun f => f.lines.find? (·.id = id)

def setLine (s : Store) (line : FaultLine) : Store :=
  { s with
    faults := s.faults.map fun f =>
      { f with lines := f.lines.map fun l => if l.id = line.id then line else l } }

/-- Lets the turn of a subscription pass: the other side is asked first next time. -/
def passTurn (s : Store) (id : Nat) : Store :=
  match s.line? id with
  | some line => s.setLine { line with errorsFirst := !line.errorsFirst }
  | none => s

/-- Takes what the subscription offers next; `turn` decides between channels. With a fault line,
the end of the messages does not end it. -/
def receive (s : Store) (id turn : Nat) : Arrival × Option Lag × Store :=
  match s.line? id with
  | none =>
    let (d, lag, hub) := s.hub.receive id turn
    let a := match d with
      | .message m => .message m
      | .nothing => .nothing
      | .ended => .ended
    (a, lag, { s with hub })
  | some line =>
    let turned := { line with errorsFirst := !line.errorsFirst }
    match line.errorsFirst, line.errors with
    | true, e :: rest => (.failure e, none, s.setLine { turned with errors := rest })
    | _, errors =>
      match s.hub.receive id turn with
      | (.message m, lag, hub) => (.message m, lag, { s.setLine turned with hub })
      | _ =>
        match errors with
        | e :: rest => (.failure e, none, s.setLine { turned with errors := rest })
        | [] => (.nothing, none, s.setLine turned)

/-- Whether `receive` would give anything. -/
def isReady (s : Store) (id : Nat) : Bool :=
  match s.hub.find? id, s.line? id with
  | some sub, none => 0 < sub.waiting || sub.isOver
  | some sub, some line => 0 < sub.waiting || !line.errors.isEmpty
  | none, _ => true

/-- What is left to take from a subscription before it ends or waits. -/
def waiting (s : Store) (id : Nat) : Nat :=
  ((s.hub.find? id).map (·.waiting)).getD 0 + ((s.line? id).map (·.errors.length)).getD 0

/-- Stops serving and ends the subscriptions. -/
def close (s : Store) : Store := { s with closed := true, hub := s.hub.close }

/-! ## Faults -/

def setFailing (s : Store) (on : Bool) : Store :=
  { s with faults := s.faults.map fun f => { f with failing := on } }

/-- Puts an error on every fault line, and gives their number. -/
def breakSubscriptions (s : Store) (e : StoreError) : Nat × Store :=
  (((s.faults.map (·.lines.length)).getD 0),
    { s with
      faults := s.faults.map fun f =>
        { f with
          lines := f.lines.map fun l =>
            let errors := l.errors ++ [e]
            { l with errors := errors.drop (errors.length - FaultLine.size) } } })

end Store

end Tenancy
