import Tenancy.Service.Step

/-!
# Single moves

Runs in which nothing moves by itself: every move of a relay is a turn of its own, taken whenever
the schedule says so, and readers take items one by one. `Service.taken` is what the caller of a
relay is given in the course of a schedule, and `Service.streamed` is what it is given when it reads
a remote stream.
-/

namespace Tenancy

/-- What happens in a run that schedules every move by itself: what a step does at once, an item
taken by the caller of a relay, a move of a relay, a new reading of the wall clock. -/
inductive Turn where
  | act (x : Step)
  | take (handle : Nat)
  | move (handle : Nat)
  | wall (now : Timestamp)

namespace Service

/-- The caller of a relay takes an item, if there is one, and no relay moves yet. -/
def picked? (s : Service) (handle : Nat) : Option (RelayItem × Service) :=
  ((s.relay? handle).bind (·.mailbox.take?)).map fun x =>
    (x.1, s.mapRelay handle fun r => { r with mailbox := x.2 })

/-- A move of the relay with the given handle, if it can make one. -/
def moveOf? (s : Service) (handle : Nat) : Option Service :=
  (s.relays.findIdx? (·.handle = handle)).bind s.moveAt?

/-- The caller of a relay takes an item, or is told whether the relay has ended. -/
def pick (s : Service) (handle : Nat) : Answer × Service :=
  if s.hasReader handle then
    match s.picked? handle with
    | some (x, s) => (.read [x] false, s)
    | none => (.read [] (((s.relay? handle).map (·.isEnded)).getD true), s)
  else (.gone, s)

def turn (s : Service) : Turn → Answer × Service
  | .act x => s.act x
  | .take handle => s.pick handle
  | .move handle => (.flag (s.moveOf? handle).isSome, (s.moveOf? handle).getD s)
  | .wall now => (.done, { s with clock := { s.clock with wall := now } })

/-! ## What callers are given -/

/-- The item that a turn gives the caller of a relay, if it gives one. -/
def taken? (s : Service) (handle : Nat) : Turn → Option RelayItem
  | .take h =>
    if h = handle ∧ s.hasReader handle then (s.picked? handle).map (·.1) else none
  | _ => none

/-- The items that the caller of a relay takes in the course of a schedule. -/
def taken (handle : Nat) : List Turn → Service → List RelayItem
  | [], _ => []
  | x :: xs, s => (s.taken? handle x).toList ++ taken handle xs (s.turn x).2

/-- The item that a turn makes the stream of a relay yield, if it makes it yield one. -/
def yielded? (s : Service) (handle : Nat) : Turn → Option (Except Rpc.Status Rpc.SubscribeMessage)
  | .take h =>
    if h = handle ∧ s.hasReader handle then
      ((s.relay? handle).bind (Rpc.next? ·.mailbox)).map (·.1)
    else none
  | _ => none

/-- What the stream of a relay yields in the course of a schedule. -/
def streamed (handle : Nat) : List Turn → Service → List (Except Rpc.Status Rpc.SubscribeMessage)
  | [], _ => []
  | x :: xs, s => (s.yielded? handle x).toList ++ streamed handle xs (s.turn x).2

end Service

end Tenancy
