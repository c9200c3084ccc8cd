import Tenancy.Relay.Basic

/-!
# Moves of a relay

`Relay.move?` is the next move of a relay against its store, if it can make one. A relay that
waits is woken by a cancel, by a caller that leaves, or by its source; one that hands something
over waits for room in the mailbox. An ended relay has given its subscription back.
-/

namespace Tenancy

/-- What the log says about lost messages. -/
def Lag.events (lag : Option Lag) : List LogEvent :=
  match lag with
  | some l => [.subscriberLagged l.channel l.skipped]
  | none => []

namespace Relay

/-- Gives the subscription back. -/
def release (r : Relay) (s : Store) : Store :=
  match r.source with
  | some id => s.unsubscribe id
  | none => s

/-- The move at a relay that wants the next message. -/
def ask? (r : Relay) (s : Store) (now : Timestamp) : Option (Relay × Store × Effects) :=
  match r.heed, r.source with
  | some (r, effects), _ => some (r, r.release s, effects)
  | none, none => none
  | none, some id =>
    if r.isWaiting && !s.isReady id then none
    else
      let (a, lag, s) := s.receive id r.turn
      let (r, effects) := r.accept a now
      some (r, s, .ofLog (Lag.events lag) ++ effects)

/-- The move at a relay that has something for its caller. -/
def give? (r : Relay) (s : Store) : Option (Relay × Store × Effects) :=
  r.handOver.map fun (r, effects) => (r, if r.isEnded then r.release s else s, effects)

/-- The next move, with the store after it; none where the relay has to wait or has ended. -/
def move? (r : Relay) (s : Store) (now : Timestamp) : Option (Relay × Store × Effects) :=
  match r.phase with
  | .asking | .waiting => r.ask? s now
  | .sending _ | .reporting .. => r.give? s
  | .ended _ => none

/-- A bound on the moves that the relay can make while nobody else acts. -/
def reach (r : Relay) (s : Store) : Nat :=
  3 * ((r.source.map s.waiting).getD 0) + r.weight

end Relay

end Tenancy
