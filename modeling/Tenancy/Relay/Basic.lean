import Tenancy.Effects
import Tenancy.Relay.Feed
import Tenancy.Relay.Mailbox

/-!
# Relays

A relay carries messages of one subscription to one caller, under logical names. It stops at
three places: asking for the next message (`waiting`), handing one over (`sending`), and telling
the caller of a failure (`reporting`). At each place it first looks whether it was cancelled,
then whether the caller is gone; so nothing is put into the mailbox after a cancel, not even a
message that was already taken.

`Relay.accept` is the move on what the source offers, `Relay.heed` the move of a relay that is
interrupted before that, and `Relay.handOver` the move at the second and third place. They are
functions of the relay alone; which moves come when is up to the runs that use them.
-/

namespace Tenancy

/-- How a relay ended. -/
inductive RelayOutcome where
  | cancelled
  | disconnected
  | sourceClosed
  | failed (e : StoreError)
  deriving DecidableEq, Repr, Inhabited

def RelayOutcome.name : RelayOutcome → String
  | .cancelled => "cancelled"
  | .disconnected => "disconnected"
  | .sourceClosed => "source_closed"
  | .failed _ => "failed"

/-- Where a relay stands. `asking` is on the way to the source, `waiting` is after the source
had nothing. -/
inductive RelayPhase where
  | asking
  | waiting
  | sending (m : RelayedMessage)
  | reporting (e : StoreError) (outcome : RelayOutcome)
  | ended (outcome : RelayOutcome)
  deriving DecidableEq, Repr, Inhabited

structure Relay where
  tenant : Tenant
  /-- The physical names of its channels. -/
  channels : List String
  /-- The subscription it reads; a relay that could not open one has none. -/
  source : Option Nat
  mailbox : Mailbox
  cancelled : Bool := false
  phase : RelayPhase := .asking
  /-- Which of several ready channels each message is taken from; the first one when the list
  is used up. -/
  turns : List Nat := []
  deriving DecidableEq, Repr, Inhabited

namespace Relay

def isEnded (r : Relay) : Bool :=
  match r.phase with
  | .ended _ => true
  | _ => false

def isWaiting (r : Relay) : Bool :=
  match r.phase with
  | .waiting => true
  | _ => false

def outcome? (r : Relay) : Option RelayOutcome :=
  match r.phase with
  | .ended o => some o
  | _ => none

/-- Why the relay has to stop whatever comes next: a cancel before a caller that is gone. -/
def interruption? (r : Relay) : Option RelayOutcome :=
  if r.cancelled then some .cancelled
  else if !r.mailbox.isOpen then some .disconnected
  else none

/-- The error for the caller when the store ends the subscription: it names the logical
channels. -/
def closedError (r : Relay) : StoreError :=
  .subscriptionClosed (",".intercalate (r.channels.map r.tenant.deisolate))

/-- Ends the relay. One that never had a subscription never counted as running. -/
def finish (r : Relay) (o : RelayOutcome) : Relay × Effects :=
  ({ r with phase := .ended o },
    if r.source.isSome then
      { log := [.relayStopped r.tenant o.name], samples := [.relayStopped] }
    else {})

/-- A relay that starts to read its subscription. -/
def start (f : Feed) (mailbox : Mailbox) (cancelled : Bool) (turns : List Nat) :
    Relay × Effects :=
  ({ tenant := f.tenant, channels := f.channels, source := some f.id, mailbox, cancelled, turns },
    { log := [.relayStarted f.tenant f.channels.length], samples := [.relayStarted] })

/-- A relay whose subscription could not be opened: all it does is to say so. -/
def startFailed (t : Tenant) (e : StoreError) (mailbox : Mailbox) (cancelled : Bool) :
    Relay × Effects :=
  ({ tenant := t, channels := [], source := none, mailbox, cancelled,
     phase := .reporting e (.failed e) },
    .ofLog [.relayNotOpened t e, .storeFailed e])

/-- The move at a relay that wants the next message and has to stop. -/
def heed (r : Relay) : Option (Relay × Effects) := r.interruption?.map r.finish

/-- The move on what the source offers, at a relay that asks for it and is not interrupted. -/
def accept (r : Relay) (a : Arrival) (now : Timestamp) : Relay × Effects :=
  match a with
  | .message m =>
    ({ r with phase := .sending (m.relayed r.tenant now), turns := r.turns.drop 1 }, {})
  | .failure e =>
    ({ r with phase := .reporting e (.failed e) },
      .ofLog [.relaySourceFailed r.tenant e, .storeFailed e])
  | .ended =>
    ({ r with phase := .reporting r.closedError .sourceClosed },
      .ofLog [.relaySourceClosed r.tenant r.closedError, .storeFailed r.closedError])
  | .nothing => ({ r with phase := .waiting }, {})

/-- The move at a relay that has something for its caller; none while the mailbox is full. -/
def handOver (r : Relay) : Option (Relay × Effects) :=
  match r.phase with
  | .sending m =>
    match r.interruption? with
    | some o =>
      let (r, effects) := r.finish o
      some (r, .ofSamples [.relayMessage false] ++ effects)
    | none =>
      if r.mailbox.hasRoom then
        some ({ r with mailbox := r.mailbox.put (.message m), phase := .asking },
          .ofSamples [.relayMessage true])
      else none
  | .reporting e o =>
    match r.interruption? with
    | some _ => some (r.finish o)
    | none =>
      if r.mailbox.hasRoom then
        some ({ r with mailbox := r.mailbox.put (.failure (.ofStore e)) }.finish o)
      else none
  | _ => none

/-- The turn for the next message. -/
def turn (r : Relay) : Nat := r.turns.headD 0

/-- How far the relay is from a place where it has to wait, apart from what its source holds. -/
def weight (r : Relay) : Nat :=
  match r.phase with
  | .ended _ => 0
  | .reporting .. => 1
  | .waiting => 2
  | .asking => 3
  | .sending _ => 4

end Relay

end Tenancy
