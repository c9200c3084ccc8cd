import Tenancy.Message

/-!
# The hub

A hub routes published messages to subscriptions. A subscription has an inbox for each of its
channels that keeps the latest `bufferSize` messages: a message that finds the inbox full pushes
out the oldest. An inbox is linked to its channel until the hub drops the channel, by closing
or because the channel's count of subscribers falls to zero; it can still be emptied then, and
a subscription ends when all its inboxes are unlinked and empty.

The count of a channel goes by name: dropping a subscription takes one from the count of each
of its channels, also when the hub was closed in between and others have opened the channel
again.
-/

namespace Tenancy

/-- The distinct names of a list, in order of first occurrence. -/
def distinct : List String → List String
  | [] => []
  | c :: cs => c :: (distinct cs).filter (· ≠ c)

/-- What a subscription holds of one channel: messages to take, and how many were pushed out
since the last one was taken. -/
structure Inbox where
  channel : String
  pending : List Message := []
  missed : Nat := 0
  linked : Bool := true
  deriving DecidableEq, Repr, Inhabited

namespace Inbox

/-- Takes a message in; at most `size` are kept. -/
def push (size : Nat) (m : Message) (b : Inbox) : Inbox :=
  if b.pending.length < size then { b with pending := b.pending ++ [m] }
  else { b with pending := (b.pending ++ [m]).drop 1, missed := b.missed + 1 }

end Inbox

structure Subscription where
  id : Nat
  inboxes : List Inbox
  deriving DecidableEq, Repr, Inhabited

/-- Messages lost on a channel by a subscription that fell behind. -/
structure Lag where
  channel : String
  skipped : Nat
  deriving DecidableEq, Repr, Inhabited

/-- What a subscription offers next. -/
inductive Delivery where
  | message (m : Message)
  | nothing
  | ended
  deriving DecidableEq, Repr, Inhabited

namespace Subscription

/-- The channels with a message to take. -/
def nonempty (s : Subscription) : List String :=
  (s.inboxes.filter fun b => !b.pending.isEmpty).map (·.channel)

/-- The inbox after its first message was taken. -/
def afterTake (b : Inbox) : Inbox := { b with pending := b.pending.drop 1, missed := 0 }

/-- Takes the first message of a channel. -/
def takeFrom (s : Subscription) (channel : String) : Option (Message × Option Lag × Subscription) := do
  let b ← s.inboxes.find? (·.channel = channel)
  let m ← b.pending.head?
  let lag := if b.missed = 0 then none else some ⟨channel, b.missed⟩
  some (m, lag,
    { s with inboxes := s.inboxes.map fun c => if c.channel = channel then afterTake c else c })

/-- All inboxes are unlinked and empty. -/
def isOver (s : Subscription) : Bool := s.inboxes.all fun b => !b.linked && b.pending.isEmpty

/-- Takes a message of one of the channels that have any; `turn` says of which. -/
def receive (s : Subscription) (turn : Nat) : Delivery × Option Lag × Subscription :=
  let ready := s.nonempty
  match (ready[turn % ready.length]?).bind s.takeFrom with
  | some (m, lag, s) => (.message m, lag, s)
  | none => (if s.isOver then .ended else .nothing, none, s)

/-- The number of messages to take. -/
def waiting (s : Subscription) : Nat := (s.inboxes.map fun b => b.pending.length).foldr (· + ·) 0

end Subscription

/-- `counts` has the number of subscribers of each open channel. -/
structure Hub where
  capacity : Nat
  counts : List (String × Nat) := []
  subscriptions : List Subscription := []
  nextId : Nat := 0
  deriving DecidableEq, Repr, Inhabited

namespace Hub

/-- The messages that an inbox keeps: the capacity, at least one, rounded up to a power of two. -/
def bufferSize (h : Hub) : Nat := (max h.capacity 1).nextPowerOfTwo

def find? (h : Hub) (id : Nat) : Option Subscription := h.subscriptions.find? (·.id = id)

/-- The number of subscribers on a channel. -/
def count (h : Hub) (channel : String) : Nat :=
  match h.counts.find? (·.1 = channel) with
  | some c => c.2
  | none => 0

/-- The numbers of subscribers of all channels together. -/
def active (h : Hub) : Nat := (h.counts.map (·.2)).foldr (· + ·) 0

def countIn (channel : String) : List (String × Nat) → List (String × Nat)
  | [] => [(channel, 1)]
  | (c, n) :: rest => if c = channel then (c, n + 1) :: rest else (c, n) :: countIn channel rest

def countOut (channel : String) (counts : List (String × Nat)) : List (String × Nat) :=
  (counts.map fun c => if c.1 = channel then (c.1, c.2 - 1) else c).filter fun c =>
    ¬ (c.1 = channel ∧ c.2 = 0)

def mapInboxes (f : Inbox → Inbox) (h : Hub) : Hub :=
  { h with subscriptions := h.subscriptions.map fun s => { s with inboxes := s.inboxes.map f } }

/-- Opens a subscription to the distinct channels, and gives its id. -/
def subscribe (h : Hub) (channels : List String) : Nat × Hub :=
  let names := distinct channels
  (h.nextId,
    { h with
      counts := names.foldl (fun counts c => countIn c counts) h.counts
      subscriptions := h.subscriptions ++ [⟨h.nextId, names.map fun c => { channel := c }⟩]
      nextId := h.nextId + 1 })

/-- Takes one subscriber from a channel; a channel without subscribers is dropped. -/
def leave (h : Hub) (channel : String) : Hub :=
  let h := { h with counts := countOut channel h.counts }
  if h.counts.any (·.1 = channel) then h
  else mapInboxes (fun b => if b.channel = channel then { b with linked := false } else b) h

/-- Drops a subscription. -/
def unsubscribe (h : Hub) (id : Nat) : Hub :=
  match h.find? id with
  | none => h
  | some s =>
    (s.inboxes.map (·.channel)).foldl leave
      { h with subscriptions := h.subscriptions.filter (·.id ≠ id) }

/-- The inboxes that a publish on the channel reaches. -/
def listeners (h : Hub) (channel : String) : Nat :=
  (h.subscriptions.map fun s =>
    s.inboxes.countP fun b => b.linked && b.channel = channel).foldr (· + ·) 0

/-- Hands a message to every linked inbox of its channel, and gives their number. -/
def publish (h : Hub) (channel payload : String) : Nat × Hub :=
  (h.listeners channel,
    mapInboxes (fun b =>
      if b.linked && b.channel = channel then b.push h.bufferSize ⟨channel, payload⟩ else b) h)

/-- Takes the next message of a subscription; `turn` decides between channels. -/
def receive (h : Hub) (id turn : Nat) : Delivery × Option Lag × Hub :=
  match h.find? id with
  | none => (.ended, none, h)
  | some s =>
    let (d, lag, s') := s.receive turn
    (d, lag, { h with subscriptions := h.subscriptions.map fun t => if t.id = id then s' else t })

/-- Takes messages while there are any, at most `limit`; `fuel` bounds them too. -/
def drainIn (id : Nat) : Nat → Option Nat → Hub → List Message × Bool × Hub
  | 0, _, h => ([], false, h)
  | fuel + 1, limit, h =>
    if limit = some 0 then ([], false, h)
    else match h.receive id 0 with
      | (.message m, _, h) =>
        let (ms, isEnded, h) := drainIn id fuel (limit.map (· - 1)) h
        (m :: ms, isEnded, h)
      | (.nothing, _, h) => ([], false, h)
      | (.ended, _, h) => ([], true, h)

/-- Takes the messages that a subscription has, at most `limit`, and tells whether it was seen to
end. -/
def drain (h : Hub) (id : Nat) (limit : Option Nat) : List Message × Bool × Hub :=
  drainIn id (((h.find? id).map (·.waiting)).getD 0 + 1) limit h

/-- Drops every channel. -/
def close (h : Hub) : Hub :=
  mapInboxes (fun b => { b with linked := false }) { h with counts := [] }

end Hub

end Tenancy
