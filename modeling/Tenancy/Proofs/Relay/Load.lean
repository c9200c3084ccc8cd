import Tenancy.Proofs.Relay.Backlog
import Tenancy.Proofs.Relay.Pipe
import Tenancy.Proofs.Relay.Stop

/-!
# What a relay of one channel carries

A relay that listens to one channel has messages in its mailbox, one in its hand at most, and more in
the inbox of its subscription (`Load`). While its caller stays and nobody cancels it, it moves them
on from one place to the next and keeps their order (`Carries.move?`), until the inbox is empty or
the mailbox is full and the hand too. At rest their number says where each of them stands
(`Load.Rests.eq_rested`), and the three places are one queue: a publish adds to it as `enqueue` does
(`Carries.publish`), and a caller takes its first message (`Carries.taken`).
-/

namespace Tenancy

/-! ## Loads -/

/-- A channel of a tenant with the inbox and the mailbox on the way to a caller. -/
structure Lane where
  tenant : Tenant
  /-- The physical name. -/
  channel : String
  /-- The messages that the inbox keeps. -/
  size : Nat
  /-- The items that the mailbox holds. -/
  room : Nat

/-- The texts of the messages that wait, oldest first, in the place where they wait. -/
@[ext]
structure Load where
  boxed : List String := []
  hand : Option String := none
  pending : List String := []

namespace Load

def all (x : Load) : List String := x.boxed ++ x.hand.toList ++ x.pending

/-- Nothing can be moved on. -/
def Rests (room : Nat) (x : Load) : Prop :=
  x.hand = none ∧ x.pending = [] ∨ x.hand.isSome ∧ x.boxed.length = room

/-- What waits, moved on as far as there is room. -/
def rested (room : Nat) (waiting : List String) : Load where
  boxed := waiting.take room
  hand := waiting[room]?
  pending := waiting.drop (room + 1)

theorem Rests.eq_rested {room : Nat} {x : Load} (h : x.Rests room) (hle : x.boxed.length ≤ room) :
    x = rested room x.all := by
  obtain ⟨boxed, hand, pending⟩ := x
  rcases h with ⟨rfl, rfl⟩ | ⟨hhand, rfl⟩
  · have hall : (Load.mk boxed none []).all = boxed := by simp [all]
    rw [hall, rested, List.take_of_length_le hle, List.getElem?_eq_none hle,
      List.drop_of_length_le (Nat.le_succ_of_le hle)]
  · obtain ⟨text, rfl⟩ := Option.isSome_iff_exists.1 hhand
    have hall : (Load.mk boxed (some text) pending).all = boxed ++ text :: pending := by simp [all]
    rw [hall, rested]
    simp

theorem all_rested (room : Nat) (waiting : List String) : (rested room waiting).all = waiting := by
  have hdrop : waiting[room]?.toList ++ waiting.drop (room + 1) = waiting.drop room := by
    cases h : waiting[room]? with
    | none =>
      have hle := List.getElem?_eq_none_iff.1 h
      rw [List.drop_of_length_le hle, List.drop_of_length_le (Nat.le_succ_of_le hle)]
      rfl
    | some text =>
      obtain ⟨hlt, rfl⟩ := List.getElem?_eq_some_iff.1 h
      exact List.getElem_cons_drop hlt
  rw [all, List.append_assoc]
  exact (congrArg _ hdrop).trans (List.take_append_drop room waiting)

theorem rests_rested (room : Nat) (waiting : List String) : (rested room waiting).Rests room := by
  rcases Nat.lt_or_ge room waiting.length with hlt | hle
  · exact .inr ⟨by simp [rested, hlt], List.length_take_of_le (Nat.le_of_lt hlt)⟩
  · exact .inl ⟨List.getElem?_eq_none hle, List.drop_of_length_le (Nat.le_succ_of_le hle)⟩

end Load

namespace Lane

variable {lane : Lane}

def message (lane : Lane) (text : String) : Message := ⟨lane.channel, text⟩

/-- The item tells the tenant of a message with the text. -/
def Tells (lane : Lane) (text : String) (x : RelayItem) : Prop :=
  (lane.message text).ToldAs lane.tenant x

/-- The item tells of the message at a place among the texts. -/
def TellsNth (lane : Lane) (texts : List String) (i : Nat) (item : RelayItem) : Prop :=
  ∃ text, texts[i]? = some text ∧ lane.Tells text item

theorem tellsNth_of_tells {texts ws : List String} {is : List Nat} {items : List RelayItem}
    (hw : ws.map some = is.map (texts[·]?)) (h : List.Forall₂ lane.Tells ws items) :
    List.Forall₂ (lane.TellsNth texts) is items := by
  induction h generalizing is with
  | nil =>
    rw [List.map_nil, eq_comm, List.map_eq_nil_iff] at hw
    rw [hw]
    exact .nil
  | cons htells _ ih =>
    cases is with
    | nil => cases hw
    | cons i is =>
      obtain ⟨hi, hrest⟩ := List.cons.inj hw
      exact .cons ⟨_, hi.symm, htells⟩ (ih hrest)

/-- The phase of a relay with the message in its hand, or with none. -/
inductive Hands (lane : Lane) : Option String → RelayPhase → Prop where
  | asking : Hands lane none .asking
  | waiting : Hands lane none .waiting
  | sending (text : String) (now : Timestamp) :
    Hands lane (some text) (.sending ((lane.message text).relayed lane.tenant now))

/-! ## Inboxes -/

/-- The inbox of the lane holds the messages. -/
structure Fills (lane : Lane) (pending : List String) (b : Inbox) : Prop where
  channel_eq : b.channel = lane.channel
  linked : b.linked = true
  pending_eq : b.pending = pending.map lane.message

namespace Fills

variable {pending : List String} {b : Inbox}

theorem waiting_eq (h : lane.Fills pending b) (id : Nat) :
    (Subscription.mk id [b]).waiting = pending.length := by
  simp [Subscription.waiting, h.pending_eq]

theorem receive_nil (h : lane.Fills [] b) (id turn : Nat) :
    (Subscription.mk id [b]).receive turn = (.nothing, none, ⟨id, [b]⟩) := by
  simp [Subscription.receive, Subscription.nonempty, Subscription.isOver, h.pending_eq, h.linked]

theorem receive_cons {text : String} (h : lane.Fills (text :: pending) b) (id turn : Nat) :
    ∃ lag, (Subscription.mk id [b]).receive turn =
        (.message (lane.message text), lag, ⟨id, [Subscription.afterTake b]⟩) ∧
      lane.Fills pending (Subscription.afterTake b) := by
  have hpending : b.pending = lane.message text :: pending.map lane.message := h.pending_eq
  refine ⟨if b.missed = 0 then none else some ⟨b.channel, b.missed⟩, ?_, h.channel_eq, h.linked, ?_⟩
  · simp [Subscription.receive, Subscription.nonempty, Subscription.takeFrom, hpending,
      Nat.mod_one]
  · simp [Subscription.afterTake, hpending]

theorem push (h : lane.Fills pending b) (text : String) :
    lane.Fills
      (if pending.length < lane.size then pending ++ [text] else (pending ++ [text]).drop 1)
      (b.push lane.size (lane.message text)) := by
  have hlength : b.pending.length = pending.length := by rw [h.pending_eq, List.length_map]
  have hmap : b.pending ++ [lane.message text] = (pending ++ [text]).map lane.message := by
    rw [h.pending_eq, List.map_append, List.map_singleton]
  unfold Inbox.push
  rw [hlength, hmap]
  split
  · exact ⟨h.channel_eq, h.linked, rfl⟩
  · exact ⟨h.channel_eq, h.linked, List.map_drop.symm⟩

end Fills

end Lane

/-! ## Relays -/

/-- The relay is at work on the lane, and carries the load. Its subscription is that of the lane and
no other. -/
structure Relay.Carries (lane : Lane) (x : Load) (h : Hub) (r : Relay) : Prop where
  uncancelled : r.cancelled = false
  isOpen : r.mailbox.isOpen = true
  tenant_eq : r.tenant = lane.tenant
  capacity_eq : r.mailbox.capacity = lane.room
  boxed : List.Forall₂ lane.Tells x.boxed r.mailbox.items
  hand : lane.Hands x.hand r.phase
  inbox : ∃ id b, r.source = some id ∧ h.find? id = some ⟨id, [b]⟩ ∧ lane.Fills x.pending b
  boxed_le : x.boxed.length ≤ lane.room
  pending_le : x.pending.length ≤ lane.size

namespace Relay.Carries

variable {lane : Lane} {x : Load} {h h' : Hub} {r : Relay} {s : Store}

/-- All that a relay needs of a hub is its own subscription. -/
theorem congr (hc : r.Carries lane x h)
    (hsame : r.source.bind h'.find? = r.source.bind h.find?) : r.Carries lane x h' := by
  obtain ⟨id, b, hid, hfind, hfills⟩ := hc.inbox
  rw [hid, Option.bind_some, Option.bind_some, hfind] at hsame
  exact { hc with inbox := ⟨id, b, hid, hsame, hfills⟩ }

theorem interruption?_eq (hc : r.Carries lane x h) : r.interruption? = none := by
  have hnone := r.isSome_interruption?
  rw [hc.uncancelled, hc.isOpen] at hnone
  exact Option.not_isSome_iff_eq_none.1 fun hsome => Bool.noConfusion (hsome.symm.trans hnone)

theorem isEnded_eq (hc : r.Carries lane x h) : r.isEnded = false := by
  have hhand := hc.hand
  unfold isEnded
  generalize x.hand = hand, r.phase = phase at hhand
  cases hhand <;> rfl

theorem hasRoom_eq (hc : r.Carries lane x h) :
    r.mailbox.hasRoom = decide (x.boxed.length < lane.room) := by
  rw [Mailbox.hasRoom, hc.capacity_eq, hc.boxed.length_eq]

theorem receive (hc : r.Carries lane x s.hub) (hp : s.Plain) {id : Nat} (hid : r.source = some id)
    (hhand : x.hand = none) (now : Timestamp) :
    ∃ y, (r.accept (s.receive id r.turn).1 now).1.Carries lane y (s.receive id r.turn).2.2.hub ∧
      y.all = x.all := by
  obtain ⟨hfree, hopen, htenant, hcapacity, hboxed, -, ⟨id', b, hid', hfind, hfills⟩, hboxed_le,
    hpending_le⟩ := hc
  cases hid.symm.trans hid'
  have hafter := Hub.find?_receive (h := s.hub) id r.turn id
  rw [if_pos rfl, hfind, Option.map_some] at hafter
  rw [hp.receive_eq]
  obtain ⟨boxed, hand, pending⟩ := x
  cases hhand
  rw [Hub.receive_of_some hfind] at hafter ⊢
  cases pending with
  | nil =>
    rw [hfills.receive_nil] at hafter ⊢
    refine ⟨⟨boxed, none, []⟩, ⟨hfree, hopen, htenant, hcapacity, hboxed, .waiting, ?_, hboxed_le,
      hpending_le⟩, rfl⟩
    exact ⟨id, b, hid, hafter, hfills⟩
  | cons text pending =>
    obtain ⟨lag, hreceive, hrest⟩ := hfills.receive_cons id r.turn
    rw [hreceive] at hafter ⊢
    refine ⟨⟨boxed, some text, pending⟩, ⟨hfree, hopen, htenant, hcapacity, hboxed, ?_, ?_,
      hboxed_le, Nat.le_of_succ_le hpending_le⟩, by simp [Load.all]⟩
    · show lane.Hands (some text) (.sending ((lane.message text).relayed r.tenant now))
      rw [htenant]
      exact .sending text now
    · exact ⟨id, _, hid, hafter, hrest⟩

theorem isReady_eq (hc : r.Carries lane x s.hub) (hp : s.Plain) {id : Nat}
    (hid : r.source = some id) : s.isReady id = decide (0 < x.pending.length) := by
  obtain ⟨id', b, hid', hfind, hfills⟩ := hc.inbox
  cases hid.symm.trans hid'
  have hover : (Subscription.mk id [b]).isOver = false := by
    simp [Subscription.isOver, hfills.linked]
  unfold Store.isReady
  rw [hfind, hp.line?_eq]
  simp only [hfills.waiting_eq, hover, Bool.or_false]

/-- A relay that asks goes on with the next message, or waits. -/
theorem ask? (hc : r.Carries lane x s.hub) (hp : s.Plain) (hhand : x.hand = none) (now : Timestamp) :
    (r.ask? s now = none ∧ r.isWaiting ∧ x.pending = []) ∨
    ∃ r' s' e y, r.ask? s now = some (r', s', e) ∧ r'.Carries lane y s'.hub ∧ y.all = x.all := by
  obtain ⟨id, -, hid, -⟩ := hc.inbox
  have hask : r.ask? s now = if r.isWaiting && !s.isReady id then none else
      some ((r.accept (s.receive id r.turn).1 now).1, (s.receive id r.turn).2.2,
        .ofLog (Lag.events (s.receive id r.turn).2.1) ++
          (r.accept (s.receive id r.turn).1 now).2) := by
    unfold Relay.ask? heed
    rw [hc.interruption?_eq, hid]
    rfl
  by_cases hstays : (r.isWaiting && !s.isReady id) = true
  · obtain ⟨hwaits, hidle⟩ := Bool.and_eq_true_iff.1 hstays
    rw [if_pos hstays] at hask
    rw [hc.isReady_eq hp hid, Bool.not_eq_true', decide_eq_false_iff_not, List.length_pos_iff,
      not_not] at hidle
    exact .inl ⟨hask, hwaits, hidle⟩
  · obtain ⟨y, hy, hall⟩ := hc.receive hp hid hhand now
    rw [if_neg hstays] at hask
    exact .inr ⟨_, _, _, y, hask, hy, hall⟩

/-- A relay with a message hands it over, or the mailbox is full. -/
theorem give? (hc : r.Carries lane x s.hub) {text : String} (hhand : x.hand = some text)
    {now : Timestamp} (hphase : r.phase = .sending ((lane.message text).relayed lane.tenant now)) :
    (r.give? s = none ∧ x.boxed.length = lane.room) ∨
    ∃ r' s' e y, r.give? s = some (r', s', e) ∧ r'.Carries lane y s'.hub ∧ y.all = x.all := by
  have hover : r.handOver = if r.mailbox.hasRoom then
      some ({ r with
          mailbox := r.mailbox.put (.message ((lane.message text).relayed lane.tenant now))
          phase := .asking }, .ofSamples [.relayMessage true])
      else none := by
    rw [handOver, hphase]
    simp only [hc.interruption?_eq]
  rw [Relay.give?, hover, hc.hasRoom_eq]
  by_cases hroom : x.boxed.length < lane.room
  · rw [decide_eq_true hroom, if_pos rfl]
    refine .inr ⟨_, s, _, ⟨x.boxed ++ [text], none, x.pending⟩, rfl, ?_, by simp [Load.all, hhand]⟩
    refine { hc with boxed := ?_, hand := .asking, boxed_le := ?_ }
    · exact List.rel_append hc.boxed (.cons ⟨now, rfl⟩ .nil)
    · rw [List.length_append, List.length_singleton]
      exact hroom
  · rw [decide_eq_false hroom]
    exact .inl ⟨rfl, Nat.le_antisymm hc.boxed_le (Nat.not_lt.1 hroom)⟩

/-- The relay moves its load on, or cannot. -/
theorem move? (hc : r.Carries lane x s.hub) (hp : s.Plain) (now : Timestamp) :
    (r.move? s now = none ∧ x.Rests lane.room) ∨
    ∃ r' s' e y, r.move? s now = some (r', s', e) ∧ r'.Carries lane y s'.hub ∧ y.all = x.all := by
  have hhands := hc.hand
  generalize hhand : x.hand = hand, hphase : r.phase = phase at hhands
  rw [Relay.move?, hphase]
  cases hhands with
  | asking =>
    rcases hc.ask? hp hhand now with ⟨-, hwaits, -⟩ | hmoved
    · rw [isWaiting, hphase] at hwaits
      cases hwaits
    · exact .inr hmoved
  | waiting =>
    refine (hc.ask? hp hhand now).imp_left ?_
    rintro ⟨hnone, -, hnil⟩
    exact ⟨hnone, .inl ⟨hhand, hnil⟩⟩
  | sending text told =>
    refine (hc.give? hhand hphase).imp_left fun ⟨hnone, hfull⟩ => ⟨hnone, .inr ⟨?_, hfull⟩⟩
    rw [hhand]
    rfl

/-! ## From outside -/

/-- At rest, a publish finds one queue. -/
theorem publish (hc : r.Carries lane x h) (hrest : x.Rests lane.room) (hsize : h.bufferSize = lane.size)
    (hpos : 0 < lane.size) (text : String) :
    ∃ y, r.Carries lane y (h.publish lane.channel text).2 ∧
      y.all = enqueue lane.size (lane.room + 1) x.all text := by
  obtain ⟨id, b, hid, hfind, hfills⟩ := hc.inbox
  have hheard : (h.publish lane.channel text).2.find? id =
      some ⟨id, [b.push lane.size (lane.message text)]⟩ := by
    rw [Hub.find?_publish, hfind, Option.map_some]
    simp [Hub.heard, hfills.channel_eq, hfills.linked, hsize, Lane.message]
  have hpush := hfills.push text
  have hafter : ∀ pending, lane.Fills pending (b.push lane.size (lane.message text)) →
      pending.length ≤ lane.size →
      r.Carries lane { x with pending } (h.publish lane.channel text).2 :=
    fun _ hfills hle => { hc with inbox := ⟨id, _, hid, hheard, hfills⟩, pending_le := hle }
  have hall : x.all = x.boxed ++ x.hand.toList ++ x.pending := rfl
  have hhand : x.hand.toList.length ≤ 1 := by cases x.hand <;> simp
  have hlength : x.all.length = x.boxed.length + x.hand.toList.length + x.pending.length := by
    rw [hall, List.length_append, List.length_append]
  by_cases hroom : x.pending.length < lane.size
  · rw [if_pos hroom] at hpush
    refine ⟨_, hafter _ hpush (by rwa [List.length_append, List.length_singleton]), ?_⟩
    have hboxed := hc.boxed_le
    rw [enqueue_of_room (by omega), hall, List.append_assoc]
    rfl
  · rw [if_neg hroom] at hpush
    have hle := hc.pending_le
    obtain ⟨oldest, rest, hpending⟩ := List.exists_cons_of_length_pos (l := x.pending) (by omega)
    -- the inbox is not empty, so the relay has all that it can take
    have hsafe : (x.boxed ++ x.hand.toList).length = lane.room + 1 := by
      rcases hrest with ⟨-, hnil⟩ | ⟨hsome, hfull⟩
      · cases hpending.symm.trans hnil
      · obtain ⟨text', hhand'⟩ := Option.isSome_iff_exists.1 hsome
        rw [List.length_append, hfull, hhand']
        rfl
    rw [hpending] at hpush hroom hle hall
    rw [List.length_cons] at hroom hle
    refine ⟨_, hafter _ hpush ?_, ?_⟩
    · show (rest ++ [text]).length ≤ lane.size
      rw [List.length_append, List.length_singleton]
      omega
    · rw [hall, enqueue_of_full hsafe (by omega)]
      simp [Load.all]

/-- The caller takes the first message. -/
theorem taken {text : String} {boxed : List String} (hc : r.Carries lane x h)
    (hboxed : x.boxed = text :: boxed) :
    ∃ item mailbox, r.mailbox.take? = some (item, mailbox) ∧ lane.Tells text item ∧
      ({ r with mailbox } : Relay).Carries lane { x with boxed } h := by
  have hitems := hc.boxed
  rw [hboxed] at hitems
  generalize hx : r.mailbox.items = items at hitems
  cases hitems with
  | @cons _ item _ rest htells hrest =>
    refine ⟨item, { r.mailbox with items := rest }, by rw [Mailbox.take?, hx], htells, ?_⟩
    have hle := hc.boxed_le
    rw [hboxed] at hle
    exact { hc with boxed := hrest, boxed_le := Nat.le_of_succ_le hle }

/-- Where nothing is in the mailbox, the caller gets nothing. -/
theorem take?_eq_none (hc : r.Carries lane x h) (hboxed : x.boxed = []) :
    r.mailbox.take? = none := by
  have hitems := hc.boxed
  rw [hboxed, List.forall₂_nil_left_iff] at hitems
  rw [Mailbox.take?, hitems]

end Relay.Carries

end Tenancy
