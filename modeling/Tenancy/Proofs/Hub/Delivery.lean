import Tenancy.Proofs.Hub.Held

/-!
# What subscriptions receive

A run of a hub that nobody closes, as a list of events. Of these, a subscription and a channel
concern only the publishes on the channel and the subscription's own takes from it: the `Tick`s.
`Tick.receipts` computes from them which messages are received: each take gives the first message
that was not passed yet and is among the latest that fit an inbox. `Hub.delivery_law` says that
hubs deliver just so, and tells what is skipped, what waits and what a publish reaches.
-/

namespace Tenancy

/-! ## Ticks -/

/-- A publish on a channel, or a take from it by a subscription. -/
inductive Tick where
  | put (payload : String)
  | take
  deriving DecidableEq, Repr

/-- The place of a received message among those published, and how many were published when it was
taken. -/
structure Receipt where
  index : Nat
  sent : Nat
  deriving DecidableEq, Repr

namespace Tick

def payload? : Tick → Option String
  | put payload => some payload
  | take => none

def payloads (ticks : List Tick) : List String := ticks.filterMap payload?

/-- What is received, with inboxes of the given size, if `next` messages are passed and `sent`
published before. -/
def receiptsFrom (size next sent : Nat) : List Tick → List Receipt
  | [] => []
  | put _ :: ticks => receiptsFrom size next (sent + 1) ticks
  | take :: ticks =>
    let index := max next (sent - size)
    ⟨index, sent⟩ :: receiptsFrom size (index + 1) sent ticks

def receipts (size : Nat) (ticks : List Tick) : List Receipt := receiptsFrom size 0 0 ticks

/-- How many messages are passed: received, or skipped by a later receipt. -/
def passed (next : Nat) : List Receipt → Nat
  | [] => next
  | x :: xs => passed (x.index + 1) xs

theorem passed_le {next j : Nat} {xs : List Receipt} (hn : next ≤ j) (hxs : ∀ x ∈ xs, x.index < j) :
    passed next xs ≤ j := by
  induction xs generalizing next with
  | nil => exact hn
  | cons x xs ih =>
    exact ih (hxs x List.mem_cons_self) fun y hy => hxs y (List.mem_cons_of_mem x hy)

section

variable {size next sent : Nat} {ticks : List Tick}

theorem receiptsFrom_bounds {x : Receipt} (hx : x ∈ receiptsFrom size next sent ticks) :
    next ≤ x.index ∧ x.sent ≤ sent + (payloads ticks).length := by
  induction ticks generalizing next sent with
  | nil => cases hx
  | cons tick ticks ih =>
    cases tick with
    | put p =>
      obtain ⟨hindex, hsent⟩ := ih hx
      have hlen : (payloads (put p :: ticks)).length = (payloads ticks).length + 1 := rfl
      omega
    | take =>
      have hlen : payloads (take :: ticks) = payloads ticks := rfl
      rcases List.mem_cons.1 hx with rfl | hx
      · exact ⟨Nat.le_max_left .., Nat.le_add_right ..⟩
      · obtain ⟨hindex, hsent⟩ := ih hx
        rw [hlen]
        omega

/-- Messages are received in order, each once. -/
theorem receiptsFrom_increasing :
    (receiptsFrom size next sent ticks).Pairwise fun x y => x.index < y.index := by
  induction ticks generalizing next sent with
  | nil => exact .nil
  | cons tick ticks ih =>
    cases tick with
    | put p => exact ih
    | take => exact List.pairwise_cons.2 ⟨fun y hy => (receiptsFrom_bounds hy).1, ih⟩

/-- Each receipt is as early as the ones before it and the size of the inbox allow. -/
theorem index_eq_of_split {pre post : List Receipt} {x : Receipt}
    (h : receiptsFrom size next sent ticks = pre ++ x :: post) :
    x.index = max (passed next pre) (x.sent - size) := by
  induction ticks generalizing next sent pre with
  | nil => simp [receiptsFrom] at h
  | cons tick ticks ih =>
    cases tick with
    | put p => exact ih h
    | take =>
      cases pre with
      | nil =>
        obtain ⟨rfl, -⟩ := List.cons.inj h
        rfl
      | cons y pre =>
        obtain ⟨rfl, htail⟩ := List.cons.inj h
        have htaken := ih htail
        exact htaken

/-- Of the messages that a receipt passes, those are skipped that are pushed out by then. -/
theorem skipped_iff {pre post : List Receipt} {x : Receipt}
    (h : receiptsFrom size next sent ticks = pre ++ x :: post) {j : Nat} (hn : next ≤ j)
    (hpre : ∀ y ∈ pre, y.index < j) (hj : j ≤ x.index) :
    j < x.index ↔ j + 1 + size ≤ x.sent := by
  have hindex := index_eq_of_split h
  have hpassed := passed_le hn hpre
  omega

end

end Tick

/-! ## Runs -/

namespace Hub

/-- What can be asked of a hub that is not closed. -/
inductive Op where
  | subscribe (channels : List String)
  | publish (channel payload : String)
  | receive (id turn : Nat)
  | unsubscribe (id : Nat)

inductive Event where
  | opened (id : Nat) (channels : List String)
  | published (channel payload : String) (reached : Nat)
  | taken (id : Nat) (m : Message)
  /-- Nothing could be taken. -/
  | waited (id : Nat)
  | dropped (id : Nat)

/-- What a receive comes to. -/
def Event.ofDelivery (id : Nat) : Delivery → Event
  | .message m => .taken id m
  | .nothing | .ended => .waited id

/-- What comes of an operation. -/
def does (h : Hub) : Op → Event × Hub
  | .subscribe channels => (.opened (h.subscribe channels).1 channels, (h.subscribe channels).2)
  | .publish channel payload =>
    (.published channel payload (h.publish channel payload).1, (h.publish channel payload).2)
  | .receive id turn => (.ofDelivery id (h.receive id turn).1, (h.receive id turn).2.2)
  | .unsubscribe id => (.dropped id, h.unsubscribe id)

def run (h : Hub) : List Op → List Event × Hub
  | [] => ([], h)
  | x :: xs => ((h.does x).1 :: ((h.does x).2.run xs).1, ((h.does x).2.run xs).2)

namespace Event

/-- What the event is to a subscription and a channel. -/
def tick? (id : Nat) (c : String) : Event → Option Tick
  | published channel payload _ => if channel = c then some (.put payload) else none
  | taken j m => if j = id ∧ m.channel = c then some .take else none
  | _ => none

/-- The message that the subscription receives from the channel. -/
def message? (id : Nat) (c : String) : Event → Option Message
  | taken j m => if j = id ∧ m.channel = c then some m else none
  | _ => none

def ticks (id : Nat) (c : String) (es : List Event) : List Tick := es.filterMap (tick? id c)

def received (id : Nat) (c : String) (es : List Event) : List Message :=
  es.filterMap (message? id c)

end Event

/-- The subscription, if it is still open, has passed `next` of the messages sent on the channel
since it was opened; of the others the latest that fit wait in its inbox. -/
structure Follows (id : Nat) (c : String) (sent : List String) (next : Nat) (h : Hub) : Prop where
  stocked : h.Stocked
  known : id < h.nextId
  next_le : next ≤ sent.length
  held : ∀ s, h.find? id = some s → c ∈ s.channels ∧
    s.held c = (sent.drop (max next (sent.length - h.bufferSize))).map (Message.mk c)

/-- What an event makes of what was sent and passed, and what is received by it. -/
inductive Follows.Next (id : Nat) (c : String) (sent : List String) (next : Nat) (size : Nat)
    (e : Event) (h : Hub) : Prop where
  | other (ht : e.tick? id c = none) (hm : e.message? id c = none) (hf : h.Follows id c sent next)
  | put (p : String) (ht : e.tick? id c = some (.put p)) (hm : e.message? id c = none)
    (hf : h.Follows id c (sent ++ [p]) next)
  | take (p : String) (ht : e.tick? id c = some .take)
    (hp : sent[max next (sent.length - size)]? = some p) (hm : e.message? id c = some ⟨c, p⟩)
    (hf : h.Follows id c sent (max next (sent.length - size) + 1))

/-- The latest of what waited and one more message. -/
theorem rtake_drop_snoc {α : Type} {l : List α} {next : Nat} (hn : next ≤ l.length) (size : Nat)
    (a : α) :
    (l.drop (max next (l.length - size)) ++ [a]).rtake size =
      (l ++ [a]).drop (max next ((l ++ [a]).length - size)) := by
  have hle : max next (l.length - size) ≤ l.length := by omega
  rw [← List.drop_append_of_le_length hle, List.rtake, List.drop_drop, List.length_drop,
    List.length_append, List.length_singleton]
  congr 1
  omega

variable {id : Nat} {c : String} {sent : List String} {next : Nat} {h : Hub}

namespace Follows

theorem subscribe (hf : h.Follows id c sent next) (channels : List String) :
    (h.subscribe channels).2.Follows id c sent next where
  stocked := hf.stocked.subscribe channels
  known := Nat.lt_succ_of_lt hf.known
  next_le := hf.next_le
  held s hs := by
    have hne : id ≠ h.nextId := Nat.ne_of_lt hf.known
    rw [hf.stocked.tidy.find?_subscribe, if_neg hne] at hs
    exact hf.held s hs

theorem unsubscribe (hf : h.Follows id c sent next) (j : Nat) :
    (h.unsubscribe j).Follows id c sent next := by
  obtain ⟨hcapacity, hnext⟩ := hf.stocked.tidy.unsubscribe_capacity j
  refine ⟨hf.stocked.unsubscribe j, hnext ▸ hf.known, hf.next_le, fun s hs => ?_⟩
  rw [hf.stocked.tidy.find?_unsubscribe] at hs
  split at hs
  · cases hs
  · unfold bufferSize
    rw [hcapacity]
    exact hf.held s hs

theorem publish_other (hf : h.Follows id c sent next) {channel : String} (hc : c ≠ channel)
    (payload : String) : (h.publish channel payload).2.Follows id c sent next where
  stocked := hf.stocked.publish channel payload
  known := hf.known
  next_le := hf.next_le
  held s hs := by
    rw [find?_publish] at hs
    obtain ⟨s', hs', rfl⟩ := Option.map_eq_some_iff.1 hs
    obtain ⟨hmem, hheld⟩ := hf.held s' hs'
    rw [Subscription.channels_congr (h.ears_heard channel payload s'),
      hf.stocked.held_heard (mem_of_find? hs').1, if_neg fun hand => hc hand.1]
    exact ⟨hmem, hheld⟩

theorem publish_own (hf : h.Follows id c sent next) (payload : String) :
    (h.publish c payload).2.Follows id c (sent ++ [payload]) next where
  stocked := hf.stocked.publish c payload
  known := hf.known
  next_le := by
    have hle := hf.next_le
    rw [List.length_append]
    omega
  held s hs := by
    rw [find?_publish] at hs
    obtain ⟨s', hs', rfl⟩ := Option.map_eq_some_iff.1 hs
    obtain ⟨hmem, hheld⟩ := hf.held s' hs'
    rw [Subscription.channels_congr (h.ears_heard c payload s'),
      hf.stocked.held_heard (mem_of_find? hs').1, if_pos ⟨rfl, hmem⟩, hheld]
    have hlen : next ≤ (sent.map (Message.mk c)).length := by
      rw [List.length_map]
      exact hf.next_le
    have hlatest := rtake_drop_snoc hlen h.bufferSize ⟨c, payload⟩
    have hsnoc : (sent ++ [payload]).map (Message.mk c) =
        sent.map (Message.mk c) ++ [⟨c, payload⟩] :=
      List.map_append
    rw [List.map_drop, List.map_drop, hsnoc]
    rw [← hsnoc, List.length_map, List.length_map, hsnoc] at hlatest
    exact ⟨hmem, hlatest⟩

/-- The takes of others, and takes from other channels. -/
theorem receive_other (hf : h.Follows id c sent next) (j turn : Nat)
    (hother : ∀ s, j = id → h.find? id = some s →
      (s.receive turn).2.2.channels = s.channels ∧ (s.receive turn).2.2.held c = s.held c) :
    (h.receive j turn).2.2.Follows id c sent next := by
  obtain ⟨-, hnext, hcapacity⟩ := h.receive_counts j turn
  refine ⟨hf.stocked.receive j turn, hnext ▸ hf.known, hf.next_le, fun s hs => ?_⟩
  unfold bufferSize
  rw [hcapacity]
  rw [find?_receive] at hs
  split at hs
  · rename_i hid
    obtain ⟨s', hs', rfl⟩ := Option.map_eq_some_iff.1 hs
    obtain ⟨hchannels, hheld⟩ := hother s' hid.symm (hid ▸ hs')
    rw [hchannels, hheld]
    exact hf.held s' (hid ▸ hs')
  · exact hf.held s hs

/-- A take from the channel gives the first message that waits. -/
theorem receive_own (hf : h.Follows id c sent next) {s : Subscription} (hs : h.find? id = some s)
    {turn : Nat} {m : Message} {rest : List Message} {lag : Option Lag}
    (hheld : s.held c = m :: rest)
    (hr : s.receive turn = (.message m, lag, s.taken c)) :
    (∃ p, sent[max next (sent.length - h.bufferSize)]? = some p ∧ m = ⟨c, p⟩) ∧
      (h.receive id turn).2.2.Follows id c sent (max next (sent.length - h.bufferSize) + 1) := by
  obtain ⟨hmem, hwaits⟩ := hf.held s hs
  obtain ⟨-, hnext, hcapacity⟩ := h.receive_counts id turn
  have hsize : (h.receive id turn).2.2.bufferSize = h.bufferSize := by
    unfold bufferSize
    rw [hcapacity]
  generalize hi : max next (sent.length - h.bufferSize) = i at hwaits ⊢
  have hlt : i < sent.length := by
    have hlen := congrArg List.length (hheld.symm.trans hwaits)
    rw [List.length_cons, List.length_map, List.length_drop] at hlen
    omega
  rw [List.drop_eq_getElem_cons hlt, List.map_cons, hheld] at hwaits
  obtain ⟨hm, hrest⟩ := List.cons.inj hwaits
  refine ⟨⟨sent[i], List.getElem?_eq_getElem hlt, hm⟩, hf.stocked.receive id turn,
    hnext ▸ hf.known, hlt, fun s' hs' => ?_⟩
  rw [find?_receive, if_pos rfl, hs, Option.map_some, hr] at hs'
  cases hs'
  have hmax : max (i + 1) (sent.length - h.bufferSize) = i + 1 := by omega
  rw [Subscription.channels_congr (s.ears_taken c), s.held_taken, if_pos rfl, hheld, hsize, hmax]
  exact ⟨hmem, hrest⟩

/-- One operation. -/
theorem does (hf : h.Follows id c sent next) (op : Op) :
    Next id c sent next h.bufferSize (h.does op).1 (h.does op).2 := by
  cases op with
  | subscribe channels => exact .other rfl rfl (hf.subscribe channels)
  | unsubscribe j => exact .other rfl rfl (hf.unsubscribe j)
  | publish channel payload =>
    by_cases hc : channel = c
    · subst hc
      exact .put payload (if_pos rfl) rfl (hf.publish_own payload)
    · exact .other (if_neg hc) rfl (hf.publish_other (Ne.symm hc) payload)
  | receive j turn =>
    cases hs : h.find? j with
    | none =>
      have hr := receive_of_none hs turn
      have hother := hf.receive_other j turn fun s hj hsome => by
        rw [hj] at hs
        cases hs.symm.trans hsome
      refine .other ?_ ?_ hother <;> rw [Hub.does, hr] <;> rfl
    | some s =>
      have hr := receive_of_some hs turn
      rcases s.receive_eq turn with ⟨d, m, lag, rest, hheld, -, hsr⟩ | ⟨d, hd, hsr⟩
      · have hlabel : m.channel = d :=
          hf.stocked.channel_of_held (mem_of_find? hs).1 (hheld ▸ List.mem_cons_self)
        have hevent : (h.does (.receive j turn)).1 = .taken j m := by
          rw [Hub.does, hr, hsr]
          rfl
        rw [hevent]
        by_cases hown : j = id ∧ m.channel = c
        · obtain ⟨rfl, hc⟩ := hown
          have hdc : d = c := hlabel.symm.trans hc
          subst hdc
          obtain ⟨⟨p, hp, hm⟩, hf'⟩ := hf.receive_own hs hheld hsr
          refine .take p (if_pos ⟨rfl, hlabel⟩) hp ?_ hf'
          exact (if_pos ⟨rfl, hlabel⟩).trans (congrArg some hm)
        · refine .other (if_neg hown) (if_neg hown) (hf.receive_other j turn fun s' hj hs' => ?_)
          have hsame : s' = s := Option.some.inj (hs'.symm.trans (hj ▸ hs))
          have hdc : c ≠ d := fun hdc => hown ⟨hj, hlabel.trans hdc.symm⟩
          rw [hsame, hsr]
          have hheld' : (s.taken d).held c = s.held c := (s.held_taken d c).trans (if_neg hdc)
          exact ⟨Subscription.channels_congr (s.ears_taken d), hheld'⟩
      · have hother := hf.receive_other j turn fun s' hj hs' => by
          have hsame : s' = s := Option.some.inj (hs'.symm.trans (hj ▸ hs))
          rw [hsame, hsr]
          exact ⟨rfl, rfl⟩
        have hevent : (h.does (.receive j turn)).1 = .waited j := by
          rw [Hub.does, hr, hsr]
          cases d with
          | message m => exact absurd rfl (hd m)
          | nothing | ended => rfl
        rw [hevent]
        exact .other rfl rfl hother

end Follows

/-! ## Whole runs -/

theorem Stocked.does (hh : h.Stocked) (op : Op) :
    (h.does op).2.Stocked ∧ (h.does op).2.bufferSize = h.bufferSize := by
  unfold bufferSize
  cases op with
  | subscribe channels => exact ⟨hh.subscribe channels, rfl⟩
  | publish channel payload => exact ⟨hh.publish channel payload, rfl⟩
  | receive id turn =>
    have hcapacity : (h.does (.receive id turn)).2.capacity = h.capacity :=
      (h.receive_counts id turn).2.2
    exact ⟨hh.receive id turn, by rw [hcapacity]⟩
  | unsubscribe id =>
    have hcapacity : (h.does (.unsubscribe id)).2.capacity = h.capacity :=
      (hh.tidy.unsubscribe_capacity id).1
    exact ⟨hh.unsubscribe id, by rw [hcapacity]⟩

theorem Stocked.run (hh : h.Stocked) (ops : List Op) :
    (h.run ops).2.Stocked ∧ (h.run ops).2.bufferSize = h.bufferSize := by
  induction ops generalizing h with
  | nil => exact ⟨hh, rfl⟩
  | cons op ops ih =>
    obtain ⟨hdone, hsize⟩ := hh.does op
    obtain ⟨hrun, hsame⟩ := ih hdone
    exact ⟨hrun, hsame.trans hsize⟩

/-- A subscription follows each of its channels from the start. -/
theorem Stocked.follows_opened (hh : h.Stocked) {channels : List String} (hc : c ∈ channels) :
    (h.subscribe channels).2.Follows h.nextId c [] 0 where
  stocked := hh.subscribe channels
  known := Nat.lt_succ_self h.nextId
  next_le := Nat.le_refl 0
  held s hs := by
    rw [hh.tidy.find?_subscribe, if_pos rfl] at hs
    cases hs
    have hnames : (opened h.nextId channels).channels = distinct channels :=
      channels_opened h.nextId channels
    have hmem : c ∈ (opened h.nextId channels).channels := by
      rw [hnames]
      exact mem_distinct.2 hc
    refine ⟨hmem, ?_⟩
    obtain ⟨b, hb, rfl⟩ := List.mem_map.1 hmem
    have hfind :=
      Subscription.find?_of_nodup (whole_opened h.nextId channels).channels_nodup hb
    rw [Subscription.held_of_find? hfind, List.drop_nil]
    obtain ⟨d, -, rfl⟩ := List.mem_map.1 hb
    rfl

/-- From where the subscription stands, after `sent` messages of which it has passed `next`, the
ticks let it receive the messages `ms` and leave the hub `h'`. -/
structure Delivers (id : Nat) (c : String) (size next : Nat) (sent : List String)
    (ticks : List Tick) (ms : List Message) (h' : Hub) : Prop where
  received : ms.map some = (Tick.receiptsFrom size next sent.length ticks).map fun x =>
    (sent ++ Tick.payloads ticks)[x.index]?.map (Message.mk c)
  index_lt : ∀ x ∈ Tick.receiptsFrom size next sent.length ticks, x.index < x.sent
  follows : h'.Follows id c (sent ++ Tick.payloads ticks)
    (Tick.passed next (Tick.receiptsFrom size next sent.length ticks))

namespace Delivers

variable {size : Nat} {ticks : List Tick} {ms : List Message} {h' : Hub} {p : String}

theorem nil (hf : h.Follows id c sent next) : Delivers id c size next sent [] [] h where
  received := rfl
  index_lt x hx := by cases hx
  follows := (List.append_nil sent).symm ▸ hf

theorem put (hd : Delivers id c size next (sent ++ [p]) ticks ms h') :
    Delivers id c size next sent (.put p :: ticks) ms h' := by
  obtain ⟨hreceived, hlt, hfollows⟩ := hd
  rw [List.length_append, List.append_assoc] at *
  exact ⟨hreceived, hlt, hfollows⟩

theorem take (hp : sent[max next (sent.length - size)]? = some p)
    (hd : Delivers id c size (max next (sent.length - size) + 1) sent ticks ms h') :
    Delivers id c size next sent (.take :: ticks) (⟨c, p⟩ :: ms) h' := by
  obtain ⟨hreceived, hlt, hfollows⟩ := hd
  obtain ⟨hbound, -⟩ := List.getElem?_eq_some_iff.1 hp
  refine ⟨?_, ?_, hfollows⟩
  · have hfirst : (sent ++ Tick.payloads (.take :: ticks))[max next (sent.length - size)]? =
        some p := (List.getElem?_append_left hbound).trans hp
    rw [Tick.receiptsFrom, List.map_cons, List.map_cons, hfirst]
    exact congrArg (_ :: ·) hreceived
  · intro x hx
    rcases List.mem_cons.1 hx with rfl | hx
    · exact hbound
    · exact hlt x hx

end Delivers

theorem Follows.run (hf : h.Follows id c sent next) (ops : List Op) :
    Delivers id c h.bufferSize next sent (Event.ticks id c (h.run ops).1)
      (Event.received id c (h.run ops).1) (h.run ops).2 := by
  induction ops generalizing h sent next with
  | nil => exact .nil hf
  | cons op ops ih =>
    have hsize := (hf.stocked.does op).2
    unfold Hub.run Event.ticks Event.received
    rcases hf.does op with ⟨ht, hm, hf'⟩ | ⟨p, ht, hm, hf'⟩ | ⟨p, ht, hp, hm, hf'⟩
    · have htail := ih hf'
      rw [hsize] at htail
      rw [List.filterMap_cons_none ht, List.filterMap_cons_none hm]
      exact htail
    · have htail := ih hf'
      rw [hsize] at htail
      rw [List.filterMap_cons_some ht, List.filterMap_cons_none hm]
      exact .put htail
    · have htail := ih hf'
      rw [hsize] at htail
      rw [List.filterMap_cons_some ht, List.filterMap_cons_some hm]
      exact .take hp htail

/-- How a subscription is served from a channel: what it received, and what the hub `h` still has
for it. -/
structure Served (id : Nat) (c : String) (size : Nat) (ticks : List Tick) (ms : List Message)
    (h : Hub) : Prop where
  /-- It received the messages that its receipts name, as they were published. -/
  received : ms.map some =
    (Tick.receipts size ticks).map fun x => (Tick.payloads ticks)[x.index]?.map (Message.mk c)
  published : ∀ x ∈ Tick.receipts size ticks,
    x.index < x.sent ∧ x.sent ≤ (Tick.payloads ticks).length
  increasing : (Tick.receipts size ticks).Pairwise fun x y => x.index < y.index
  /-- Of the messages that a receipt passes, those are skipped after which `size` or more were
  published by then. -/
  skipped_iff : ∀ pre x post, Tick.receipts size ticks = pre ++ x :: post →
    ∀ j, (∀ y ∈ pre, y.index < j) → j ≤ x.index → (j < x.index ↔ j + 1 + size ≤ x.sent)
  /-- While it is open, the latest of the others wait, and the first that waits can be taken. -/
  waiting : ∀ s, h.find? id = some s →
    let sent := Tick.payloads ticks
    let passed := Tick.passed 0 (Tick.receipts size ticks)
    s.held c = (sent.drop (max passed (sent.length - size))).map (Message.mk c) ∧
      ∀ m ∈ (s.held c).head?, ∃ turn, (h.receive id turn).1 = .message m

theorem Delivers.served {size : Nat} {ticks : List Tick} {ms : List Message} {h' : Hub}
    (hd : Delivers id c size 0 [] ticks ms h') (hsize : h'.bufferSize = size) :
    Served id c size ticks ms h' where
  received := hd.received
  published x hx := by
    have hbound := (Tick.receiptsFrom_bounds hx).2
    rw [Nat.zero_add] at hbound
    exact ⟨hd.index_lt x hx, hbound⟩
  increasing := Tick.receiptsFrom_increasing
  skipped_iff _ _ _ hsplit j hpre hj := Tick.skipped_iff hsplit (Nat.zero_le j) hpre hj
  waiting s hs := by
    have hheld := (hd.follows.held s hs).2
    rw [hsize] at hheld
    refine ⟨hheld, fun m hm => ?_⟩
    obtain ⟨rest, hrest⟩ := List.head?_eq_some_iff.1 hm
    obtain ⟨turn, hturn⟩ := Subscription.exists_turn hrest
    exact ⟨turn, by rw [receive_of_some hs, hturn]⟩

theorem Served.received_congr {id' size : Nat} {ticks ticks' : List Tick} {ms ms' : List Message}
    {h' : Hub} (hs : Served id c size ticks ms h) (hs' : Served id' c size ticks' ms' h')
    (ht : ticks = ticks') : ms = ms' := by
  subst ht
  exact List.map_injective_iff.2 (fun _ _ => Option.some.inj) (hs.received.trans hs'.received.symm)

/-- Take a subscription as it is opened, whatever happened before, any operations after that, and
one of its channels. It is served as its ticks tell, and nothing else matters: a subscription with
the same ticks in another run receives the same. A publish gives the number of subscriptions for
which the message waits then, behind the latest of the others. -/
theorem delivery_law (capacity : Nat) (before : List Op) (channels : List String) (ops : List Op) :
    let size := (max capacity 1).nextPowerOfTwo
    let (id, start) := (run { capacity } before).2.subscribe channels
    let (es, h) := start.run ops
    (∀ c ∈ channels,
      Served id c size (Event.ticks id c es) (Event.received id c es) h ∧
      ∀ before' channels' ops', c ∈ channels' →
        let (id', start') := (run { capacity } before').2.subscribe channels'
        let (es', _) := start'.run ops'
        Event.ticks id' c es' = Event.ticks id c es →
          Event.received id' c es' = Event.received id c es) ∧
    ∀ c payload,
      let (reached, h') := h.publish c payload
      reached = (h.subscriptions.countP fun s => c ∈ s.channels) ∧
      ∀ s ∈ h.subscriptions, ∃ s', h'.find? s.id = some s' ∧ ∀ d, s'.held d =
        if d = c ∧ d ∈ s.channels then (s.held d ++ [(⟨c, payload⟩ : Message)]).rtake size
        else s.held d := by
  intro size
  have hserved : ∀ before channels ops,
      let h := (run { capacity } before).2
      let h' := ((h.subscribe channels).2.run ops).2
      let es := ((h.subscribe channels).2.run ops).1
      h'.Stocked ∧ h'.bufferSize = size ∧ ∀ c ∈ channels,
        Served h.nextId c size (Event.ticks h.nextId c es) (Event.received h.nextId c es) h' := by
    intro before channels ops
    obtain ⟨hstocked, hsize⟩ := (stocked_start capacity).run before
    obtain ⟨hstocked', hsize'⟩ := (hstocked.subscribe channels).run ops
    have hsame : (run { capacity } before).2.bufferSize = size := hsize
    refine ⟨hstocked', hsize'.trans hsize, fun c hc => ?_⟩
    have hdelivers := (hstocked.follows_opened hc).run ops
    rw [hsize'.symm, hsize'.trans hsize] at hdelivers
    exact hdelivers.served (hsize'.trans hsize)
  obtain ⟨hstocked, hsize, hall⟩ := hserved before channels ops
  refine ⟨fun c hc => ⟨hall c hc, fun before' channels' ops' hc' hticks => ?_⟩, fun c payload => ?_⟩
  · have hother := (hserved before' channels' ops').2.2 c hc'
    exact hother.received_congr (hall c hc) hticks
  · rw [← hsize]
    exact hstocked.publish_reaches c payload

/-- A slow reader of two channels. The first take skips one message and the second two, whatever the
other subscription takes and the other channel carries. -/
theorem delivery_law_slow_reader :
    let ops : List Op :=
      [.publish "a" "1", .publish "b" "x", .receive 0 0, .publish "a" "2", .publish "a" "3",
        .receive 1 0, .unsubscribe 0, .publish "a" "4", .publish "a" "5", .publish "a" "6",
        .receive 1 0]
    let (id, start) := (run { capacity := 2 } [.subscribe ["a"]]).2.subscribe ["a", "b"]
    let (es, h) := start.run ops
    "a" ∈ ["a", "b"] ∧ Event.received id "a" es = [⟨"a", "2"⟩, ⟨"a", "5"⟩] ∧
      ∃ turn, (h.receive id turn).1 = .message ⟨"a", "6"⟩ := by
  intro ops
  have hmem : "a" ∈ ["a", "b"] := List.mem_cons_self
  obtain ⟨hserved, -⟩ := (delivery_law 2 [.subscribe ["a"]] ["a", "b"] ops).1 "a" hmem
  refine ⟨hmem, ?_, ?_⟩
  · refine List.map_injective_iff.2 (fun _ _ => Option.some.inj) (hserved.received.trans ?_)
    decide +kernel
  · have hopen :
        (((run { capacity := 2 } [.subscribe ["a"]]).2.subscribe ["a", "b"]).2.run ops).2.find? 1 =
          some ⟨1, [{ channel := "a", pending := [⟨"a", "6"⟩] },
            { channel := "b", pending := [⟨"b", "x"⟩] }]⟩ := by decide +kernel
    exact (hserved.waiting _ hopen).2 _ rfl

end Hub

end Tenancy
