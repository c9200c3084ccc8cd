import Tenancy.Proofs.Hub.Waiting
import Tenancy.Proofs.Relay.Pipe
import Tenancy.Proofs.Relay.Stop

/-!
# Relays and their listeners

A listener asks for channels by their logical names and reads what a relay puts into a mailbox. A
relay that is not interrupted takes from its subscription, hands over, or tells of the end
(`Relay.Goes`). `Listener.Account` says how what the listener got, what is in the mailbox and what the
relay has in its hand go together with the backlogs of the channels; every move keeps it
(`Listener.Account.goes`).
-/

namespace Tenancy

/-! ## Moves that nothing interrupts -/

namespace Relay

/-- A move of a relay that is not interrupted. -/
inductive Goes (r : Relay) (s : Store) (now : Timestamp) : Relay → Store → Prop where
  | take (id : Nat) (hid : r.source = some id) (hasks : r.Asks) :
    Goes r s now (r.accept (s.receive id r.turn).1 now).1 (s.receive id r.turn).2.2
  | give (m : RelayedMessage) (hphase : r.phase = .sending m) :
    Goes r s now { r with mailbox := r.mailbox.put (.message m), phase := .asking } s
  | tell (e : StoreError) (o : RelayOutcome) (hphase : r.phase = .reporting e o) :
    Goes r s now
      { r with mailbox := r.mailbox.put (.failure (.ofStore e)), phase := .ended o } (r.release s)

/-- The relay cannot move: it has ended, its caller has all that the mailbox holds, or there is nothing
to take. -/
def Stuck (id : Nat) (s : Store) (r : Relay) : Prop :=
  r.isEnded = true ∨ r.mailbox.hasRoom = false ∨ r.phase = .waiting ∧ s.isReady id = false

variable {r r' : Relay} {s s' : Store} {now : Timestamp} {e : Effects} {id : Nat}

theorem ask?_cases (hi : r.interruption? = none) (hid : r.source = some id) (hasks : r.Asks)
    (now : Timestamp) :
    (r.ask? s now = none ∧ r.phase = .waiting ∧ s.isReady id = false) ∨
    ∃ r' s' e, r.ask? s now = some (r', s', e) ∧ r.Goes s now r' s' := by
  have hask : r.ask? s now = if r.isWaiting && !s.isReady id then none else
      some ((r.accept (s.receive id r.turn).1 now).1, (s.receive id r.turn).2.2,
        .ofLog (Lag.events (s.receive id r.turn).2.1) ++
          (r.accept (s.receive id r.turn).1 now).2) := by
    unfold ask? heed
    rw [hi, hid]
    rfl
  rw [hask]
  split
  · rename_i hstays
    obtain ⟨hwaits, hidle⟩ := Bool.and_eq_true_iff.1 hstays
    refine .inl ⟨rfl, ?_, Bool.not_eq_true' _ ▸ hidle⟩
    rcases hasks with hp | hp
    · rw [isWaiting, hp] at hwaits
      cases hwaits
    · exact hp
  · exact .inr ⟨_, _, _, rfl, .take id hid hasks⟩

theorem give?_cases (hi : r.interruption? = none) (hasks : ¬ r.Asks) (hended : r.isEnded = false)
    (now : Timestamp) :
    (r.give? s = none ∧ r.mailbox.hasRoom = false) ∨
    ∃ r' s' e, r.give? s = some (r', s', e) ∧ r.Goes s now r' s' := by
  unfold give? handOver
  cases hp : r.phase with
  | asking => exact absurd (.inl hp) hasks
  | waiting => exact absurd (.inr hp) hasks
  | sending m =>
    simp only [hi]
    cases r.mailbox.hasRoom with
    | false => exact .inl ⟨rfl, rfl⟩
    | true => exact .inr ⟨_, _, _, rfl, .give m hp⟩
  | reporting err o =>
    simp only [hi]
    cases r.mailbox.hasRoom with
    | false => exact .inl ⟨rfl, rfl⟩
    | true => exact .inr ⟨_, _, _, rfl, .tell err o hp⟩
  | ended o =>
    rw [isEnded_iff.2 ⟨o, hp⟩] at hended
    cases hended

/-- A relay that is not interrupted goes on, or cannot move. -/
theorem move?_cases (hi : r.interruption? = none) (hid : r.source = some id) (s : Store)
    (now : Timestamp) :
    (r.move? s now = none ∧ r.Stuck id s) ∨
    ∃ r' s' e, r.move? s now = some (r', s', e) ∧ r.Goes s now r' s' := by
  cases hended : r.isEnded with
  | true => exact .inl ⟨move?_of_ended hended s now, .inl hended⟩
  | false =>
    by_cases hasks : r.Asks
    · have hmove : r.move? s now = r.ask? s now := by
        unfold move?
        rcases hasks with hp | hp <;> rw [hp]
      rw [hmove]
      exact (ask?_cases hi hid hasks now).imp_left (And.imp_right fun h => .inr (.inr h))
    · have hmove : r.move? s now = r.give? s := by
        unfold move?
        cases hp : r.phase with
        | asking => exact absurd (.inl hp) hasks
        | waiting => exact absurd (.inr hp) hasks
        | sending m => rfl
        | reporting err o => rfl
        | ended o =>
          rw [isEnded_iff.2 ⟨o, hp⟩] at hended
          cases hended
      rw [hmove]
      exact (give?_cases hi hasks hended now).imp_left (And.imp_right fun h => .inr (.inl h))

theorem goes_of_move? (hi : r.interruption? = none) (hid : r.source = some id)
    (h : r.move? s now = some (r', s', e)) : r.Goes s now r' s' := by
  rcases move?_cases hi hid s now with ⟨hnone, -⟩ | ⟨r₁, s₁, e₁, hsome, hgoes⟩
  · cases hnone.symm.trans h
  · cases hsome.symm.trans h
    exact hgoes

/-- A mailbox keeps its size. -/
theorem Goes.capacity_eq (h : r.Goes s now r' s') : r'.mailbox.capacity = r.mailbox.capacity := by
  cases h with
  | take id hid hasks => cases (s.receive id r.turn).1 <;> rfl
  | give m hphase => rfl
  | tell err o hphase => rfl

/-- The message that the relay is about to hand over. -/
def hand? (r : Relay) : Option RelayedMessage :=
  match r.phase with
  | .sending m => some m
  | _ => none

theorem hand?_of_asks (h : r.Asks) : r.hand? = none := by
  unfold hand?
  rcases h with hp | hp <;> rw [hp]

theorem hand?_of_sending {m : RelayedMessage} (h : r.phase = .sending m) : r.hand? = some m := by
  unfold hand?
  rw [h]

theorem hand?_of_reporting {err : StoreError} {o : RelayOutcome} (h : r.phase = .reporting err o) :
    r.hand? = none := by
  unfold hand?
  rw [h]

end Relay

/-! ## Listeners -/

/-- Who asked for channels, and reads what comes of them. -/
structure Listener where
  tenant : Tenant
  /-- The logical names that were asked for. -/
  names : List String
  /-- The subscription that was opened. -/
  id : Nat
  /-- What the relay is known by. -/
  handle : Nat
  deriving DecidableEq, Repr

/-- The relay reads the feed of the listener. -/
structure Relay.Serves (who : Listener) (r : Relay) : Prop where
  tenant : r.tenant = who.tenant
  channels : r.channels = who.tenant.channels who.names
  source : r.source = some who.id

theorem Relay.Serves.move {who : Listener} {r r' : Relay} {s s' : Store} {now : Timestamp}
    (h : r.Serves who) (hm : r.Moves s now r' s') : r'.Serves who :=
  ⟨hm.tenant_eq.trans h.tenant, hm.channels_eq.trans h.channels, hm.source_eq.trans h.source⟩

namespace Tenant

variable {t : Tenant} {names : List String}

theorem isolate_injective (t : Tenant) : t.isolate.Injective :=
  Function.LeftInverse.injective t.deisolate_isolate

theorem mem_channels {c : String} : c ∈ t.channels names ↔ ∃ n ∈ names, t.isolate n = c := by
  rw [channels, List.mem_map]
  simp only [mem_distinct]

theorem nodup_channels (t : Tenant) (names : List String) : (t.channels names).Nodup :=
  (nodup_distinct names).map t.isolate_injective

theorem distinct_channels (t : Tenant) (names : List String) :
    distinct (t.channels names) = t.channels names :=
  distinct_of_nodup (t.nodup_channels names)

end Tenant

namespace Listener

/-- What tells of the end: an error of the store, with the distinct names that were asked for. -/
def closing (who : Listener) : RelayItem :=
  .failure ⟨.storeError, "Subscription to channel " ++ ",".intercalate (distinct who.names) ++
    " was closed by the store"⟩

/-- The relay tells of the end in these words. -/
theorem closing_eq {who : Listener} {r : Relay} (h : r.Serves who) :
    RelayItem.failure (.ofStore r.closedError) = who.closing := by
  have hnames : (who.tenant.channels who.names).map who.tenant.deisolate = distinct who.names := by
    rw [Tenant.channels, List.map_map]
    exact map_eq_self fun n _ => who.tenant.deisolate_isolate n
  unfold Relay.closedError
  rw [h.tenant, h.channels, hnames]
  rfl

/-- The messages are those that were read of the backlogs, each under the name that was asked for. -/
structure Told (who : Listener) (texts : String → List String) (b : String → Backlog)
    (msgs : List RelayedMessage) : Prop where
  known : ∀ m ∈ msgs, m.channel ∈ who.names
  read : ∀ n ∈ who.names,
    (msgs.filter (·.channel = n)).map (fun m => some m.payload) = (b n).read.map ((texts n)[·]?)

/-- The subscription holds what waits of the backlogs. -/
def Waits (who : Listener) (texts : String → List String) (b : String → Backlog) (h : Hub) : Prop :=
  ∃ sub, h.find? who.id = some sub ∧ sub.channels = who.tenant.channels who.names ∧
    ∀ n ∈ who.names, sub.Holds (who.tenant.isolate n) (texts n) (b n).waiting

/-- What the listener got, what is in the mailbox and what the relay has in its hand are what was read
of the backlogs. -/
inductive Account (who : Listener) (texts : String → List String) (b : String → Backlog)
    (got : List RelayItem) (s : Store) (r : Relay) : Prop where
  | carries (msgs : List RelayedMessage) (hphase : r.Forwards) (htold : who.Told texts b msgs)
    (hitems : got ++ r.mailbox.items ++ (r.hand?.map .message).toList = msgs.map .message)
    (hwaits : who.Waits texts b s.hub) : Account who texts b got s r
  /-- The subscription has ended, and nothing waits any more. -/
  | closes (msgs : List RelayedMessage)
    (hphase : r.phase = .reporting r.closedError .sourceClosed) (htold : who.Told texts b msgs)
    (hitems : got ++ r.mailbox.items = msgs.map .message)
    (hdone : ∀ n ∈ who.names, s.closed = true ∧ (b n).waiting = []) : Account who texts b got s r
  | closed (msgs : List RelayedMessage) (hphase : r.phase = .ended .sourceClosed)
    (htold : who.Told texts b msgs)
    (hitems : got ++ r.mailbox.items = msgs.map .message ++ [who.closing])
    (hdone : ∀ n ∈ who.names, s.closed = true ∧ (b n).waiting = []) : Account who texts b got s r

end Listener

/-! ## What moves take -/

/-- What the relay took of a channel when its hand went from the first to the second. -/
def took? : Option RelayedMessage → Option RelayedMessage → String → Option Tick
  | none, some m, name => if m.channel = name then some .take else none
  | _, _, _ => none

theorem took?_self (h : Option RelayedMessage) (name : String) : took? h h name = none := by
  cases h <;> rfl

theorem eq_take_of_took? {h h' : Option RelayedMessage} {name : String} {x : Tick}
    (hx : took? h h' name = some x) : x = .take := by
  unfold took? at hx
  split at hx
  · split at hx
    · exact (Option.some.inj hx).symm
    · cases hx
  · cases hx

/-- What a message that goes out is to a channel of the listener. -/
def Listener.put? (who : Listener) (m : Message) (name : String) : Option Tick :=
  if m.channel = who.tenant.isolate name then some (.put m.payload) else none

namespace Backlog

variable {size : Nat} {b : Backlog}

/-- The backlog after a tick, if there is one. -/
def ticked (size : Nat) (b : Backlog) (x : Option Tick) : Backlog := (x.map (b.tick size 0)).getD b

theorem Sorted.ticked (h : b.Sorted size 0) (hsize : 0 < size) (x : Option Tick) :
    (b.ticked size x).Sorted size 0 := by
  cases x with
  | none => exact h
  | some x =>
    cases x with
    | put text => exact h.put hsize text
    | take => exact h.take

theorem ticked_eq_foldl (b : Backlog) (x : Option Tick) :
    b.ticked size x = x.toList.foldl (tick size 0) b := by
  cases x <;> rfl

/-- The texts that are still to come. -/
theorem drop_sent_ticked (b : Backlog) {texts : List String} {x : Option Tick} {xs : List Tick}
    (h : texts.drop b.sent = Tick.payloads (x.toList ++ xs)) :
    texts.drop (b.ticked size x).sent = Tick.payloads xs := by
  cases x with
  | none => exact h
  | some x =>
    cases x with
    | put text =>
      have htail := congrArg List.tail h
      rw [List.tail_drop] at htail
      exact htail
    | take => exact h

/-- A publish is not read at once. -/
theorem read_ticked_put? (who : Listener) (m? : Option Message) (name : String) :
    (b.ticked size (m?.bind (who.put? · name))).read = b.read := by
  cases m? with
  | none => rfl
  | some m =>
    rw [Option.bind_some, Listener.put?]
    split <;> rfl

end Backlog

namespace Listener

variable {who : Listener} {texts : String → List String} {b : String → Backlog}
  {got : List RelayItem} {s s' : Store} {r r' : Relay} {now : Timestamp}

theorem Told.congr {b' : String → Backlog} {msgs : List RelayedMessage}
    (h : who.Told texts b msgs) (hread : ∀ n ∈ who.names, (b' n).read = (b n).read) :
    who.Told texts b' msgs where
  known := h.known
  read n hn := by
    rw [hread n hn]
    exact h.read n hn

/-- The first message that waits on a channel is taken. -/
theorem Told.take {msgs : List RelayedMessage} (h : who.Told texts b msgs) {size i : Nat}
    {is : List Nat} {m : RelayedMessage} (hm : m.channel ∈ who.names)
    (hwaiting : (b m.channel).waiting = i :: is) (htext : (texts m.channel)[i]? = some m.payload) :
    who.Told texts (fun n => (b n).ticked size (took? none (some m) n)) (msgs ++ [m]) where
  known m' hm' := by
    rcases List.mem_append.1 hm' with hold | hnew
    · exact h.known m' hold
    · exact List.mem_singleton.1 hnew ▸ hm
  read n hn := by
    have hold := h.read n hn
    rw [List.filter_append, List.map_append, hold]
    by_cases hchannel : m.channel = n
    · subst hchannel
      simp [took?, Backlog.ticked, Backlog.tick, hwaiting, htext]
    · simp [took?, Backlog.ticked, hchannel]

/-! ### The subscription -/

/-- Where the hub is closed, what waits stays. -/
theorem Waits.quiet {h h' : Hub} (hw : who.Waits texts b h)
    (hfind : h'.find? who.id = h.find? who.id ∨ h'.find? who.id = (h.find? who.id).map Hub.cutOff) :
    who.Waits texts b h' := by
  obtain ⟨sub, hsub, hchannels, hholds⟩ := hw
  rw [hsub] at hfind
  rcases hfind with hsame | hcut
  · exact ⟨sub, hsame, hchannels, hholds⟩
  · refine ⟨_, hcut, ?_, fun n hn => (hholds n hn).congr (sub.held_cutOff _)⟩
    rw [← hchannels, Subscription.channels, Hub.cutOff, List.map_map]
    rfl

/-- A message that goes out waits behind the others of its channel, and may push out the oldest. -/
theorem Waits.heard {h h' : Hub} {size : Nat} (hw : who.Waits texts b h) (ht : h.Tidy)
    (hsize : h.bufferSize = size) (hsorted : ∀ n, (b n).Sorted size 0) {m : Message}
    (htexts : ∀ n ∈ who.names, m.channel = who.tenant.isolate n →
      (texts n)[(b n).sent]? = some m.payload)
    (hfind : h'.find? who.id = (h.find? who.id).map (h.heard m.channel m.payload)) :
    who.Waits texts (fun n => (b n).ticked size (who.put? m n)) h' := by
  subst hsize
  obtain ⟨sub, hsub, hchannels, hholds⟩ := hw
  have hwhole := ht.whole sub (Hub.mem_of_find? hsub).1
  rw [hsub] at hfind
  refine ⟨_, hfind, hchannels ▸ Subscription.channels_congr (h.ears_heard ..), fun n hn => ?_⟩
  by_cases hname : m.channel = who.tenant.isolate n
  · have hmem : who.tenant.isolate n ∈ sub.channels :=
      hchannels ▸ Tenant.mem_channels.2 ⟨n, hn, rfl⟩
    have hle := (hsorted n).waiting_le
    rw [Nat.zero_add] at hle
    have hheard := (hholds n hn).heard hwhole hmem hle (htexts n hn hname)
    simpa [put?, Backlog.ticked, Backlog.tick, hname] using hheard
  · have hheld := Subscription.held_heard_other h m.payload (s := sub) (Ne.symm hname)
    simpa [put?, Backlog.ticked, hname] using (hholds n hn).congr hheld

section Offers

variable {sub : Subscription} (hm : s.InMemory) (hfind : s.hub.find? who.id = some sub)
  (hchannels : sub.channels = who.tenant.channels who.names)
  (hholds : ∀ n ∈ who.names, sub.Holds (who.tenant.isolate n) (texts n) (b n).waiting)

include hholds in
/-- What is left of a channel when a message was taken. -/
theorem holds_taken (m : RelayedMessage) (size : Nat) :
    ∀ n ∈ who.names, (sub.taken (who.tenant.isolate m.channel)).Holds (who.tenant.isolate n) (texts n)
      ((b n).ticked size (took? none (some m) n)).waiting := by
  intro n hn
  have htaken := (hholds n hn).taken (who.tenant.isolate m.channel)
  by_cases hname : m.channel = n
  · subst hname
    rw [if_pos rfl] at htaken
    simpa [took?, Backlog.ticked, Backlog.tick] using htaken
  · have hne : who.tenant.isolate n ≠ who.tenant.isolate m.channel :=
      fun e => hname (who.tenant.isolate_injective e).symm
    rw [if_neg hne] at htaken
    simpa [took?, Backlog.ticked, hname] using htaken

include hm hfind hchannels hholds

/-- A subscription that is over has nothing left, and if it has channels the store was closed. -/
theorem done_of_isOver (hover : sub.isOver = true) :
    ∀ n ∈ who.names, s.closed = true ∧ (b n).waiting = [] := by
  intro n hn
  refine ⟨?_, (hholds n hn).eq_nil (Subscription.held_of_isOver hover _)⟩
  cases hc : s.closed with
  | true => rfl
  | false =>
    -- the inbox of the channel would be linked
    have hwhole := (hm.tidy hc).whole sub (Hub.mem_of_find? hfind).1
    have hmem : who.tenant.isolate n ∈ sub.channels := hchannels ▸ Tenant.mem_channels.2 ⟨n, hn, rfl⟩
    obtain ⟨box, hbox, -⟩ := List.mem_map.1 hmem
    cases (hwhole.linked box hbox).symm.trans (Subscription.isOver_iff.1 hover box hbox).1

omit hholds in
/-- A subscription that has a store behind it that was closed offers a message, or it is over. -/
theorem offers_of_closed (hc : s.closed = true) (turn : Nat) :
    (∃ c m lag rest, sub.held c = m :: rest ∧ c ∈ sub.channels ∧
      sub.receive turn = (.message m, lag, sub.taken c)) ∨
    sub.isOver = true ∧ sub.receive turn = (.ended, none, sub) :=
  sub.receive_unlinked (hchannels ▸ who.tenant.nodup_channels who.names)
    ((hm.frozen hc).unlinked sub (Hub.mem_of_find? hfind).1) turn

end Offers

/-- What the subscription offers next: the first message that waits on one of the channels, its end,
or nothing yet. -/
theorem Waits.offers (h : who.Waits texts b s.hub) (hm : s.InMemory) (turn size : Nat) :
    (∃ n ∈ who.names, ∃ i is text, (b n).waiting = i :: is ∧ (texts n)[i]? = some text ∧
      (s.receive who.id turn).1 = .message ⟨who.tenant.isolate n, text⟩ ∧
      ∀ m : RelayedMessage, m.channel = n →
        who.Waits texts (fun k => (b k).ticked size (took? none (some m) k))
          (s.receive who.id turn).2.2.hub) ∨
    ((s.receive who.id turn).1 = .ended ∧ ∀ n ∈ who.names, s.closed = true ∧ (b n).waiting = []) ∨
    ((s.receive who.id turn).1 = .nothing ∧ s.closed = false ∧
      who.Waits texts b (s.receive who.id turn).2.2.hub) := by
  obtain ⟨sub, hfind, hchannels, hholds⟩ := h
  have hafter := hm.find?_receive who.id turn who.id
  rw [if_pos rfl, hfind, Option.map_some] at hafter
  have hoffer : (s.receive who.id turn).1 = Arrival.ofDelivery (sub.receive turn).1 := by
    rw [Store.receive_of_faultless hm.faults_eq, Hub.receive_of_some hfind]
  rw [hoffer]
  rcases sub.receive_offers turn with ⟨c, m, lag, rest, hheld, hc, hreceive⟩ | hreceive
  · rw [hchannels] at hc
    obtain ⟨n, hn, rfl⟩ := Tenant.mem_channels.1 hc
    obtain ⟨i, is, text, hwaiting, htext, rfl⟩ := (hholds n hn).first hheld
    rw [hreceive] at hafter ⊢
    refine .inl ⟨n, hn, i, is, text, hwaiting, htext, rfl, fun m hname => ?_⟩
    subst hname
    exact ⟨_, hafter, hchannels ▸ Subscription.channels_congr (sub.ears_taken _),
      holds_taken hholds m size⟩
  · rw [hreceive] at hafter ⊢
    cases hover : sub.isOver with
    | true => exact .inr (.inl ⟨rfl, done_of_isOver hm hfind hchannels hholds hover⟩)
    | false =>
      refine .inr (.inr ⟨rfl, ?_, sub, hafter, hchannels, hholds⟩)
      cases hc : s.closed with
      | false => rfl
      | true =>
        rw [hover] at hreceive
        rcases offers_of_closed hm hfind hchannels hc turn with ⟨c, m, lag, rest, -, -, hr⟩ | ⟨ho, -⟩
        · cases (Prod.mk.inj (hr.symm.trans hreceive)).1
        · cases hover.symm.trans ho

namespace Account

/-- The place where the relay stands, and what was put into its mailbox, are all that counts. -/
theorem congr {got' : List RelayItem} (h : who.Account texts b got s r)
    (hphase : r'.phase = r.phase) (hclosed : r'.closedError = r.closedError)
    (hitems : got' ++ r'.mailbox.items = got ++ r.mailbox.items) :
    who.Account texts b got' s r' := by
  cases h with
  | carries msgs hp htold hput hwaits =>
    have hhand : r'.hand? = r.hand? := by
      unfold Relay.hand?
      rw [hphase]
    refine .carries msgs ?_ htold ?_ hwaits
    · unfold Relay.Forwards Relay.Asks
      rw [hphase]
      exact hp
    · rw [hitems, hhand]
      exact hput
  | closes msgs hp htold hput hdone =>
    refine .closes msgs ?_ htold (hitems.trans hput) hdone
    rw [hphase, hclosed]
    exact hp
  | closed msgs hp htold hput hdone =>
    exact .closed msgs (hphase.trans hp) htold (hitems.trans hput) hdone

/-- While the relay asks, it has nothing in its hand. -/
theorem of_asks (h : who.Account texts b got s r) (hasks : r.Asks) :
    ∃ msgs : List RelayedMessage, who.Told texts b msgs ∧
      got ++ r.mailbox.items = msgs.map .message ∧ who.Waits texts b s.hub := by
  cases h with
  | carries msgs hphase htold hitems hwaits =>
    rw [Relay.hand?_of_asks hasks, Option.map_none, Option.toList_none, List.append_nil] at hitems
    exact ⟨msgs, htold, hitems, hwaits⟩
  | closes msgs hphase => rcases hasks with hp | hp <;> cases hp.symm.trans hphase
  | closed msgs hphase => rcases hasks with hp | hp <;> cases hp.symm.trans hphase

/-- A relay that has ended has told of the close. -/
theorem of_ended (h : who.Account texts b got s r) (hended : r.isEnded = true) :
    r.phase = .ended .sourceClosed ∧ (∀ n ∈ who.names, (b n).waiting = []) ∧
      ∃ msgs : List RelayedMessage, who.Told texts b msgs ∧
        got ++ r.mailbox.items = msgs.map .message ++ [who.closing] := by
  obtain ⟨o, ho⟩ := Relay.isEnded_iff.1 hended
  cases h with
  | carries msgs hphase => rcases hphase with (hp | hp) | ⟨m, hp⟩ <;> cases hp.symm.trans ho
  | closes msgs hphase => cases hphase.symm.trans ho
  | closed msgs hphase htold hitems hdone =>
    exact ⟨hphase, fun n hn => (hdone n hn).2, msgs, htold, hitems⟩

/-! ### Moves -/

/-- A relay that asks takes what its subscription offers. -/
theorem take (h : who.Account texts b got s r) (hr : r.Serves who) (hm : s.InMemory)
    (hasks : r.Asks) (size : Nat) :
    who.Account texts
      (fun n => (b n).ticked size
        (took? r.hand? (r.accept (s.receive who.id r.turn).1 now).1.hand? n))
      got (s.receive who.id r.turn).2.2 (r.accept (s.receive who.id r.turn).1 now).1 := by
  obtain ⟨msgs, htold, hitems, hwaits⟩ := h.of_asks hasks
  rw [Relay.hand?_of_asks hasks]
  rcases hwaits.offers hm r.turn size with
    ⟨n, hn, i, is, text, hwaiting, htext, hoffer, hwaits'⟩ | ⟨hoffer, hdone⟩ | ⟨hoffer, -, hwaits'⟩
  · let m : RelayedMessage := ⟨n, text, now⟩
    have hrelayed : (⟨who.tenant.isolate n, text⟩ : Message).relayed r.tenant now = m := by
      rw [Message.relayed, hr.tenant]
      exact congrArg (RelayedMessage.mk · text now) (who.tenant.deisolate_isolate n)
    simp only [hoffer, Relay.accept, hrelayed]
    refine .carries (msgs ++ [m]) (.inr ⟨m, rfl⟩) (htold.take hn hwaiting htext) ?_
      (hwaits' m rfl)
    rw [List.map_append, ← hitems]
    rfl
  · rw [hoffer]
    refine .closes msgs rfl htold hitems ?_
    rw [(hm.receive_kept who.id r.turn).2.1]
    exact hdone
  · rw [hoffer]
    exact .carries msgs (.inl (.inr rfl)) htold ((List.append_nil _).trans hitems) hwaits'

/-- Every move of a relay that is not interrupted keeps the account. -/
theorem goes (h : who.Account texts b got s r) (hr : r.Serves who) (hm : s.InMemory)
    (hgoes : r.Goes s now r' s') (size : Nat) :
    who.Account texts (fun n => (b n).ticked size (took? r.hand? r'.hand? n)) got s' r' := by
  cases hgoes with
  | take id hid hasks =>
    cases hid.symm.trans hr.source
    exact h.take hr hm hasks size
  | give m hphase =>
    have hhand := Relay.hand?_of_sending hphase
    cases h with
    | closes msgs hp => cases hphase.symm.trans hp
    | closed msgs hp => cases hphase.symm.trans hp
    | carries msgs hp htold hitems hwaits =>
      rw [hhand] at hitems ⊢
      refine .carries msgs (.inl (.inl rfl)) htold ?_ hwaits
      rw [← hitems]
      simp [Relay.hand?, Mailbox.put]
  | tell e o hphase =>
    cases h with
    | carries msgs hp =>
      rcases hp with (hp | hp) | ⟨m, hp⟩ <;> cases hphase.symm.trans hp
    | closed msgs hp => cases hphase.symm.trans hp
    | closes msgs hp htold hitems hdone =>
      cases hphase.symm.trans hp
      have hhand := Relay.hand?_of_reporting hphase
      have hkept : (r.release s).closed = s.closed := by
        unfold Relay.release
        rw [hr.source]
        exact (hm.unsubscribe_kept who.id).2.1
      rw [hhand]
      refine .closed msgs rfl htold ?_ fun n hn => ⟨hkept.trans (hdone n hn).1, (hdone n hn).2⟩
      rw [← hitems, ← closing_eq hr]
      exact (List.append_assoc ..).symm

end Account

/-! ### The way to the end -/

/-- What is still to be done for the listener: messages to take and to hand over, and items to read. -/
def load (who : Listener) (b : String → Backlog) (r : Relay) : Nat :=
  2 * (3 * ((distinct who.names).map fun n => (b n).waiting.length).sum + r.weight) +
    r.mailbox.items.length

theorem load_eq_zero_iff : who.load b r = 0 ↔
    (∀ n ∈ who.names, (b n).waiting = []) ∧ r.isEnded = true ∧ r.mailbox.items = [] := by
  have hweight : r.weight = 0 ↔ r.isEnded = true := by
    unfold Relay.weight Relay.isEnded
    cases r.phase <;> simp
  have hsum : ((distinct who.names).map fun n => (b n).waiting.length).sum = 0 ↔
      ∀ n ∈ who.names, (b n).waiting = [] := by
    simp [List.sum_eq_zero_iff_forall_eq_nat, mem_distinct]
  rw [← hweight, ← hsum, ← List.length_eq_zero_iff, load]
  omega

/-- A message less waits on the channel that it was taken from, and the same on any other. -/
theorem sum_waiting_lt {n : String} (hn : n ∈ who.names) {i : Nat} {is : List Nat}
    (hwaiting : (b n).waiting = i :: is) {m : RelayedMessage} (hm : m.channel = n) (size : Nat) :
    ((distinct who.names).map fun k =>
        ((b k).ticked size (took? none (some m) k)).waiting.length).sum <
      ((distinct who.names).map fun k => (b k).waiting.length).sum := by
  subst hm
  obtain ⟨l₁, l₂, hsplit⟩ := List.append_of_mem (mem_distinct.2 hn)
  have hnodup := nodup_distinct who.names
  rw [hsplit, List.nodup_middle, List.nodup_cons] at hnodup
  have hother : ∀ l : List String, m.channel ∉ l →
      (l.map fun k => ((b k).ticked size (took? none (some m) k)).waiting.length) =
        l.map fun k => (b k).waiting.length := by
    refine fun l hl => List.map_congr_left fun k hk => ?_
    have hne : m.channel ≠ k := fun e => hl (e ▸ hk)
    simp [took?, Backlog.ticked, hne]
  obtain ⟨hleft, hright⟩ := not_or.1 (mt List.mem_append.2 hnodup.1)
  have hself : ((b m.channel).ticked size (took? none (some m) m.channel)).waiting.length =
      is.length := by
    simp [took?, Backlog.ticked, Backlog.tick, hwaiting]
  rw [hsplit, List.map_append, List.map_append, List.map_cons, List.map_cons, hother l₁ hleft,
    hother l₂ hright, hself, hwaiting]
  simp only [List.sum_append, List.sum_cons, List.length_cons]
  omega

namespace Account

/-- When the store was closed, there is less to do after every move. -/
theorem load_lt (h : who.Account texts b got s r) (hr : r.Serves who) (hm : s.InMemory)
    (hc : s.closed = true) (hgoes : r.Goes s now r' s') (size : Nat) :
    who.load (fun n => (b n).ticked size (took? r.hand? r'.hand? n)) r' < who.load b r := by
  cases hgoes with
  | give m hphase =>
    have hhand := Relay.hand?_of_sending hphase
    have hweight : r.weight = 4 := by
      unfold Relay.weight
      rw [hphase]
    rw [hhand, load, load, hweight]
    simp only [took?, Backlog.ticked, Option.map_none, Option.getD_none, Relay.weight, Mailbox.put,
      List.length_append, List.length_singleton]
    omega
  | tell e o hphase =>
    have hhand := Relay.hand?_of_reporting hphase
    have hweight : r.weight = 1 := by
      unfold Relay.weight
      rw [hphase]
    rw [hhand, load, load, hweight]
    simp only [Relay.hand?, took?, Backlog.ticked, Option.map_none, Option.getD_none, Relay.weight,
      Mailbox.put, List.length_append, List.length_singleton]
    omega
  | take id hid hasks =>
    cases hid.symm.trans hr.source
    have hhand := Relay.hand?_of_asks hasks
    have hweight : 2 ≤ r.weight := by
      unfold Relay.weight
      rcases hasks with hp | hp <;> simp [hp]
    obtain ⟨-, -, -, hwaits⟩ := h.of_asks hasks
    rcases hwaits.offers hm r.turn size with
      ⟨n, hn, i, is, text, hwaiting, -, hoffer, -⟩ | ⟨hoffer, -⟩ | ⟨-, ho, -⟩
    · have hname : ((⟨who.tenant.isolate n, text⟩ : Message).relayed r.tenant now).channel = n := by
        rw [Message.relayed, hr.tenant]
        exact who.tenant.deisolate_isolate n
      have hless := sum_waiting_lt hn hwaiting hname size
      rw [hhand, hoffer, load, load]
      simp only [Relay.accept, Relay.hand?, Relay.weight] at hweight hless ⊢
      omega
    · rw [hhand, hoffer, load, load]
      simp only [Relay.accept, Relay.hand?, took?, Backlog.ticked, Option.map_none,
        Option.getD_none, Relay.weight] at hweight ⊢
      omega
    · cases hc.symm.trans ho

/-- When the store was closed, a relay that cannot move waits for its caller to read, if there is
anything left to do. -/
theorem items_of_stuck (h : who.Account texts b got s r) (hm : s.InMemory)
    (hc : s.closed = true) (hroom : 0 < r.mailbox.capacity) (hstuck : r.Stuck who.id s)
    (hload : who.load b r ≠ 0) : r.mailbox.items ≠ [] := by
  rcases hstuck with hended | hfull | ⟨hwaits, hidle⟩
  · obtain ⟨-, hdone, -⟩ := h.of_ended hended
    exact fun hnil => hload (load_eq_zero_iff.2 ⟨hdone, hended, hnil⟩)
  · intro hnil
    rw [Mailbox.hasRoom, hnil, List.length_nil, decide_eq_false_iff_not] at hfull
    exact hfull hroom
  · -- what is left can be taken, or the end can be told
    exfalso
    obtain ⟨-, -, -, sub, hfind, hchannels, -⟩ := h.of_asks (.inr hwaits)
    unfold Store.isReady at hidle
    rw [hfind, Store.line?_of_faultless hm.faults_eq] at hidle
    obtain ⟨hnone, hopen⟩ := Bool.or_eq_false_iff.1 hidle
    rcases offers_of_closed hm hfind hchannels hc 0 with ⟨c, m, lag, rest, hheld, -⟩ | ⟨hover, -⟩
    · have hpos := Subscription.waiting_pos hheld
      rw [decide_eq_false_iff_not] at hnone
      exact hnone hpos
    · cases hopen.symm.trans hover

end Account

end Listener

end Tenancy
