import Tenancy.Proofs.Gateway.Admission
import Tenancy.Proofs.Gateway.Trace
import Tenancy.Proofs.Relay.Pipe
import Tenancy.Proofs.Service.Halt
import Tenancy.Proofs.Service.Setup

/-!
# What a turn changes

A turn changes the entries of the store, sends out a message, opens a subscription, closes the store,
or takes from or drops one subscription (`Store.Changes`, `Service.changes_turn`). A relay that it
does not give to move is left alone or interrupted (`Service.undisturbed_turn`), and one starts on a
subscription that was there before only when a caller hands it over (`Service.started_turn`).
-/

namespace Tenancy

/-! ## Stores -/

namespace Store

/-- What can become of a store: a message went out, or none, and one subscription was taken from or
dropped, or none. -/
inductive Changes (s : Store) : Option Message → Option Nat → Store → Prop where
  | entries (es : Entries) : Changes s none none { s with entries := es }
  | publish (m : Message) (ho : s.closed = false) :
    Changes s (some m) none { s with hub := (s.hub.publish m.channel m.payload).2 }
  | subscribe (channels : List String) (ho : s.closed = false) :
    Changes s none none (s.subscribe channels).2
  | close : Changes s none none s.close
  | touch (id : Nat) {s' : Store} (hfollows : s.Follows s') (hclosed : s'.closed = s.closed)
    (hcapacity : s'.hub.capacity = s.hub.capacity)
    (hothers : ∀ j, j ≠ id → s'.hub.find? j = s.hub.find? j) : Changes s none (some id) s'

namespace Changes

variable {s s' : Store} {m? : Option Message} {touched : Option Nat}

theorem refl (s : Store) : s.Changes none none s := .entries s.entries

theorem follows (h : s.Changes m? touched s') (hm : s.InMemory) : s.Follows s' := by
  cases h with
  | entries es => exact .withEntries hm es
  | publish m ho =>
    have hlater := Follows.publish hm m.channel m.payload
    rw [publish_of_available (hm.available_of_open ho)] at hlater
    exact hlater
  | subscribe channels ho => exact .subscribe hm channels
  | close => exact .close hm
  | touch id hfollows => exact hfollows

theorem capacity_eq (h : s.Changes m? touched s') : s'.hub.capacity = s.hub.capacity := by
  cases h with
  | entries es => rfl
  | publish m ho => rfl
  | subscribe channels ho => exact s.capacity_subscribe channels
  | close => rfl
  | touch id hfollows hclosed hcapacity hothers => exact hcapacity

/-- Nothing goes out of a store that was closed. -/
theorem open_of_message {m : Message} (h : s.Changes (some m) touched s') : s.closed = false := by
  cases h with
  | publish m ho => exact ho

/-- A message that goes out is heard by the subscriptions. -/
theorem find?_heard {m : Message} (h : s.Changes (some m) touched s') (id : Nat) :
    s'.hub.find? id = (s.hub.find? id).map (s.hub.heard m.channel m.payload) := by
  cases h with
  | publish m ho => exact s.hub.find?_publish m.channel m.payload id

/-- Otherwise a subscription that is not touched is left alone, or cut off. -/
theorem find?_quiet (h : s.Changes none touched s') (hm : s.InMemory) {id : Nat}
    (hid : id < s.hub.nextId) (hfree : touched ≠ some id) :
    s'.hub.find? id = s.hub.find? id ∨ s'.hub.find? id = (s.hub.find? id).map Hub.cutOff := by
  cases h with
  | entries es => exact .inl rfl
  | subscribe channels ho =>
    rw [subscribe_of_available (hm.available_of_open ho)]
    exact .inl (((hm.tidy ho).find?_subscribe channels id).trans (if_neg (Nat.ne_of_lt hid)))
  | close => exact .inr (s.hub.find?_close id)
  | touch j hfollows hclosed hcapacity hothers =>
    exact .inl (hothers id fun e => hfree (congrArg some e.symm))

end Changes

theorem changes_onEntries {α : Type} (s : Store) (f : Entries → α × Entries) :
    s.Changes none none (s.onEntries f).2 := by
  unfold onEntries
  cases s.available with
  | error e => exact .refl s
  | ok u => exact .entries _

theorem changes_subscribe {s : Store} (hm : s.InMemory) (channels : List String) :
    s.Changes none none (s.subscribe channels).2 := by
  cases hc : s.closed with
  | false => exact .subscribe channels hc
  | true =>
    have hsame : (s.subscribe channels).2 = s := by
      rw [Store.subscribe, hm.available_of_closed hc]
    rw [hsame]
    exact .refl s

theorem changes_feed {s : Store} (hm : s.InMemory) (t : Tenant) (names : List String) :
    s.Changes none none (Feed.subscribe t names s).2 := by
  have h := changes_subscribe hm (t.channels names)
  unfold Feed.subscribe
  split <;> rename_i heq <;> rwa [heq] at h

theorem changes_unsubscribe {s : Store} (hm : s.InMemory) (id : Nat) :
    s.Changes none (some id) (s.unsubscribe id) := by
  obtain ⟨-, hclosed, -, hcapacity⟩ := hm.unsubscribe_kept id
  exact .touch id (.unsubscribe hm id) hclosed hcapacity fun j hj =>
    (hm.find?_unsubscribe id j).trans (if_neg hj)

end Store

/-- A move touches no subscription but its own. -/
theorem Relay.Moves.changes {r r' : Relay} {s s' : Store} {now : Timestamp}
    (h : r.Moves s now r' s') (hm : s.InMemory) : s.Changes none r.source s' := by
  cases hid : r.source with
  | none =>
    cases h with
    | stop o mailbox hr =>
      rw [release, hid]
      exact .refl s
    | take id hr hphase => cases hid.symm.trans hr
    | give m hr => exact .refl s
  | some id =>
    have hfollows := h.follows hm
    have hclosed := h.closed_eq hm
    refine .touch id hfollows hclosed h.capacity_eq fun j hj => ?_
    have htwins := h.twins_left (.refl hm [id]) fun i hi => by
      cases hid.symm.trans hi
      exact List.mem_singleton_self id
    exact (htwins.find?_eq j fun hmem => hj (List.mem_singleton.1 hmem)).symm

/-! ## Calls -/

/-- The message that a call of the store sends out. -/
def StoreCall.message? : StoreCall → Option Message
  | .publish channel text => some ⟨channel, text⟩
  | _ => none

/-- What goes out when a call is answered: nothing, unless it succeeds. -/
def sentBy {ε α : Type} (m? : Option Message) : Except ε α → Option Message
  | .ok _ => m?
  | .error _ => none

theorem sentBy_none {ε α : Type} (a : Except ε α) : sentBy none a = none := by
  cases a <;> rfl

/-- Success stays success in other words. -/
theorem sentBy_reworded {ε ε' α α' : Type} (m? : Option Message) (f : ε → ε') (g : α → α')
    (a : Except ε α) : sentBy m? ((a.mapError f).map g) = sentBy m? a := by
  cases a <;> rfl

theorem Store.changes_call {s : Store} (hm : s.InMemory) (now : Instant) (c : StoreCall) :
    s.Changes (sentBy c.message? (s.call now c).1) none (s.call now c).2 := by
  have hquiet : c.message? = none → s.Changes none none (s.call now c).2 →
      s.Changes (sentBy c.message? (s.call now c).1) none (s.call now c).2 := by
    intro hnone h
    rw [hnone, sentBy_none]
    exact h
  cases c with
  | get key => exact hquiet rfl (s.changes_onEntries fun es => es.get now key)
  | set key value ttl =>
    exact hquiet rfl (s.changes_onEntries fun es => ((), es.set now key value ttl))
  | setIfAbsent key value ttl =>
    exact hquiet rfl (s.changes_onEntries fun es => es.setIfAbsent now key value ttl)
  | delete key => exact hquiet rfl (s.changes_onEntries fun es => es.delete now key)
  | compareAndDelete key expected =>
    exact hquiet rfl (s.changes_onEntries fun es => es.compareAndDelete now key expected)
  | compareAndExpire key expected ttl =>
    exact hquiet rfl (s.changes_onEntries fun es => es.compareAndExpire now key expected ttl)
  | expire key ttl => exact hquiet rfl (s.changes_onEntries fun es => es.expire now key ttl)
  | subscribe channels => exact hquiet rfl (changes_subscribe hm channels)
  | ping => exact hquiet rfl (.refl s)
  | publish channel payload =>
    have hcall : s.call now (.publish channel payload) =
        answered .count (s.publish channel payload) := rfl
    rw [hcall]
    cases hc : s.closed with
    | false =>
      rw [publish_of_available (hm.available_of_open hc)]
      exact .publish ⟨channel, payload⟩ hc
    | true =>
      have hrefused : s.publish channel payload = (.error .closed, s) := by
        rw [Store.publish, hm.available_of_closed hc]
      rw [hrefused]
      exact .refl s

/-- The token of a new lock is no message. -/
theorem Request.message?_storeCall (r : Request) (t : Tenant) (fresh fresh' : String) :
    (r.storeCall t fresh).message? = (r.storeCall t fresh').message? := by
  cases r <;> rfl

theorem Gateway.changes_call {s : Store} (hm : s.InMemory) (g : Gateway) (clock : Clock)
    (fresh : String) (t : Tenant) (r : Request) :
    let reply := g.call clock fresh t r s
    s.Changes (sentBy (r.storeCall t "").message? reply.answer) none reply.store := by
  intro reply
  cases hcomplaint : g.complaint? t r with
  | some e =>
    have hreply : reply = _ := call_of_complaint hcomplaint clock fresh s
    rw [hreply]
    exact .refl s
  | none =>
    obtain ⟨told, hconcluded, hwork⟩ := oneCall_call hcomplaint clock fresh
    obtain ⟨htold, hstore⟩ := hwork s
    have hanswer : reply.answer = (told (s.call clock.now (r.storeCall t fresh)).1).1 :=
      congrArg Prod.fst htold
    have hchanges := Store.changes_call hm clock.now (r.storeCall t fresh)
    rw [r.message?_storeCall t fresh ""] at hchanges
    -- the call is told to succeed when the store says so
    have hsame : sentBy (r.storeCall t "").message? reply.answer =
        sentBy (r.storeCall t "").message? (s.call clock.now (r.storeCall t fresh)).1 := by
      have hc := hconcluded (s.call clock.now (r.storeCall t fresh)).1
      rw [← hanswer] at hc
      cases ha : (s.call clock.now (r.storeCall t fresh)).1 with
      | error e =>
        rw [ha] at hc
        rw [hc]
        rfl
      | ok a =>
        rw [ha] at hc
        obtain ⟨response, hresponse⟩ := hc
        rw [hresponse]
        rfl
    rw [hsame]
    exact hstore ▸ hchanges

/-! ## Turns -/

namespace Turn

/-- The message that goes out in a turn that was answered `a`. -/
def message? : Turn → Answer → Option Message
  | act (.store c), .stored a => sentBy c.message? a
  | act (.call t r _), .called a => sentBy (r.storeCall t "").message? a
  | act (.rpc caller c _), .replied a =>
    caller.tenant.toOption.bind fun t => sentBy (c.request.storeCall t "").message? a
  | _, _ => none

/-- The turn takes from the subscription, or drops it. -/
def Touches (s : Service) (id : Nat) : Turn → Prop
  | act (.drain j _) | act (.unsubscribe j) => j = id
  | move handle => ∃ t, s.task? handle = some t ∧ t.relay.source = some id
  | _ => False

end Turn

namespace Service

variable {l : Holdings} {s : Service}

theorem changes_drainIn (hm : s.store.InMemory) (id fuel left : Nat) (limit : Option Nat) :
    s.store.Changes none (some id) (drainIn id fuel left limit s).2.2.store := by
  obtain ⟨hfollows, hclosed, hcapacity, hothers⟩ := drainIn_keeps
    (p := fun r => s.store.Follows r.store ∧ r.store.closed = s.store.closed ∧
      r.store.hub.capacity = s.store.hub.capacity ∧
      ∀ j, j ≠ id → r.store.hub.find? j = s.store.hub.find? j) id
    (fun {r} left h => by
      obtain ⟨hfollows, hclosed, hcapacity, hothers⟩ := h
      have hr := hfollows.inMemory
      unfold ask
      split
      · rw [hr.passTurn_eq]
        exact ⟨hfollows, hclosed, hcapacity, hothers⟩
      · obtain ⟨-, hclosed', -, hcapacity'⟩ := hr.receive_kept id 0
        refine ⟨hfollows.trans (.receive hr id 0), hclosed'.trans hclosed,
          hcapacity'.trans hcapacity, fun j hj => ?_⟩
        exact ((hr.find?_receive id 0 j).trans (if_neg hj)).trans (hothers j hj))
    fuel left limit ⟨.refl hm, rfl, rfl, fun _ _ => rfl⟩
  exact .touch id hfollows hclosed hcapacity hothers

theorem changes_act (hm : s.store.InMemory) {x : Step} (hx : x.isRightful l s = true) :
    ∃ touched, s.store.Changes ((Turn.act x).message? (s.act x).1) touched (s.act x).2.store ∧
      ∀ id, touched = some id → (Turn.act x).Touches s id := by
  have huntouched : ∀ {m? : Option Message} {store : Store}, s.store.Changes m? none store →
      ∃ touched, s.store.Changes m? touched store ∧
        ∀ id, touched = some id → (Turn.act x).Touches s id :=
    fun h => ⟨none, h, fun _ => nofun⟩
  cases x with
  | sweep => exact huntouched (.entries _)
  | closeStore => exact huntouched .close
  | setFailing on =>
    rw [act, hm.setFailing_eq]
    exact huntouched (.refl s.store)
  | breakSubscriptions e =>
    have hsame : (s.act (.breakSubscriptions e)).2.store = s.store := hm.breakSubscriptions_eq e
    rw [hsame]
    exact huntouched (.refl s.store)
  | store c => exact huntouched (Store.changes_call hm s.clock.now c)
  | drain id limit =>
    refine ⟨some id, changes_drainIn hm id (s.store.waiting id + 1) stint limit, fun j hj => ?_⟩
    exact Option.some.inj hj
  | unsubscribe id => exact ⟨some id, Store.changes_unsubscribe hm id, fun j hj => Option.some.inj hj⟩
  | lock t key c =>
    cases c with
    | acquire fresh ttl =>
      exact huntouched (s.store.changes_onEntries fun es =>
        es.setIfAbsent s.clock.now _ fresh (some ttl))
    | release token =>
      exact huntouched (s.store.changes_onEntries fun es => es.compareAndDelete s.clock.now _ token)
    | renew token ttl =>
      exact huntouched (s.store.changes_onEntries fun es =>
        es.compareAndExpire s.clock.now _ token ttl)
  | call t r given =>
    have h := Gateway.changes_call hm s.gateway s.clock given.fresh t r
    rw [act, store_after]
    exact huntouched h
  | rpc caller c given =>
    rw [act, store_after, Rpc.perform]
    unfold Turn.message?
    simp only
    cases hcaller : caller.tenant with
    | error status => exact huntouched (.refl s.store)
    | ok t =>
      have h := Gateway.changes_call hm s.gateway s.clock given.fresh t c.request
      refine huntouched ?_
      rw [Except.toOption, Option.bind_some, sentBy_reworded]
      exact h
  | openFeed t channels => exact huntouched (Store.changes_feed hm t channels)
  | relayChannels t channels how =>
    have h := Store.changes_feed hm t channels
    rw [act]
    split <;> rename_i heq <;> rw [heq] at h <;> exact huntouched h
  | read handle limit => cases hx
  | outcome handle =>
    have hsame : (s.act (.outcome handle)).2.store = s.store := by
      rw [act_outcome]
      split <;> rfl
    rw [hsame]
    exact huntouched (.refl s.store)
  | _ => exact huntouched (.refl s.store)

theorem changes_turn (h : s.Steady l) {y : Turn} (hy : y.isRightful l s = true) :
    ∃ touched, s.store.Changes (y.message? (s.turn y).1) touched (s.turn y).2.store ∧
      ∀ id, touched = some id → y.Touches s id := by
  have hm := h.inMemory
  cases y with
  | act x => exact changes_act hm hy
  | take handle =>
    refine ⟨none, ?_, fun _ => nofun⟩
    rw [turn, pick_eq h.roster.handles_nodup]
    exact .refl s.store
  | wall now => exact ⟨none, .refl s.store, fun _ => nofun⟩
  | move handle =>
    cases ht : s.task? handle with
    | none =>
      refine ⟨none, ?_, fun _ => nofun⟩
      rw [turn, moveOf?_of_none ht]
      exact .refl s.store
    | some t =>
      obtain ⟨l₁, l₂, hsplit, hhandle, hbefore⟩ := split_of_task? ht
      obtain ⟨r, store, e, -, hafter, hmove⟩ := turn_move hsplit hhandle hbefore
      rw [hafter]
      rcases hmove with hmove | ⟨-, -, rfl⟩
      · exact ⟨t.relay.source, (Relay.moves_of_move? hmove).changes hm, fun id hid => ⟨t, ht, hid⟩⟩
      · exact ⟨none, .refl s.store, fun _ => nofun⟩

end Service

/-! ## Relays -/

/-- A relay that was left alone, or interrupted. Its mailbox is as it was, or was dropped. -/
structure RelayTask.Undisturbed (t t' : RelayTask) : Prop where
  handle : t'.handle = t.handle
  relay : t'.relay.interruption? = none → t'.relay = t.relay
  items : t'.relay.mailbox.items <+: t.relay.mailbox.items

namespace RelayTask.Undisturbed

theorem refl (t : RelayTask) : t.Undisturbed t := ⟨rfl, fun _ => rfl, List.prefix_rfl⟩

theorem ite {p : RelayTask → Prop} [DecidablePred p] {f : RelayTask → RelayTask}
    (hf : ∀ t : RelayTask, t.Undisturbed (f t)) (t : RelayTask) :
    t.Undisturbed (if p t then f t else t) := by
  split
  · exact hf t
  · exact .refl t

theorem stop (x : Stop) (t : RelayTask) : t.Undisturbed { t with relay := x.apply t.relay } := by
  refine ⟨rfl, fun hnone => ?_, ?_⟩
  · have hsome := x.interrupts t.relay
    rw [hnone] at hsome
    cases hsome
  · cases x with
    | cancel handle | shutDown => exact List.prefix_rfl
    | leave handle | hangUp handle => exact List.nil_prefix

theorem reported (t : RelayTask) : t.Undisturbed t.reported := by
  unfold RelayTask.reported
  split
  · exact ⟨rfl, fun _ => rfl, List.prefix_rfl⟩
  · exact .refl t

end RelayTask.Undisturbed

namespace Service

variable {l : Holdings} {s s' : Service} {handle : Nat} {t t' : RelayTask}

/-- The relays were left alone or interrupted, and others may have started. Such a one reads a new
subscription, if any, or one that it was started on by hand. -/
def Joins (s s' : Service) (x : Step) : Prop :=
  ∃ f new, s'.relays = s.relays.map f ++ new ∧ (∀ t : RelayTask, t.Undisturbed (f t)) ∧
    ∀ u ∈ new, ∀ id, u.relay.source = some id → id < s.store.hub.nextId →
      ∃ feed how, x = .relayFeed feed how ∧ feed.id = id ∧
        u.relay = (Relay.start feed how.mailbox how.isCancelled how.turns).1

namespace Joins

variable {x : Step}

theorem map {f : RelayTask → RelayTask} (hf : ∀ t : RelayTask, t.Undisturbed (f t))
    (hrelays : s'.relays = s.relays.map f) : s.Joins s' x :=
  ⟨f, [], hrelays.trans (List.append_nil _).symm, hf, fun _ hu => (List.not_mem_nil hu).elim⟩

theorem of_eq (hrelays : s'.relays = s.relays) : s.Joins s' x :=
  map RelayTask.Undisturbed.refl (f := id) (hrelays.trans (List.map_id _).symm)

theorem add {u : RelayTask} (hrelays : s'.relays = s.relays ++ [u])
    (hu : ∀ id, u.relay.source = some id → id < s.store.hub.nextId →
      ∃ feed how, x = .relayFeed feed how ∧ feed.id = id ∧
        u.relay = (Relay.start feed how.mailbox how.isCancelled how.turns).1) : s.Joins s' x := by
  refine ⟨id, [u], ?_, RelayTask.Undisturbed.refl, fun v hv => ?_⟩
  · rw [hrelays, List.map_id]
  · rw [List.mem_singleton.1 hv]
    exact hu

/-- A relay that reads a subscription that was just opened. -/
theorem addNew {u : RelayTask} (hrelays : s'.relays = s.relays ++ [u])
    (hu : u.relay.source = some s.store.hub.nextId ∨ u.relay.source = none) : s.Joins s' x := by
  refine add hrelays fun id hid hlt => ?_
  rcases hu with hu | hu
  · cases hu.symm.trans hid
    exact absurd hlt (Nat.lt_irrefl _)
  · cases hu.symm.trans hid

theorem task?_of_some (h : s.Joins s' x) (ht : s.task? handle = some t) :
    ∃ t', s'.task? handle = some t' ∧ t.Undisturbed t' := by
  obtain ⟨f, new, hrelays, hf, -⟩ := h
  have heq := task?_of_relays hrelays (fun t => (hf t).handle) handle
  rw [ht] at heq
  exact ⟨f t, heq, hf t⟩

theorem started_of_none (h : s.Joins s' x) (ht : s.task? handle = none)
    (ht' : s'.task? handle = some t') {id : Nat} (hid : t'.relay.source = some id)
    (hlt : id < s.store.hub.nextId) :
    ∃ feed how, x = .relayFeed feed how ∧ feed.id = id ∧
      t'.relay = (Relay.start feed how.mailbox how.isCancelled how.turns).1 := by
  obtain ⟨f, new, hrelays, hf, hnew⟩ := h
  have heq := task?_of_relays hrelays (fun t => (hf t).handle) handle
  rw [ht, ht'] at heq
  exact hnew t' (List.mem_of_find?_eq_some heq.symm) id hid hlt

end Joins

/-- A call starts a relay on the feed that it opens. -/
theorem joins_after (hm : s.store.InMemory) (g : Gateway) (clock : Clock) (fresh : String) (t : Tenant)
    (r : Request) (effects : Effects) (given : Supply) (x : Step) :
    let reply := g.call clock fresh t r s.store
    s.Joins (s.after reply.store effects reply.feed given) x := by
  intro reply
  rcases Gateway.call_cases hm clock fresh t g r with
    ⟨hfeed, -⟩ | ⟨names, store, -, -, -, -, hfeed, -⟩
  · rw [hfeed]
    exact .of_eq rfl
  · rw [hfeed]
    exact .addNew (u := RelayTask.opened s given ⟨t, t.channels names, s.store.hub.nextId⟩) rfl
      (.inl rfl)

theorem joins_act (hs : Roster l s.relays s.store) {x : Step} (hx : x.isRightful l s = true) :
    s.Joins (s.act x).2 x := by
  have hm := hs.inMemory
  cases x with
  | shutDown => exact .map (.ite (.stop .shutDown)) rfl
  | drain id limit =>
    have hrelays := drainIn_keeps (p := fun r => r.relays = s.relays) id
      (fun {r} left h => (r.frame_ask id left).1.trans h) (s.store.waiting id + 1) stint limit rfl
    exact .of_eq hrelays
  | call t r given => exact joins_after hm s.gateway s.clock given.fresh t r _ given _
  | rpc caller c given =>
    rw [act, Rpc.perform]
    cases caller.tenant with
    | error status => exact .of_eq rfl
    | ok t => exact joins_after hm s.gateway s.clock given.fresh t c.request _ given _
  | relayFeed f how => exact .add rfl fun id hid _ => ⟨f, how, rfl, Option.some.inj hid, rfl⟩
  | relayChannels t channels how =>
    rw [act]
    rcases Store.Follows.feed_cases hm t channels with ⟨store, heq, -⟩ | heq
    · rw [heq]
      exact .addNew rfl (.inl rfl)
    · rw [heq]
      exact .addNew rfl (.inr rfl)
  | read handle limit => cases hx
  | cancel handle => exact .map (.ite (.stop (.cancel handle))) rfl
  | leave handle => exact .map (.ite (.stop (.leave handle))) rfl
  | hangUp handle => exact .map (.ite (.stop (.hangUp handle))) rfl
  | outcome handle =>
    rw [outcome_eq hs.handles_nodup]
    exact .map (.ite .reported) rfl
  | _ => exact .of_eq rfl

section Turn

variable {y : Turn} (hs : Roster l s.relays s.store) (hy : y.isRightful l s = true)

include hs

/-- A caller that takes an item is the only one that notices. -/
theorem task?_take (other : Nat) : (s.turn (.take other)).2.task? handle =
    (s.task? handle).map fun t => if handle = other then t.taken else t := by
  have hhandle : ∀ t : RelayTask, (if t.handle = other then t.taken else t).handle = t.handle :=
    fun t => (RelayTask.Handled.ite (p := fun t => t.handle = other) .taken t).handle
  rw [turn, pick_eq hs.handles_nodup]
  rw [task?_of_relays (List.append_nil _).symm hhandle handle]
  cases ht : s.task? handle with
  | none => rfl
  | some t =>
    rw [Option.map_some, Option.map_some, (task?_mem ht).2]
    rfl

theorem task?_take_own (ht : s.task? handle = some t) :
    (s.turn (.take handle)).2.task? handle = some t.taken := by
  rw [task?_take hs, ht, Option.map_some, if_pos rfl]

include hy

/-- In any turn but its own moves and the reads of its caller, a relay is left alone or interrupted. -/
theorem undisturbed_turn (hmove : y ≠ .move handle) (htake : y ≠ .take handle)
    (ht : s.task? handle = some t) :
    ∃ t', (s.turn y).2.task? handle = some t' ∧ t.Undisturbed t' := by
  cases y with
  | act x => exact (joins_act hs hy).task?_of_some ht
  | take other =>
    have hne : handle ≠ other := fun e => htake (congrArg Turn.take e.symm)
    refine ⟨t, ?_, .refl t⟩
    rw [task?_take hs, ht, Option.map_some, if_neg hne]
  | move other =>
    have hne : other ≠ handle := fun e => hmove (congrArg Turn.move e)
    exact ⟨t, (task?_move_of_ne hne).1.trans ht, .refl t⟩
  | wall now => exact ⟨t, ht, .refl t⟩

/-- A relay that was not there reads a new subscription, if any, or one that was handed over. -/
theorem started_turn (ht : s.task? handle = none) (ht' : (s.turn y).2.task? handle = some t')
    {id : Nat} (hid : t'.relay.source = some id) (hlt : id < s.store.hub.nextId) :
    ∃ feed how, y = .act (.relayFeed feed how) ∧ feed.id = id ∧
      t'.relay = (Relay.start feed how.mailbox how.isCancelled how.turns).1 := by
  have hnot : (s.turn y).2.task? handle ≠ none := fun hnone => by cases hnone.symm.trans ht'
  cases y with
  | act x =>
    obtain ⟨feed, how, rfl, hfeed⟩ := (joins_act hs hy).started_of_none ht ht' hid hlt
    exact ⟨feed, how, rfl, hfeed⟩
  | take other =>
    refine absurd ?_ hnot
    rw [task?_take hs, ht]
    rfl
  | move other =>
    refine absurd ?_ hnot
    by_cases hother : other = handle
    · subst hother
      rw [turn, moveOf?_of_none ht]
      exact ht
    · exact (task?_move_of_ne hother).1.trans ht
  | wall now => exact absurd ht hnot

omit hs hy in
/-- A move does not make good that a relay is interrupted. -/
theorem interrupted_moved (h : t.relay.interruption?.isSome = true) :
    (s.moved t).relay.interruption?.isSome = true := by
  unfold moved
  cases he : t.relay.isEnded with
  | true =>
    rw [Relay.move?_of_ended he]
    exact h
  | false =>
    obtain ⟨o, ho⟩ := Option.isSome_iff_exists.1 h
    obtain ⟨e, hmove⟩ := Relay.move?_of_interrupted he ho s.store s.clock.wall
    rw [hmove]
    exact h

/-- A relay that is interrupted stays so, and goes on to read the subscription that it read. -/
theorem interrupted_turn (ht : s.task? handle = some t) :
    ∃ t', (s.turn y).2.task? handle = some t' ∧ t'.relay.source = t.relay.source ∧
      (t.relay.interruption?.isSome = true → t'.relay.interruption?.isSome = true) := by
  by_cases hmove : y = .move handle
  · subst hmove
    refine ⟨s.moved t, task?_move ht, ?_, interrupted_moved⟩
    unfold moved
    cases hm : t.relay.move? s.store s.clock.wall with
    | none => rfl
    | some x => exact (Relay.moves_of_move? hm).source_eq
  · obtain ⟨t', ht', hhandled⟩ := task?_turn hs hy hmove ht
    exact ⟨t', ht', hhandled.source, hhandled.interrupted⟩

theorem uninterrupted_turn (ht : s.task? handle = some t)
    (ht' : (s.turn y).2.task? handle = some t') (hi : t'.relay.interruption? = none) :
    t.relay.interruption? = none := by
  obtain ⟨u, hu, -, hinterrupted⟩ := interrupted_turn hs hy ht
  cases hu.symm.trans ht'
  rw [← Option.not_isSome_iff_eq_none] at hi ⊢
  exact fun hsome => hi (hinterrupted hsome)

/-- What a caller holds that is not new, it held before, and it did not drop it. -/
theorem held_turn {id : Nat} (hlt : id < s.store.hub.nextId)
    (hid : id ∈ (y.ledger l (s.turn y).1).map (·.1)) :
    id ∈ l.map (·.1) ∧ y ≠ .act (.unsubscribe id) := by
  have hopened : ∀ channels : List String, id ∈ (l ++ [(s.store.hub.nextId, channels)]).map (·.1) →
      id ∈ l.map (·.1) := by
    intro channels hmem
    rw [List.map_append, List.mem_append] at hmem
    exact hmem.resolve_right fun hnew => Nat.ne_of_lt hlt (List.mem_singleton.1 hnew)
  have hkept : ∀ j, id ∈ (l.filter (·.1 ≠ j)).map (·.1) → id ∈ l.map (·.1) ∧ j ≠ id := by
    intro j hmem
    obtain ⟨p, hp, rfl⟩ := List.mem_map.1 hmem
    obtain ⟨hpl, hne⟩ := List.mem_filter.1 hp
    exact ⟨List.mem_map_of_mem hpl, (of_decide_eq_true hne).symm⟩
  refine ⟨?_, fun e => ?_⟩
  · cases y with
    | take other => exact hid
    | move other => exact hid
    | wall now => exact hid
    | act x =>
      cases x with
      | unsubscribe j => exact (hkept j hid).1
      | relayFeed f how => exact (hkept f.id hid).1
      | openFeed t channels =>
        rw [turn, act] at hid
        rcases Store.Follows.feed_cases hs.inMemory t channels with ⟨store, heq, -⟩ | heq
        · rw [heq] at hid
          exact hopened _ hid
        · rw [heq] at hid
          exact hid
      | store c =>
        cases c with
        | subscribe channels =>
          rw [turn, act, Store.call] at hid
          rcases Store.Follows.subscribe_cases hs.inMemory channels with ⟨store, heq, -⟩ | heq
          · rw [heq] at hid
            exact hopened _ hid
          · rw [heq] at hid
            exact hid
        | _ => exact hid
      | _ => exact hid
  · subst e
    exact (hkept id hid).2 rfl

omit hy in
/-- What a caller holds no relay reads. -/
theorem not_source_of_held {id : Nat} (hid : id ∈ l.map (·.1)) (ht : t ∈ s.relays) :
    t.relay.source ≠ some id := fun hsource =>
  (List.nodup_append.1 hs.ids_nodup).2.2 id hid id (List.mem_filterMap.2 ⟨t, ht, hsource⟩) rfl

/-- Nobody else touches the subscription that a relay reads. -/
theorem not_touches_of_source (hmove : y ≠ .move handle) (ht : s.task? handle = some t) {id : Nat}
    (hid : t.relay.source = some id) : ¬ y.Touches s id := by
  obtain ⟨hmem, hhandle⟩ := task?_mem ht
  have hheld : ¬ l.any (·.1 = id) = true := by
    intro hany
    obtain ⟨p, hp, hpid⟩ := List.any_eq_true.1 hany
    refine not_source_of_held hs (List.mem_map.2 ⟨p, hp, ?_⟩) hmem hid
    exact of_decide_eq_true hpid
  intro htouches
  cases y with
  | take other => exact htouches
  | wall now => exact htouches
  | move other =>
    obtain ⟨u, hu, huid⟩ := htouches
    obtain ⟨humem, huhandle⟩ := task?_mem hu
    have hsame := hs.eq_of_source humem hmem huid hid
    exact hmove (congrArg Turn.move (huhandle.symm.trans ((congrArg _ hsame).trans hhandle)))
  | act x =>
    cases x with
    | drain j limit =>
      cases htouches
      exact hheld hy
    | unsubscribe j =>
      cases htouches
      exact hheld hy
    | _ => exact htouches

/-- What a caller still holds it touches itself, or nobody does. -/
theorem not_touches_of_held {id : Nat} (hlt : id < s.store.hub.nextId)
    (hid : id ∈ (y.ledger l (s.turn y).1).map (·.1))
    (hdrain : ∀ limit, y ≠ .act (.drain id limit)) : ¬ y.Touches s id := by
  obtain ⟨hheld, hkept⟩ := held_turn hs hy hlt hid
  intro htouches
  cases y with
  | take other => exact htouches
  | wall now => exact htouches
  | move other =>
    obtain ⟨u, hu, huid⟩ := htouches
    exact not_source_of_held hs hheld (task?_mem hu).1 huid
  | act x =>
    cases x with
    | drain j limit =>
      cases htouches
      exact hdrain limit rfl
    | unsubscribe j =>
      cases htouches
      exact hkept rfl
    | _ => exact htouches

end Turn

/-- A relay that is given a turn moves, with the store behind it, or it cannot. -/
theorem turn_move_cases (ht : s.task? handle = some t) :
    (∃ r store e, t.relay.move? s.store s.clock.wall = some (r, store, e) ∧
      (s.turn (.move handle)).2.task? handle = some { t with relay := r } ∧
      (s.turn (.move handle)).2.store = store) ∨
    t.relay.move? s.store s.clock.wall = none ∧
      (s.turn (.move handle)).2.task? handle = some t ∧
      (s.turn (.move handle)).2.store = s.store := by
  have htask := task?_move ht
  obtain ⟨l₁, l₂, hsplit, hhandle, hbefore⟩ := split_of_task? ht
  obtain ⟨r, store, e, -, hafter, hmove⟩ := turn_move hsplit hhandle hbefore
  have hstore : (s.turn (.move handle)).2.store = store := by
    rw [hafter]
    rfl
  unfold moved at htask
  rcases hmove with hmove | ⟨hmove, -, rfl⟩
  · rw [hmove] at htask
    exact .inl ⟨r, store, e, hmove, htask, hstore⟩
  · rw [hmove] at htask
    exact .inr ⟨hmove, htask, hstore⟩

/-- Channels keep the capacity that they were made for. -/
theorem capacity_over {ys : List Turn} : ∀ {l : Holdings} {s : Service}, s.Steady l →
    isRightfulOver l s ys = true → (runOf turn s ys).2.store.hub.capacity = s.store.hub.capacity := by
  induction ys with
  | nil => exact fun _ _ => rfl
  | cons y ys ih =>
    intro l s hs hys
    obtain ⟨hy, hys⟩ := Bool.and_eq_true_iff.1 hys
    obtain ⟨touched, hchanges, -⟩ := changes_turn hs hy
    exact (ih (hs.turn hy) hys).trans hchanges.capacity_eq

theorem isOpen_of_taken (hi : t.taken.relay.interruption? = none) :
    t.relay.mailbox.isOpen = true := by
  by_contra hleft
  have hsame : t.taken = t := if_neg hleft
  rw [hsame] at hi
  exact hleft (Relay.isOpen_of_not_interrupted hi).2

/-- What a caller that has not left leaves in the mailbox. -/
theorem relay_taken (hi : t.taken.relay.interruption? = none) : t.taken.relay =
    { t.relay with mailbox := { t.relay.mailbox with items := t.relay.mailbox.items.tail } } := by
  unfold RelayTask.taken Mailbox.take?
  rw [if_pos (isOpen_of_taken hi)]
  cases hitems : t.relay.mailbox.items with
  | nil =>
    simp only [Option.map_none, Option.getD_none, List.tail_nil]
    rw [← hitems]
  | cons x rest => rfl

/-- A relay that is there stays there, and goes on to read its subscription; nobody takes back that it
was interrupted. -/
theorem task?_run {ys : List Turn} : ∀ {l : Holdings} {s : Service} {t : RelayTask}, s.Steady l →
    isRightfulOver l s ys = true → s.task? handle = some t →
    ∃ t', (runOf turn s ys).2.task? handle = some t' ∧ t'.relay.source = t.relay.source ∧
      (t'.relay.interruption? = none → t.relay.interruption? = none) := by
  induction ys with
  | nil => exact fun _ _ ht => ⟨_, ht, rfl, id⟩
  | cons y ys ih =>
    intro l s t hs hys ht
    obtain ⟨hy, hys⟩ := Bool.and_eq_true_iff.1 hys
    obtain ⟨t', ht', hsource, -⟩ := interrupted_turn hs.roster hy ht
    obtain ⟨u, hu, hsource', hfree⟩ := ih (hs.turn hy) hys ht'
    exact ⟨u, hu, hsource'.trans hsource, fun hi => uninterrupted_turn hs.roster hy ht ht' (hfree hi)⟩

/-- The caller of a relay takes the first item, if there is one, unless it has left. -/
theorem taken?_take (ht : s.task? handle = some t) : s.taken? handle (.take handle) =
    if t.relay.mailbox.isOpen then t.relay.mailbox.items.head? else none := by
  have hreader : s.hasReader handle = t.relay.mailbox.isOpen := by
    rw [hasReader, relay?, ht]
    rfl
  have hpicked : (s.picked? handle).map (·.1) = t.relay.mailbox.items.head? := by
    rw [picked?, relay?, ht, Option.map_some, Option.bind_some, Mailbox.take?]
    cases t.relay.mailbox.items <;> rfl
  rw [taken?, hreader, hpicked]
  simp only [true_and]

/-- Only the caller of a relay takes its items. -/
theorem taken?_of_ne {y : Turn} (hy : y ≠ .take handle) : s.taken? handle y = none := by
  cases y with
  | take other => exact if_neg fun e => hy (congrArg Turn.take e.1)
  | _ => rfl

/-- A turn in which a relay does not move puts nothing into its mailbox: what its caller takes, and what
is left behind that, was there. -/
theorem items_turn (hs : Roster l s.relays s.store) {y : Turn} (hy : y.isRightful l s = true)
    (hmove : y ≠ .move handle) (ht : s.task? handle = some t)
    (ht' : (s.turn y).2.task? handle = some t') :
    (s.taken? handle y).toList ++ t'.relay.mailbox.items <+: t.relay.mailbox.items := by
  by_cases htake : y = .take handle
  · subst htake
    cases (task?_take_own hs ht).symm.trans ht'
    rw [taken?_take ht]
    unfold RelayTask.taken Mailbox.take?
    split
    · cases hitems : t.relay.mailbox.items with
      | nil => simp [hitems]
      | cons x rest => exact List.prefix_rfl
    · exact List.prefix_rfl
  · obtain ⟨u, hu, hundisturbed⟩ := undisturbed_turn hs hy hmove htake ht
    cases hu.symm.trans ht'
    rw [taken?_of_ne htake]
    exact hundisturbed.items

theorem taken?_of_none (ht : s.task? handle = none) (y : Turn) : s.taken? handle y = none := by
  by_cases hy : y = .take handle
  · rw [hy, taken?, hasReader, relay?, ht]
    exact if_neg fun h => Bool.false_ne_true h.2
  · exact taken?_of_ne hy

end Service

end Tenancy
