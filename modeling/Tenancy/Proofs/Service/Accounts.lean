import Tenancy.Proofs.Service.Ledger
import Tenancy.Proofs.Service.Session

/-!
# Subscriptions are accounted for

A subscription belongs to a caller or to a relay from the call that opens it until it is dropped.
Every step keeps a service accounted (`Service.Accounted`), and so does all that happens between
steps; so in every state that a service can reach, the counts of the store are the numbers of its
holders, and nothing is left once all of them are through (`Service.subscriptions_accounted`).
-/

namespace Tenancy

open Metrics

/-! ## Calls -/

/-- The reply opens no feed, and its samples leave the gauge alone. -/
structure Reply.Feedless (store : Store) (r : Reply) : Prop where
  store : r.store = store
  feed : r.feed = none
  gauge : gauge r.effects.samples = 0

/-- The books are right after the reply, with what its feed holds. -/
structure Reply.Booked (shut : Bool) (held : Holdings) (r : Reply) : Prop where
  books : r.store.InOrder shut (held ++ holdingOf r.feed)
  gauge : gauge r.effects.samples = 0

variable {shut : Bool} {held : Holdings} {s : Store}

theorem Reply.Feedless.booked {r : Reply} (h : r.Feedless s) (hb : s.InOrder shut held) :
    r.Booked shut held := by
  refine ⟨?_, h.gauge⟩
  rw [h.store, h.feed]
  exact (List.append_nil held).symm ▸ hb

namespace Gateway

section

variable (clock : Clock) (token : String) (t : Tenant) (s : Store)

theorem feedless_acquire (key : String) (ttl : Span) : (acquire clock token t s key ttl).Feedless
    (Lock.acquire (.ofLogical t key) token clock.now s ttl).2 := by
  unfold acquire
  rcases Lock.acquire (.ofLogical t key) token clock.now s ttl with ⟨e | _ | _, s'⟩
  · exact ⟨rfl, rfl, rfl⟩
  · exact ⟨rfl, rfl, rfl⟩
  · exact ⟨rfl, rfl, rfl⟩

theorem feedless_release (key : String) : (release clock token t s key).Feedless
    (Lock.release (.ofLogical t key) token clock.now s).2 := by
  unfold release
  rcases Lock.release (.ofLogical t key) token clock.now s with ⟨e | _ | _, s'⟩
  · exact ⟨rfl, rfl, rfl⟩
  · exact ⟨rfl, rfl, rfl⟩
  · exact ⟨rfl, rfl, rfl⟩

theorem feedless_renew (key : String) (ttl : Span) : (renew clock token t s key ttl).Feedless
    (Lock.renew (.ofLogical t key) token clock.now s ttl).2 := by
  unfold renew
  rcases Lock.renew (.ofLogical t key) token clock.now s ttl with ⟨e | _ | _, s'⟩
  · exact ⟨rfl, rfl, rfl⟩
  · exact ⟨rfl, rfl, rfl⟩
  · exact ⟨rfl, rfl, rfl⟩

theorem feedless_publish (channel payload : String) :
    (publish clock t s channel payload).Feedless (s.publish (t.isolate channel) payload).2 := by
  unfold publish
  rcases s.publish (t.isolate channel) payload with ⟨e | n, s'⟩
  · exact ⟨rfl, rfl, rfl⟩
  · exact ⟨rfl, rfl, rfl⟩

end

variable (clock : Clock) (token : String) (t : Tenant)

theorem booked_subscribe (h : s.InOrder shut held) (names : List String) :
    (subscribe t s names).Booked shut held := by
  unfold subscribe
  rcases h.feed t names with ⟨f, s', hs, hb⟩ | ⟨e, hs⟩
  · rw [hs]
    exact ⟨hb, rfl⟩
  · rw [hs]
    exact ⟨(List.append_nil held).symm ▸ h, rfl⟩

/-- The work of a call opens what its feed holds. -/
theorem booked_perform (h : s.InOrder shut held) (r : Request) :
    (perform clock token t r s).Booked shut held := by
  cases r with
  | acquire key ttl =>
    exact (feedless_acquire clock token t s key ttl).booked (h.acquire _ token clock.now ttl)
  | release key token =>
    exact (feedless_release clock token t s key).booked (h.release _ token clock.now)
  | renew key token ttl =>
    exact (feedless_renew clock token t s key ttl).booked (h.renew _ token clock.now ttl)
  | publish channel payload =>
    exact (feedless_publish clock t s channel payload).booked (h.publish _ payload)
  | subscribe names => exact booked_subscribe t h names

theorem booked_call (h : s.InOrder shut held) (g : Gateway) (r : Request) :
    (g.call clock token t r s).Booked shut held := by
  unfold call
  split
  · exact ⟨(List.append_nil held).symm ▸ h, rfl⟩
  · obtain ⟨hbooks, hgauge⟩ := booked_perform clock token t h r
    exact ⟨hbooks, (gauge_append _ _).trans (Int.zero_add _ ▸ hgauge)⟩

end Gateway

namespace Service

variable {base : Int} {l l' : Holdings} {s s' : Service}

namespace Accounted

/-- After a call that opens a feed, a relay holds it. -/
theorem after (h : s.Accounted shut base l) {store : Store} {e : Effects} {feed : Option Feed}
    (hb : store.InOrder shut (l ++ s.holdings ++ holdingOf feed))
    (he : Metrics.gauge e.samples = 0) (given : Supply) :
    (s.after store e feed given).Accounted shut base l := by
  cases feed with
  | none => exact (h.withStore (List.append_nil (l ++ s.holdings) ▸ hb)).leaving he
  | some f =>
    have hgauge : Metrics.gauge (s.samples ++ e.samples) = base + s.running := (h.leaving he).gauge
    exact addRelay hgauge (List.append_assoc l .. ▸ hb) rfl given.handle true

/-- One more subscription of a caller. -/
theorem withNew (h : s.Accounted shut base l) {store : Store} {p : Nat × List String}
    (hb : store.InOrder shut (l ++ s.holdings ++ [p])) :
    { s with store }.Accounted shut base (l ++ [p]) := by
  refine h.withStore (hb.perm ?_)
  rw [List.append_assoc, List.append_assoc]
  exact List.perm_append_comm.append_left l

/-! ## Steps -/

/-- Of the calls of the store, only one that opens a subscription changes who holds what. -/
theorem storeCall (h : s.Accounted shut base l) (c : StoreCall) :
    (s.act (.store c)).2.Accounted shut base (Step.ledger l (.store c) (s.act (.store c)).1) := by
  by_cases hc : ∃ channels, c = .subscribe channels
  · obtain ⟨channels, rfl⟩ := hc
    rw [Service.act, Store.call]
    rcases h.books.subscribe channels with ⟨id, s', hs, hb⟩ | ⟨e, hs⟩
    · rw [hs]
      exact h.withNew hb
    · rw [hs]
      exact h
  · have hledger : Step.ledger l (.store c) (s.act (.store c)).1 = l := by
      cases c with
      | subscribe channels => exact absurd ⟨channels, rfl⟩ hc
      | _ => rfl
    rw [hledger]
    exact h.withStore (h.books.call s.clock.now fun channels heq => hc ⟨channels, heq⟩)

/-- Every step keeps the service accounted, if callers drop only what they hold. -/
theorem act (h : s.Accounted shut base l) {x : Step} (hx : x.isOwned l = true) :
    (s.act x).2.Accounted shut base (x.ledger l (s.act x).1) := by
  cases x with
  | advance d => exact ⟨h.books, h.gauge⟩
  | sweep => exact h.withStore (h.books.purge s.clock.now)
  | startSweeper interval =>
    refine leaving ?_ rfl
    exact ⟨h.books, h.gauge⟩
  | stopSweepers =>
    refine leaving ?_ rfl
    exact ⟨h.books, h.gauge⟩
  | shutDown =>
    obtain ⟨hbooks, hgauge⟩ := h.mapRelays (f := fun t =>
      if t.ofGateway then { t with relay := { t.relay with cancelled := true } } else t)
      fun t => by split <;> rfl
    exact ⟨hbooks, hgauge⟩
  | closeStore => exact (h.withStore (Store.inOrder_close s.store shut _)).leaving rfl
  | setFailing on => exact h.withStore (h.books.withFaults _)
  | breakSubscriptions e => exact h.withStore (h.books.withFaults _)
  | store c => exact h.storeCall c
  | drain id limit => exact h.drainIn id (s.store.waiting id + 1) stint limit
  | unsubscribe id =>
    refine h.withStore (h.books.dropOwn ?_)
    obtain ⟨p, hp, hid⟩ := List.any_eq_true.1 hx
    exact List.mem_map.2 ⟨p, hp, of_decide_eq_true hid⟩
  | lock t key c =>
    cases c with
    | acquire fresh ttl => exact h.withStore (h.books.acquire _ fresh s.clock.now ttl)
    | release token => exact h.withStore (h.books.release _ token s.clock.now)
    | renew token ttl => exact h.withStore (h.books.renew _ token s.clock.now ttl)
  | call t r given =>
    obtain ⟨hbooks, hgauge⟩ := Gateway.booked_call s.clock given.fresh t h.books s.gateway r
    exact h.after hbooks hgauge given
  | rpc caller c given =>
    rw [Service.act, Rpc.perform]
    cases caller.tenant with
    | error status =>
      have hbooks : s.store.InOrder shut (l ++ s.holdings ++ holdingOf none) :=
        (List.append_nil (l ++ s.holdings)).symm ▸ h.books
      exact h.after (e := {}) hbooks rfl given
    | ok t =>
      obtain ⟨hbooks, hgauge⟩ :=
        Gateway.booked_call s.clock given.fresh t h.books s.gateway c.request
      exact h.after hbooks hgauge given
  | openFeed t channels =>
    rw [Service.act]
    rcases h.books.feed t channels with ⟨f, s', hs, hb⟩ | ⟨e, hs⟩
    · rw [hs]
      exact h.withNew hb
    · rw [hs]
      exact h
  | relayFeed f how =>
    have hmem : (f.id, distinct f.channels) ∈ l := List.contains_iff_mem.1 hx
    exact addRelay h.gauge (h.books.handOver hmem) rfl how.handle false
  | relayChannels t channels how =>
    rw [Service.act]
    rcases h.books.feed t channels with ⟨f, s', hs, hb⟩ | ⟨e, hs⟩
    · rw [hs]
      exact addRelay (s := { s with store := s' }) h.gauge (List.append_assoc l .. ▸ hb) rfl
        how.handle false
    · rw [hs]
      exact addRelay h.gauge ((List.append_nil s.holdings).symm ▸ h.books) rfl how.handle false
  | read handle limit =>
    rw [Service.act]
    split
    · exact h.readIn handle (s.readable handle + 1) limit
    · exact h
  | cancel handle =>
    exact h.mapRelay (f := fun r => { r with cancelled := true }) (fun _ => rfl) handle
  | leave handle =>
    exact h.mapRelay (f := fun r => { r with mailbox := r.mailbox.drop }) (fun _ => rfl) handle
  | hangUp handle =>
    exact h.mapRelay (f := fun r => { r with mailbox := r.mailbox.drop, cancelled := true })
      (fun _ => rfl) handle
  | outcome handle =>
    rw [act_outcome]
    split
    · exact h.mapTask (f := fun t => { t with isReported := true }) (fun _ => rfl) handle
    · exact h

end Accounted

/-! ## Runs -/

/-- What happens to a service and the ledger of its callers: a step from outside, or, between two
steps and in any order, a move of a relay, a reader that takes an item, records handed over, or a
round of the sweepers. -/
inductive Happens : Holdings × Service → Holdings × Service → Prop where
  | act {l : Holdings} {s : Service} {x : Step} (hx : x.isOwned l = true) :
    Happens (l, s) (x.ledger l (s.act x).1, (s.act x).2)
  | move {l : Holdings} {s s' : Service} {i : Nat} (hm : s.moveAt? i = some s') :
    Happens (l, s) (l, s')
  | pick {l : Holdings} {s s' : Service} {handle : Nat} {x : RelayItem}
    (hx : s.picked? handle = some (x, s')) : Happens (l, s) (l, s')
  | deliver {l : Holdings} {s : Service} : Happens (l, s) (l, s.deliver)
  | sweep {l : Holdings} {s : Service} : Happens (l, s) (l, s.runSweepers)

/-- What a service can become, with the ledger of its callers. -/
abbrev Reaches : Holdings × Service → Holdings × Service → Prop := Relation.ReflTransGen Happens

theorem Accounted.happens {x y : Holdings × Service} (h : x.2.Accounted shut base x.1)
    (hxy : Happens x y) : y.2.Accounted shut base y.1 := by
  cases hxy with
  | act hx => exact h.act hx
  | move hm => exact h.move hm
  | pick hx => exact h.picked? hx
  | deliver => exact h.deliver
  | sweep => exact h.runSweepers

theorem Accounted.reaches {x y : Holdings × Service} (h : x.2.Accounted shut base x.1)
    (hxy : Reaches x y) : y.2.Accounted shut base y.1 := by
  induction hxy with
  | refl => exact h
  | tail _ hstep ih => exact ih.happens hstep

theorem reaches_settleIn (l : Holdings) (n : Nat) (s : Service) :
    Reaches (l, s) (l, settleIn n s) := by
  induction n generalizing s with
  | zero => exact .refl
  | succ n ih =>
    rw [settleIn]
    cases hm : s.move? with
    | none => exact .refl
    | some s' =>
      obtain ⟨i, -, hi⟩ := List.exists_of_findSome?_eq_some hm
      exact .head (.move hi) (ih s')

/-- A step until the service is at rest again. -/
theorem reaches_step {x : Step} (hx : x.isOwned l = true) :
    Reaches (l, s) (x.ledger l (s.step x).1, (s.step x).2) := by
  refine .head (.act hx) ?_
  refine (reaches_settleIn _ (s.act x).2.reach _).trans ?_
  exact .tail (.single .deliver) .sweep

/-- The ledger after a run. -/
def ledgerIn : Holdings → Service → List Step → Holdings
  | l, _, [] => l
  | l, s, x :: xs => ledgerIn (x.ledger l (s.step x).1) (s.step x).2 xs

/-- Callers drop only what they hold in a run. -/
def isOwnedIn : Holdings → Service → List Step → Bool
  | _, _, [] => true
  | l, s, x :: xs => x.isOwned l && isOwnedIn (x.ledger l (s.step x).1) (s.step x).2 xs

theorem reaches_run {xs : List Step} : ∀ {l : Holdings} {s : Service}, isOwnedIn l s xs = true →
    Reaches (l, s) (ledgerIn l s xs, (s.run xs).2) := by
  induction xs with
  | nil => exact fun _ => .refl
  | cons x xs ih =>
    intro l s hx
    obtain ⟨hx, hxs⟩ := Bool.and_eq_true_iff.1 hx
    exact (reaches_step hx).trans (ih hxs)

/-! ## Accounts -/

/-- How many hold the channel: callers directly, and relays that run. -/
def holders (l : Holdings) (s : Service) (c : String) : Nat :=
  l.countP (fun p => c ∈ p.2) +
    s.relays.countP fun t => t.relay.isRunning && decide (c ∈ t.relay.channels)

theorem holders_eq_countP (l : Holdings) (s : Service) (c : String) :
    s.holders l c = (l ++ s.holdings).countP fun p => c ∈ p.2 := by
  rw [List.countP_append, holders, holdings, List.countP_filterMap]
  congr 1
  exact List.countP_congr fun t _ => (t.relay.holds_iff c).symm

theorem holders_eq_zero {c : String} (hr : ∀ t ∈ s.relays, t.relay.isEnded = true) :
    s.holders [] c = 0 := by
  rw [holders, List.countP_nil, Nat.zero_add]
  refine List.countP_eq_zero.2 fun t ht => ?_
  rw [Relay.isRunning, hr t ht]
  simp

/-- Take a service with an empty store and without relays, and let anything happen to it, where
callers drop only what they hold; `l` is what they hold in the end. While the store is open, the
count of a channel is the number of its holders, and a publish reaches that many. The counts of all
channels together are the active subscriptions, no channel is kept without subscribers, and the
gauge has moved by the number of relays that run. Once the store is closed, all counts are zero and
stay zero. Where all relays have ended and callers hold nothing, no subscription is active. -/
theorem subscriptions_accounted {start s : Service} {l : Holdings} {capacity : Nat}
    (hstore : start.store = .ofCapacity capacity) (hrelays : start.relays = [])
    (hreach : Reaches ([], start) (l, s)) :
    (s.store.closed = false → ∀ c, s.store.hub.count c = s.holders l c ∧
      ∀ payload, (s.store.publish c payload).1 = .ok (s.store.hub.count c)) ∧
    (Function.support s.store.hub.count).Finite ∧
    s.store.hub.active = ∑ᶠ c, s.store.hub.count c ∧
    (∀ p ∈ s.store.hub.counts, 0 < p.2) ∧
    total s.samples .activeRelays = total start.samples .activeRelays + s.running ∧
    (s.store.closed = true → ∀ l' s', Reaches (l, s) (l', s') →
      (∀ c, s'.store.hub.count c = 0) ∧ s'.store.hub.active = 0) ∧
    (l = [] → (∀ t ∈ s.relays, t.relay.isEnded = true) → s.store.hub.active = 0) := by
  have hstart : start.Accounted false (total start.samples .activeRelays) [] := by
    refine ⟨?_, ?_⟩
    · rw [hstore, holdings, hrelays]
      exact Store.inOrder_ofCapacity capacity
    · rw [running, hrelays]
      exact (Int.add_zero _).symm
  have h : s.Accounted false (total start.samples .activeRelays) l := hstart.reaches hreach
  have hcount : s.store.closed = false → ∀ c, s.store.hub.count c = s.holders l c := by
    intro ho c
    rw [h.books.count_eq ho, holders_eq_countP]
  have hshut : s.store.closed = true → ∀ l' s', Reaches (l, s) (l', s') →
      (∀ c, s'.store.hub.count c = 0) ∧ s'.store.hub.active = 0 := by
    intro hc l' s' hlater
    have hseen : s.Accounted true (total start.samples .activeRelays) l :=
      ⟨h.books.seen_closed hc, h.gauge⟩
    have h' : s'.Accounted true (total start.samples .activeRelays) l' := hseen.reaches hlater
    have hzero : ∀ c, s'.store.hub.count c = 0 := h'.books.stays_shut.count_eq
    refine ⟨hzero, ?_⟩
    rw [h'.books.active_eq]
    exact finsum_eq_zero_of_forall_eq_zero hzero
  refine ⟨fun ho c => ⟨hcount ho c, h.books.publish_eq ho c⟩, s.store.hub.finite_support_count,
    h.books.active_eq, h.books.busy, h.gauge, hshut, ?_⟩
  rintro rfl hended
  cases hc : s.store.closed with
  | true => exact (hshut hc [] s .refl).2
  | false =>
    rw [h.books.active_eq]
    refine finsum_eq_zero_of_forall_eq_zero fun c => ?_
    rw [hcount hc, holders_eq_zero hended]

/-- A caller and a relay hold the same channel, and the caller one more; a second relay was
cancelled, and the reader of a third one has hung up. When the caller drops its subscription and the
relay is cancelled, nothing is left. -/
theorem subscriptions_accounted_shared_channel :
    let ann : Tenant := ⟨"ann", none⟩
    let start : Service := { clock := ⟨⟨0⟩, default⟩, store := .ofCapacity 4 }
    let xs : List Step :=
      [.store (.subscribe [ann.isolate "a", "b", ann.isolate "a"]),
        .call ann (.subscribe ["a"]) { handle := 1 }, .call ann (.subscribe ["a"]) { handle := 2 },
        .relayChannels ann ["a"] { handle := 3, capacity := 1 }, .cancel 2, .hangUp 3]
    let ys : List Step := xs ++ [.unsubscribe 0, .cancel 1]
    let s := (start.run xs).2
    s.store.hub.count (ann.isolate "a") = 2 ∧
      (s.store.publish (ann.isolate "a") "x").1 = .ok 2 ∧
      total s.samples .activeRelays = 1 ∧
      (start.run ys).2.store.hub.active = 0 := by
  intro ann start xs ys s
  have hxs : isOwnedIn [] start xs = true := by decide +kernel
  have hys : isOwnedIn [] start ys = true := by decide +kernel
  obtain ⟨hopen, -, -, -, hgauge, -⟩ :=
    subscriptions_accounted (s := s) (by rfl) (by rfl) (reaches_run hxs)
  obtain ⟨-, -, -, -, -, -, hnothing⟩ := subscriptions_accounted (by rfl) (by rfl) (reaches_run hys)
  have hnotClosed : s.store.closed = false := by decide +kernel
  obtain ⟨hcount, hpublish⟩ := hopen hnotClosed (ann.isolate "a")
  have hholders : holders (ledgerIn [] start xs) s (ann.isolate "a") = 2 := by decide +kernel
  have hrunning : s.running = 1 := by decide +kernel
  have hledger : ledgerIn [] start ys = [] := by decide +kernel
  have hended : ∀ t ∈ (start.run ys).2.relays, t.relay.isEnded = true := by decide +kernel
  rw [hholders] at hcount
  rw [hrunning] at hgauge
  refine ⟨hcount, ?_, hgauge, hnothing hledger hended⟩
  rw [hpublish, hcount]

end Service

end Tenancy
