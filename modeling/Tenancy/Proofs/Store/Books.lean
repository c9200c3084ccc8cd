import Tenancy.Lock
import Tenancy.Proofs.Hub.Holdings
import Tenancy.Proofs.Store.Plain
import Tenancy.Relay.Feed
import Tenancy.Store.Call
import Tenancy.Store.Sweeper

/-!
# Books of a store

`Store.InOrder` says that the books of a store are right: while it is open its subscriptions are
exactly those in `held` and no channel is kept without subscribers, and once it is closed it keeps
no channel at all. Every call keeps the books; a subscription adds to `held`, and dropping one takes
it away.
-/

namespace Tenancy

/-- A sweeper purges the store or leaves it alone. -/
theorem Sweeper.run_cases (w : Sweeper) (now : Instant) (s : Store) :
    (w.run now s).2 = s ∨ (w.run now s).2 = (s.purge now).2 := by
  unfold Sweeper.run
  cases w.isDue now with
  | false => exact .inl rfl
  | true =>
    cases w.plan? now with
    | none => exact .inl rfl
    | some next => exact .inr rfl

/-- Sweepers keep what a purge keeps. -/
theorem Sweeper.runAll_keeps {p : Store → Prop} {now : Instant}
    (hpurge : ∀ {s : Store}, p s → p (s.purge now).2) (ws : List Sweeper) :
    ∀ {s : Store}, p s → p (Sweeper.runAll now ws s).2 := by
  induction ws with
  | nil => exact fun h => h
  | cons w ws ih =>
    intro s h
    have hw : p (w.run now s).2 := by
      rcases w.run_cases now s with hr | hr
      · rw [hr]
        exact h
      · rw [hr]
        exact hpurge h
    rw [Sweeper.runAll]
    generalize w.run now s = r at hw ⊢
    exact ih hw

namespace Store

/-- An open store whose subscriptions are those in `held`. -/
structure Books (held : Holdings) (s : Store) : Prop where
  plain : s.Plain
  busy : s.hub.Busy
  perm : s.hub.holdings.Perm held

theorem Books.ids_nodup {held : Holdings} {s : Store} (hb : s.Books held) :
    (held.map (·.1)).Nodup :=
  (hb.perm.map (·.1)).nodup_iff.1 hb.plain.tidy.ids_holdings

/-- A closed store without channels. -/
structure Shut (s : Store) : Prop where
  closed : s.closed = true
  counts : s.hub.counts = []

/-- The books are right; `shut` if the store was seen closed before, so that it stays so. -/
def InOrder (shut : Bool) (held : Holdings) (s : Store) : Prop :=
  (shut = false ∧ s.Books held) ∨ s.Shut

theorem inOrder_ofCapacity (capacity : Nat) : (ofCapacity capacity).InOrder false [] :=
  .inl ⟨rfl, plain_ofCapacity capacity, (fun _ hp => nomatch hp), .nil⟩

variable {shut : Bool} {held held' : Holdings} {s s' : Store}

theorem Shut.available (h : s.Shut) : ∃ e, s.available = .error e := by
  unfold Store.available
  rw [h.closed]
  split
  · exact ⟨_, rfl⟩
  · exact ⟨_, rfl⟩

/-- Closing leaves no books to keep. -/
theorem inOrder_close (s : Store) (shut : Bool) (held : Holdings) : s.close.InOrder shut held :=
  .inr ⟨rfl, rfl⟩

theorem counts_receive (s : Store) (id turn : Nat) :
    (s.receive id turn).2.2.closed = s.closed ∧
      (s.receive id turn).2.2.hub.counts = s.hub.counts := by
  have hcounts := (s.hub.receive_counts id turn).1
  unfold receive
  generalize s.hub.receive id turn = r at hcounts
  obtain ⟨d, lag, hub⟩ := r
  cases s.line? id with
  | none => exact ⟨rfl, hcounts⟩
  | some line =>
    simp only
    split
    · exact ⟨rfl, rfl⟩
    · split
      · rename_i hr
        cases hr
        exact ⟨rfl, hcounts⟩
      · split <;> exact ⟨rfl, rfl⟩

namespace InOrder

theorem imp (h : s.InOrder shut held) (hb : s.Books held → s'.Books held') (hs : s.Shut → s'.Shut) :
    s'.InOrder shut held' := Or.imp (And.imp_right hb) hs h

theorem perm (h : s.InOrder shut held) (hp : held.Perm held') : s.InOrder shut held' :=
  h.imp (fun hb => ⟨hb.plain, hb.busy, hb.perm.trans hp⟩) id

theorem open_books (h : s.InOrder shut held) (ho : s.closed = false) : s.Books held := by
  refine (h.resolve_right fun hs => ?_).2
  rw [hs.closed] at ho
  cases ho

theorem seen_closed (h : s.InOrder shut held) (hc : s.closed = true) : s.InOrder true held' := by
  rcases h with ⟨-, hb⟩ | hs
  · rw [hb.plain.closed_eq] at hc
    cases hc
  · exact .inr hs

theorem stays_shut (h : s.InOrder true held) : s.Shut :=
  h.resolve_left fun ho => Bool.noConfusion ho.1

/-! ## Entries -/

theorem withEntries (h : s.InOrder shut held) {es : Entries}
    (hd : s.entries.Distinct → es.Distinct) : { s with entries := es }.InOrder shut held :=
  h.imp (fun hb => ⟨hb.plain.withEntries (hd hb.plain.distinct), hb.busy, hb.perm⟩)
    fun hs => ⟨hs.closed, hs.counts⟩

theorem onEntries {α : Type} (h : s.InOrder shut held) (f : Entries → α × Entries)
    (hf : s.entries.Distinct → (f s.entries).2.Distinct) : (s.onEntries f).2.InOrder shut held := by
  unfold Store.onEntries
  cases s.available with
  | error e => exact h
  | ok u => exact h.withEntries hf

theorem purge (h : s.InOrder shut held) (now : Instant) : (s.purge now).2.InOrder shut held :=
  h.withEntries fun hd => hd.purge

theorem sweepers (ws : List Sweeper) (now : Instant) (h : s.InOrder shut held) :
    (Sweeper.runAll now ws s).2.InOrder shut held :=
  Sweeper.runAll_keeps (p := InOrder shut held) (fun h => h.purge now) ws h

section Locks

variable (k : Key) (token : String) (now : Instant)

theorem acquire (h : s.InOrder shut held) (ttl : Span) :
    (Lock.acquire k token now s ttl).2.InOrder shut held :=
  h.onEntries _ fun hd => hd.setIfAbsent ..

theorem release (h : s.InOrder shut held) :
    (Lock.release k token now s).2.InOrder shut held :=
  h.onEntries _ fun hd => hd.compareAndDelete ..

theorem renew (h : s.InOrder shut held) (ttl : Span) :
    (Lock.renew k token now s ttl).2.InOrder shut held :=
  h.onEntries _ fun hd => hd.compareAndExpire ..

end Locks

/-! ## Channels -/

theorem publish (h : s.InOrder shut held) (channel payload : String) :
    (s.publish channel payload).2.InOrder shut held := by
  unfold Store.publish
  cases s.available with
  | error e => exact h
  | ok u =>
    refine h.imp (fun hb => ⟨hb.plain.withHub (hb.plain.tidy.publish channel payload), hb.busy, ?_⟩)
      fun hs => ⟨hs.closed, hs.counts⟩
    rw [Hub.holdings_publish]
    exact hb.perm

/-- A subscription is opened, or refused without a trace. -/
theorem subscribe (h : s.InOrder shut held) (channels : List String) :
    (∃ id s', s.subscribe channels = (.ok id, s') ∧
      s'.InOrder shut (held ++ [(id, distinct channels)])) ∨
    ∃ e, s.subscribe channels = (.error e, s) := by
  rcases h with ⟨hopen, hb⟩ | hs
  · have hfaults : s.faults.map (fun f => { f with lines := f.lines ++ [{ id := s.hub.nextId }] }) =
        s.faults := by
      rw [hb.plain.faults_eq]
      rfl
    rw [subscribe_of_available hb.plain.available, hfaults]
    refine .inl ⟨_, _, rfl, .inl ⟨hopen, ?_⟩⟩
    refine ⟨hb.plain.withHub (hb.plain.tidy.subscribe channels), hb.busy.subscribe channels, ?_⟩
    rw [Hub.holdings_subscribe]
    exact hb.perm.append_right _
  · obtain ⟨e, he⟩ := hs.available
    refine .inr ⟨e, ?_⟩
    unfold Store.subscribe
    rw [he]

theorem feed (h : s.InOrder shut held) (t : Tenant) (names : List String) :
    (∃ f s', Feed.subscribe t names s = (.ok f, s') ∧
      s'.InOrder shut (held ++ [(f.id, distinct f.channels)])) ∨
    ∃ e, Feed.subscribe t names s = (.error e, s) := by
  unfold Feed.subscribe
  rcases h.subscribe (t.channels names) with ⟨id, s', hs, hb⟩ | ⟨e, hs⟩
  · rw [hs]
    exact .inl ⟨_, _, rfl, hb⟩
  · rw [hs]
    exact .inr ⟨e, rfl⟩

theorem unsubscribe (h : s.InOrder shut held) (id : Nat) :
    (s.unsubscribe id).InOrder shut (held.filter (·.1 ≠ id)) := by
  refine h.imp (fun hb => ?_) fun hs => ?_
  · rw [hb.plain.unsubscribe_eq]
    refine ⟨hb.plain.withHub (hb.plain.tidy.unsubscribe id), hb.busy.unsubscribe id, ?_⟩
    rw [hb.plain.tidy.holdings_unsubscribe]
    exact hb.perm.filter _
  · refine ⟨hs.closed, ?_⟩
    have hout : ∀ counts c, counts = [] → Hub.countOut c counts = [] := by
      rintro counts c rfl
      rfl
    exact Hub.counts_unsubscribe hout hs.counts id

/-- Dropping a subscription leaves the others. -/
theorem drop {pre post : Holdings} {p : Nat × List String} (h : s.InOrder shut (pre ++ p :: post)) :
    (s.unsubscribe p.1).InOrder shut (pre ++ post) := by
  rcases h.unsubscribe p.1 with ⟨hopen, hb⟩ | hs
  · have hbooks := h.open_books hb.plain.closed_eq
    exact .inl ⟨hopen, Holdings.filter_id hbooks.ids_nodup ▸ hb⟩
  · exact .inr hs

/-- Dropping one of the own subscriptions leaves those of others. -/
theorem dropOwn {own : Holdings} (h : s.InOrder shut (own ++ held)) {id : Nat}
    (hid : id ∈ own.map (·.1)) :
    (s.unsubscribe id).InOrder shut (own.filter (·.1 ≠ id) ++ held) := by
  obtain ⟨p, hp, rfl⟩ := List.mem_map.1 hid
  obtain ⟨pre, post, rfl⟩ := List.append_of_mem hp
  have hbooks : s.closed = false → ((pre ++ p :: post).map (·.1)).Nodup := fun ho =>
    ((List.sublist_append_left _ held).map _).nodup (h.open_books ho).ids_nodup
  rw [List.append_assoc, List.cons_append] at h
  rcases h.drop with ⟨hopen, hb⟩ | hs
  · rw [Holdings.filter_id (hbooks hb.plain.closed_eq), List.append_assoc]
    exact .inl ⟨hopen, hb⟩
  · exact .inr hs

/-- One of the own subscriptions is handed to somebody else. -/
theorem handOver {own : Holdings} (h : s.InOrder shut (own ++ held)) {p : Nat × List String}
    (hp : p ∈ own) : s.InOrder shut (own.filter (·.1 ≠ p.1) ++ (held ++ [p])) := by
  obtain ⟨pre, post, rfl⟩ := List.append_of_mem hp
  rcases h with ⟨hopen, hb⟩ | hs
  · have hn := ((List.sublist_append_left (pre ++ p :: post) held).map (·.1)).nodup hb.ids_nodup
    refine .inl ⟨hopen, hb.plain, hb.busy, hb.perm.trans ?_⟩
    rw [Holdings.filter_id hn, ← List.append_assoc]
    exact (List.perm_middle.append_right held).trans (List.perm_append_singleton p _).symm
  · exact .inr hs

theorem receive (h : s.InOrder shut held) (id turn : Nat) :
    (s.receive id turn).2.2.InOrder shut held := by
  refine h.imp (fun hb => ?_) fun hs => ?_
  · rw [hb.plain.receive_eq]
    obtain ⟨hcounts, -⟩ := s.hub.receive_counts id turn
    refine ⟨hb.plain.withHub (hb.plain.tidy.receive id turn), ?_, ?_⟩
    · unfold Hub.Busy
      rw [hcounts]
      exact hb.busy
    · rw [hb.plain.tidy.holdings_receive]
      exact hb.perm
  · obtain ⟨hclosed, hcounts⟩ := s.counts_receive id turn
    exact ⟨hclosed.trans hs.closed, hcounts.trans hs.counts⟩

theorem passTurn (h : s.InOrder shut held) (id : Nat) : (s.passTurn id).InOrder shut held := by
  refine h.imp (fun hb => ?_) fun hs => ?_
  · rw [Store.passTurn, hb.plain.line?_eq]
    exact hb
  · unfold Store.passTurn
    split
    · exact ⟨hs.closed, hs.counts⟩
    · exact hs

/-- Without a switch there is nothing to switch. -/
theorem withFaults (h : s.InOrder shut held) (f : FaultSwitch → FaultSwitch) :
    { s with faults := s.faults.map f }.InOrder shut held := by
  refine h.imp (fun hb => ?_) fun hs => ⟨hs.closed, hs.counts⟩
  have hfaults : s.faults.map f = s.faults := by
    rw [hb.plain.faults_eq]
    rfl
  rw [hfaults]
  exact hb

/-! ## Calls -/

/-- The calls that open no subscription. -/
theorem call (h : s.InOrder shut held) (now : Instant) {c : StoreCall}
    (hc : ∀ channels, c ≠ .subscribe channels) : (s.call now c).2.InOrder shut held := by
  cases c with
  | get key => exact h.onEntries (fun es => es.get now key) fun hd => hd.get key
  | set key value ttl =>
    exact h.onEntries (fun es => ((), es.set now key value ttl)) fun hd => hd.insert key _
  | setIfAbsent key value ttl =>
    exact h.onEntries (fun es => es.setIfAbsent now key value ttl)
      fun hd => hd.setIfAbsent key value ttl
  | delete key => exact h.onEntries (fun es => es.delete now key) fun hd => hd.delete key
  | compareAndDelete key expected =>
    exact h.onEntries (fun es => es.compareAndDelete now key expected)
      fun hd => hd.compareAndDelete key expected
  | compareAndExpire key expected ttl =>
    exact h.onEntries (fun es => es.compareAndExpire now key expected ttl)
      fun hd => hd.compareAndExpire key expected ttl
  | expire key ttl =>
    exact h.onEntries (fun es => es.expire now key ttl) fun hd => hd.expire key ttl
  | publish channel payload => exact h.publish channel payload
  | subscribe channels => exact absurd rfl (hc channels)
  | ping => exact h

/-! ## Numbers -/

theorem count_eq (h : s.InOrder shut held) (ho : s.closed = false) (c : String) :
    s.hub.count c = held.countP fun p => c ∈ p.2 := by
  have hb := h.open_books ho
  rw [hb.plain.tidy.count_eq_countP, hb.perm.countP_eq]

theorem publish_eq (h : s.InOrder shut held) (ho : s.closed = false) (channel payload : String) :
    (s.publish channel payload).1 = .ok (s.hub.count channel) := by
  have hb := h.open_books ho
  rw [publish_of_available hb.plain.available, hb.plain.tidy.count_eq]

theorem busy (h : s.InOrder shut held) : s.hub.Busy := by
  rcases h with ⟨-, hb⟩ | hs
  · exact hb.busy
  · unfold Hub.Busy
    rw [hs.counts]
    exact fun _ hp => nomatch hp

theorem active_eq (h : s.InOrder shut held) : s.hub.active = ∑ᶠ c, s.hub.count c := by
  refine Hub.active_eq_finsum ?_
  rcases h with ⟨-, hb⟩ | hs
  · exact hb.plain.tidy.names_nodup
  · rw [hs.counts]
    exact .nil

end InOrder

theorem Shut.count_eq (h : s.Shut) (c : String) : s.hub.count c = 0 := by
  rw [Hub.count, h.counts]
  rfl

end Store

end Tenancy
