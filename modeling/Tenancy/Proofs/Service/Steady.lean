import Tenancy.Proofs.Gateway.Memory
import Tenancy.Proofs.Service.Schedule

/-!
# Steady services

A service on a rightful schedule is steady (`Service.Steady`): its subscriptions are accounted for,
and its roster is in order. Every turn keeps it so (`Steady.turn`).
-/

namespace Tenancy

/-! ## Calls -/

namespace Gateway

variable {s : Store} (hm : s.InMemory) (clock : Clock) (fresh : String) (t : Tenant)

include hm

/-- The work of a call opens a feed under the next id, or none. -/
theorem perform_cases (r : Request) :
    ((perform clock fresh t r s).feed = none ∧ s.Follows (perform clock fresh t r s).store) ∨
    ∃ names s', r = .subscribe names ∧ s.Follows s' ∧ s'.hub.nextId = s.hub.nextId + 1 ∧
      (perform clock fresh t r s).feed = some ⟨t, t.channels names, s.hub.nextId⟩ ∧
      (perform clock fresh t r s).store = s' := by
  have hfeedless : ∀ {reply : Reply} {store : Store}, reply.Feedless store → s.Follows store →
      reply.feed = none ∧ s.Follows reply.store :=
    fun hr hs => ⟨hr.feed, hr.store ▸ hs⟩
  cases r with
  | acquire key ttl =>
    exact .inl (hfeedless (feedless_acquire clock fresh t s key ttl)
      (.onEntries hm fun es => es.setIfAbsent clock.now _ fresh (some ttl)))
  | release key token =>
    exact .inl (hfeedless (feedless_release clock token t s key)
      (.onEntries hm fun es => es.compareAndDelete clock.now _ token))
  | renew key token ttl =>
    exact .inl (hfeedless (feedless_renew clock token t s key ttl)
      (.onEntries hm fun es => es.compareAndExpire clock.now _ token ttl))
  | publish channel payload =>
    exact .inl (hfeedless (feedless_publish clock t s channel payload) (.publish hm _ payload))
  | subscribe names =>
    have hperform : perform clock fresh t (.subscribe names) s = subscribe t s names := rfl
    rw [hperform, subscribe]
    rcases Store.Follows.feed_cases hm t names with ⟨s', heq, hlater, hnext⟩ | heq
    · rw [heq]
      exact .inr ⟨names, s', rfl, hlater, hnext, rfl, rfl⟩
    · rw [heq]
      exact .inl ⟨rfl, .refl hm⟩

/-- A call opens a feed under the next id, with at least one channel, or none. -/
theorem call_cases (g : Gateway) (r : Request) :
    ((g.call clock fresh t r s).feed = none ∧ s.Follows (g.call clock fresh t r s).store) ∨
    ∃ names s', r = .subscribe names ∧ s.Follows s' ∧ s'.hub.nextId = s.hub.nextId + 1 ∧
      t.channels names ≠ [] ∧
      (g.call clock fresh t r s).feed = some ⟨t, t.channels names, s.hub.nextId⟩ ∧
      (g.call clock fresh t r s).store = s' := by
  unfold call
  split
  · exact .inl ⟨rfl, .refl hm⟩
  · rename_i log hadmission
    rcases perform_cases hm clock fresh t r with
      hnone | ⟨names, s', rfl, hlater, hnext, hfeed, hstore⟩
    · exact .inl hnone
    · refine .inr ⟨names, s', rfl, hlater, hnext, fun hnil => ?_, hfeed, hstore⟩
      have hnames : names = [] := by
        cases names with
        | nil => rfl
        | cons c cs => cases hnil
      subst hnames
      unfold admission at hadmission
      split at hadmission
      · cases hadmission
      · cases hadmission

end Gateway

/-- The caller of a relay reads as it likes. -/
def Step.isRead : Step → Bool
  | .read _ _ => true
  | _ => false

namespace Service

/-- Every step of the run is rightful when it comes, or reads a relay. -/
def isRightfulIn : Holdings → Service → List Step → Bool
  | _, _, [] => true
  | l, s, x :: xs =>
    (x.isRead || x.isRightful l s) && isRightfulIn (x.ledger l (s.step x).1) (s.step x).2 xs

/-! ## Steadiness -/

structure Steady (l : Holdings) (s : Service) : Prop where
  accounted : ∃ base, s.Accounted false base l
  roster : Roster l s.relays s.store

namespace Steady

variable {l : Holdings} {s s' : Service}

theorem inMemory (h : s.Steady l) : s.store.InMemory := h.roster.inMemory

theorem start {capacity : Nat} (hstore : s.store = .ofCapacity capacity)
    (hrelays : s.relays = []) : s.Steady [] := by
  refine ⟨⟨Metrics.gauge s.samples, ?_, ?_⟩, ?_⟩
  · rw [hstore, holdings, hrelays]
    exact Store.inOrder_ofCapacity capacity
  · rw [running, hrelays]
    exact (Int.add_zero _).symm
  · rw [hstore, hrelays]
    exact ⟨Store.inMemory_ofCapacity capacity, .nil, .nil, fun id hid => absurd hid List.not_mem_nil,
      fun t ht => absurd ht List.not_mem_nil, fun t ht => absurd ht List.not_mem_nil⟩

/-- While the store is open, a relay that has not ended finds its subscription. -/
theorem found (h : s.Steady l) (hc : s.store.closed = false) {t : RelayTask} (ht : t ∈ s.relays)
    (he : t.relay.isEnded = false) {id : Nat} (hid : t.relay.source = some id) :
    ∃ u, s.store.hub.find? id = some u ∧ u.channels = distinct t.relay.channels := by
  obtain ⟨base, hbooks, -⟩ := h.accounted
  have hheld : t.relay.holding? = some (id, distinct t.relay.channels) := by
    unfold Relay.holding?
    rw [he, hid]
    rfl
  refine (hbooks.open_books hc).find?_of_mem (p := (id, distinct t.relay.channels))
    (List.mem_append_right _ ?_)
  exact List.mem_filterMap.2 ⟨t, ht, hheld⟩

/-! ## Steps -/

theorem roster_ask (h : Roster l s.relays s.store) (id left : Nat) :
    Roster l (s.ask id left).2.2.relays (s.ask id left).2.2.store := by
  unfold Service.ask
  split
  · rw [h.inMemory.passTurn_eq]
    exact h
  · exact h.follows (.receive h.inMemory id 0)

theorem roster_drainIn (h : Roster l s.relays s.store) (id fuel left : Nat) (limit : Option Nat) :
    Roster l (drainIn id fuel left limit s).2.2.relays
      (drainIn id fuel left limit s).2.2.store :=
  drainIn_keeps (p := fun s => Roster l s.relays s.store) id
    (fun left h => roster_ask h id left) fuel left limit h

/-- A relay of the gateway starts on the feed that a call opened. -/
theorem roster_after (h : Roster l s.relays s.store) {clock : Clock} {fresh : String} {t : Tenant}
    {g : Gateway} {r : Request} {effects : Effects} (given : Supply)
    (hfresh : ∀ names, r = .subscribe names → s.task? given.handle = none) :
    let reply := g.call clock fresh t r s.store
    let s' := s.after reply.store effects reply.feed given
    Roster l s'.relays s'.store := by
  intro reply s'
  rcases Gateway.call_cases h.inMemory clock fresh t g r with
    ⟨hfeed, hlater⟩ | ⟨names, store, hr, hlater, hnext, hchannels, hfeed, hstore⟩
  · have hs' : s' = s.after reply.store effects none given := by rw [← hfeed]
    rw [hs']
    exact h.follows hlater
  · have hs' :
        s' = s.after store effects (some ⟨t, t.channels names, s.store.hub.nextId⟩) given := by
      rw [← hfeed, ← hstore]
    rw [hs']
    refine h.addOpened hlater hnext (task?_eq_none_iff.1 (hfresh names hr)) rfl rfl fun _ => ?_
    refine ⟨rfl, hchannels, fun e o hp => ?_, fun _ x hx => absurd hx List.not_mem_nil⟩
    cases hp

/-- Every rightful step keeps the roster in order. -/
theorem roster_act (h : Roster l s.relays s.store) {x : Step} (hx : x.isRightful l s = true) :
    Roster (x.ledger l (s.act x).1) (s.act x).2.relays (s.act x).2.store := by
  have hm := h.inMemory
  cases x with
  | advance d => exact h
  | sweep => exact h.follows (.purge hm s.clock.now)
  | startSweeper interval => exact h
  | stopSweepers => exact h
  | shutDown =>
    exact h.map (.ite .cancel)
  | closeStore => exact h.follows (.close hm)
  | setFailing on =>
    rw [Service.act, hm.setFailing_eq]
    exact h
  | breakSubscriptions e =>
    show Roster l s.relays (s.store.breakSubscriptions e).2
    rw [hm.breakSubscriptions_eq]
    exact h
  | store c =>
    by_cases hc : ∃ channels, c = .subscribe channels
    · obtain ⟨channels, rfl⟩ := hc
      rw [Service.act, Store.call]
      rcases Store.Follows.subscribe_cases hm channels with ⟨store, heq, hlater, hnext⟩ | heq
      · rw [heq]
        exact h.addHeld hlater rfl hnext _
      · rw [heq]
        exact h
    · have hledger : Step.ledger l (.store c) (s.act (.store c)).1 = l := by
        cases c with
        | subscribe channels => exact absurd ⟨channels, rfl⟩ hc
        | _ => rfl
      rw [hledger]
      exact h.follows (.call hm s.clock.now c)
  | drain id limit => exact roster_drainIn h id (s.store.waiting id + 1) stint limit
  | unsubscribe id => exact (h.follows (.unsubscribe hm id)).sublist List.filter_sublist
  | lock t key c =>
    cases c with
    | acquire fresh ttl =>
      exact h.follows (.onEntries hm fun es => es.setIfAbsent s.clock.now _ fresh (some ttl))
    | release token =>
      exact h.follows (.onEntries hm fun es => es.compareAndDelete s.clock.now _ token)
    | renew token ttl =>
      exact h.follows (.onEntries hm fun es => es.compareAndExpire s.clock.now _ token ttl)
  | call t r given =>
    refine roster_after h given fun names hr => ?_
    subst hr
    exact Option.isNone_iff_eq_none.1 hx
  | rpc caller c given =>
    rw [Service.act, Rpc.perform]
    cases caller.tenant with
    | error status => exact h
    | ok t =>
      refine roster_after h given fun names hr => ?_
      cases c with
      | subscribe m => exact Option.isNone_iff_eq_none.1 hx
      | _ => cases hr
  | openFeed t channels =>
    rw [Service.act]
    rcases Store.Follows.feed_cases hm t channels with ⟨store, heq, hlater, hnext⟩ | heq
    · rw [heq]
      exact h.addHeld hlater rfl hnext _
    · rw [heq]
      exact h
  | relayFeed f how =>
    obtain ⟨hmem, hfresh⟩ := Bool.and_eq_true_iff.1 hx
    have hhandle := task?_eq_none_iff.1 (Option.isNone_iff_eq_none.1 hfresh)
    exact h.addHanded (p := (f.id, distinct f.channels)) (List.contains_iff_mem.1 hmem) hhandle
      rfl rfl fun hg => by cases hg
  | relayChannels t channels how =>
    have hhandle := task?_eq_none_iff.1 (Option.isNone_iff_eq_none.1 hx)
    rw [Service.act]
    rcases Store.Follows.feed_cases hm t channels with ⟨store, heq, hlater, hnext⟩ | heq
    · rw [heq]
      exact h.addOpened hlater hnext hhandle rfl rfl fun hg => by cases hg
    · rw [heq]
      exact h.addTask hhandle (fun id hid => by cases hid) rfl fun hg => by cases hg
  | read handle limit => cases hx
  | cancel handle =>
    exact h.map (.ite .cancel)
  | leave handle =>
    exact h.map (.ite .leave)
  | hangUp handle =>
    exact h.map (.ite .hangUp)
  | outcome handle =>
    rw [outcome_eq h.handles_nodup]
    exact h.map (.ite .reported)

/-! ## Turns -/

theorem act (h : s.Steady l) {x : Step} (hx : x.isRightful l s = true) :
    (s.act x).2.Steady (x.ledger l (s.act x).1) := by
  obtain ⟨base, hacc⟩ := h.accounted
  exact ⟨⟨base, hacc.act (Step.isOwned_of_isRightful hx)⟩, roster_act h.roster hx⟩

theorem pick (h : s.Steady l) (handle : Nat) : (s.pick handle).2.Steady l := by
  obtain ⟨base, hacc⟩ := h.accounted
  refine ⟨⟨base, ?_⟩, ?_⟩
  · unfold Service.pick
    split
    · cases hp : s.picked? handle with
      | none => exact hacc
      | some x => exact hacc.picked? hp
    · exact hacc
  · rw [pick_eq h.roster.handles_nodup]
    exact h.roster.map (.ite .taken)

theorem move (h : s.Steady l) {i : Nat} (hm : s.moveAt? i = some s') : s'.Steady l := by
  obtain ⟨base, hacc⟩ := h.accounted
  refine ⟨⟨base, hacc.move hm⟩, ?_⟩
  obtain ⟨l₁, t, l₂, r, e, -, hrelays, hmove, heq⟩ := moveAt?_eq_some hm
  have hmem : t ∈ s.relays := hrelays ▸ List.mem_append_right l₁ List.mem_cons_self
  have hrelays' : s'.relays = l₁ ++ { t with relay := r } :: l₂ := by
    rw [heq]
    rfl
  rw [hrelays']
  refine Roster.move (hrelays ▸ h.roster) (Relay.moves_of_move? hmove) fun hc he id hid => ?_
  exact h.found hc hmem he hid

/-- Every rightful turn keeps the service steady. -/
theorem turn (h : s.Steady l) {x : Turn} (hx : x.isRightful l s = true) :
    (s.turn x).2.Steady (x.ledger l (s.turn x).1) := by
  cases x with
  | act x => exact h.act hx
  | take handle => exact h.pick handle
  | move handle =>
    show ((s.moveOf? handle).getD s).Steady l
    cases hm : s.moveOf? handle with
    | none => exact h
    | some s' =>
      obtain ⟨i, -, hi⟩ := Option.bind_eq_some_iff.1 hm
      exact h.move hi
  | wall now =>
    obtain ⟨base, hacc⟩ := h.accounted
    exact ⟨⟨base, hacc.books, hacc.gauge⟩, h.roster⟩

theorem run {xs : List Turn} : ∀ {l : Holdings} {s : Service}, s.Steady l →
    isRightfulOver l s xs = true → (runOf Service.turn s xs).2.Steady (ledgerOver l s xs) := by
  induction xs with
  | nil => exact fun h _ => h
  | cons x xs ih =>
    intro l s h hxs
    obtain ⟨hx, hxs⟩ := Bool.and_eq_true_iff.1 hxs
    exact ih (h.turn hx) hxs

/-! ## Whole steps -/

theorem settle (h : s.Steady l) : s.settle.Steady l := by
  have hmoved : (settleIn s.reach s).Steady l := by
    refine settleIn_keeps (p := Steady l) (fun h hm => ?_) s.reach h
    obtain ⟨i, -, hi⟩ := List.exists_of_findSome?_eq_some hm
    exact h.move hi
  obtain ⟨base, hacc⟩ := hmoved.accounted
  have halike := alike_deliver (settleIn s.reach s)
  refine ⟨⟨base, hacc.deliver⟩, ?_⟩
  rw [Service.settle, halike.relays, halike.store]
  exact hmoved.roster

theorem runSweepers (h : s.Steady l) : s.runSweepers.Steady l := by
  obtain ⟨base, hacc⟩ := h.accounted
  refine ⟨⟨base, hacc.runSweepers⟩, ?_⟩
  exact Sweeper.runAll_keeps (p := Roster l s.relays)
    (fun hr => hr.follows (.purge hr.inMemory s.clock.now)) s.sweepers h.roster

theorem picked? (h : s.Steady l) {handle : Nat} {x : RelayItem}
    (hx : s.picked? handle = some (x, s')) : s'.Steady l := by
  obtain ⟨base, hacc⟩ := h.accounted
  refine ⟨⟨base, hacc.picked? hx⟩, ?_⟩
  obtain ⟨⟨item, mailbox⟩, hy, heq⟩ := Option.map_eq_some_iff.1 hx
  obtain ⟨r, hr, htake⟩ := Option.bind_eq_some_iff.1 hy
  obtain ⟨t, ht, rfl⟩ := Option.map_eq_some_iff.1 hr
  cases heq
  -- only the relay that was found has the handle
  have hrelays := map_task? h.roster.handles_nodup ht
    (f := fun t => { t with relay := { t.relay with mailbox } })
    (g := fun t => { t with relay := { t.relay with
      mailbox := (t.relay.mailbox.take?.map (·.2)).getD t.relay.mailbox } }) (by rw [htake]; rfl)
  have hmapped := h.roster.map
    (RelayTask.Handled.ite (p := fun t => t.handle = handle) RelayTask.Handled.withoutFirst)
  rw [← hrelays] at hmapped
  exact hmapped

theorem read (h : s.Steady l) (handle : Nat) (limit : Option Nat) :
    (s.act (.read handle limit)).2.Steady l := by
  rw [Service.act]
  split
  · exact readIn_keeps (p := Steady l) (fun h => h.picked?) (fun h => h.settle)
      (s.readable handle + 1) limit h
  · exact h

theorem step (h : s.Steady l) {x : Step} (hx : (x.isRead || x.isRightful l s) = true) :
    (s.step x).2.Steady (x.ledger l (s.step x).1) := by
  have hact : (s.act x).2.Steady (x.ledger l (s.act x).1) := by
    cases hr : x.isRead with
    | false =>
      rw [hr, Bool.false_or] at hx
      exact h.act hx
    | true =>
      cases x with
      | read handle limit => exact h.read handle limit
      | _ => cases hr
  exact hact.settle.runSweepers

/-- A run of rightful steps keeps the service steady. -/
theorem steps {xs : List Step} : ∀ {l : Holdings} {s : Service}, s.Steady l →
    isRightfulIn l s xs = true → (s.run xs).2.Steady (ledgerIn l s xs) := by
  induction xs with
  | nil => exact fun h _ => h
  | cons x xs ih =>
    intro l s h hxs
    obtain ⟨hx, hxs⟩ := Bool.and_eq_true_iff.1 hxs
    exact ih (h.step hx) hxs

/-- While the store is open, the service is in order. -/
theorem sound (h : s.Steady l) (hc : s.store.closed = false) : s.Sound where
  plain := by
    obtain ⟨base, hbooks, -⟩ := h.accounted
    exact (hbooks.open_books hc).plain
  sources_nodup := (List.nodup_append.1 h.roster.ids_nodup).2.1
  sources_lt _ ht _ hid := h.roster.source_lt ht hid

end Steady

end Service

end Tenancy
