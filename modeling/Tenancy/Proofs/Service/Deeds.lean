import Tenancy.Proofs.Gateway.Admission
import Tenancy.Proofs.Service.Session
import Tenancy.Proofs.Store.Books
import Tenancy.Proofs.Store.Deed

/-!
# What a service does to its store

All that a service does to its store are deeds: a gateway call is one call of the store or nothing, a
relay that moves takes from its subscription or drops it, and sweepers sweep. Between two steps no time
passes, so the deeds of a step have one time (`Service.becomes_step`), and those of a run lie between
its ends (`Service.undergo_of_run`).
-/

namespace Tenancy

/-! ## Gateways and relays -/

theorem Gateway.becomes_call (g : Gateway) (clock : Clock) (fresh : String) (t : Tenant) (r : Request)
    (s : Store) : s.Becomes clock.now (g.call clock fresh t r s).store := by
  cases h : g.complaint? t r with
  | some e =>
    rw [Gateway.call_of_complaint h]
    exact .refl clock.now s
  | none =>
    obtain ⟨told, -, hwork⟩ := Gateway.oneCall_call h clock fresh
    rw [(hwork s).2]
    exact .deed (.call _)

theorem Store.becomes_feed (now : Instant) (t : Tenant) (names : List String) (s : Store) :
    s.Becomes now (Feed.subscribe t names s).2 := by
  have hdeed : s.Becomes now (s.subscribe (t.channels names)).2 := .deed (.call (.subscribe _))
  unfold Feed.subscribe
  split <;> rename_i heq <;> rwa [heq] at hdeed

theorem Store.becomes_lock (now : Instant) (k : Key) (s : Store) :
    (∀ fresh ttl, s.Becomes now (Lock.acquire k fresh now s ttl).2) ∧
      (∀ token, s.Becomes now (Lock.release k token now s).2) ∧
      ∀ token ttl, s.Becomes now (Lock.renew k token now s ttl).2 :=
  ⟨fun fresh ttl => .deed (.call (.setIfAbsent k.physical fresh (some ttl))),
    fun token => .deed (.call (.compareAndDelete k.physical token)),
    fun token ttl => .deed (.call (.compareAndExpire k.physical token ttl))⟩

theorem Relay.Moves.becomes {r r' : Relay} {s s' : Store} {wall : Timestamp}
    (h : r.Moves s wall r' s') (now : Instant) : s.Becomes now s' := by
  cases h with
  | stop o mailbox hr =>
    unfold release
    split
    · exact .deed (.unsubscribe _)
    · exact .refl now s
  | take id hr hphase => exact .deed (.receive id r.turn)
  | give m hr => exact .refl now s

theorem Sweeper.becomes_runAll (now : Instant) (ws : List Sweeper) (s : Store) :
    s.Becomes now (runAll now ws s).2 :=
  runAll_keeps (p := s.Becomes now) (fun h => h.trans (.deed .sweep)) ws (.refl now s)

/-! ## Steps -/

namespace Service

/-- Only relays, log and store go on, and the store by deeds at the time of the service. -/
structure Undergoes (s s' : Service) : Prop where
  gateway : s'.gateway = s.gateway
  clock : s'.clock = s.clock
  sweepers : s'.sweepers = s.sweepers
  store : s.store.Becomes s.clock.now s'.store

namespace Undergoes

variable {s s' s'' : Service}

theorem of_same (hgateway : s'.gateway = s.gateway) (hclock : s'.clock = s.clock)
    (hsweepers : s'.sweepers = s.sweepers) (hstore : s'.store = s.store) : s.Undergoes s' :=
  ⟨hgateway, hclock, hsweepers, hstore ▸ .refl _ _⟩

theorem refl (s : Service) : s.Undergoes s := of_same rfl rfl rfl rfl

theorem of_alike (h : s.Alike s') : s.Undergoes s' := of_same h.gateway h.clock h.sweepers h.store

theorem trans (h : s.Undergoes s') (h' : s'.Undergoes s'') : s.Undergoes s'' :=
  ⟨h'.gateway.trans h.gateway, h'.clock.trans h.clock, h'.sweepers.trans h.sweepers,
    h.store.trans (h.clock ▸ h'.store)⟩

theorem after (s : Service) {store : Store} (hstore : s.store.Becomes s.clock.now store)
    (effects : Effects) (feed : Option Feed) (given : Supply) :
    s.Undergoes (s.after store effects feed given) := by
  unfold Service.after
  cases feed <;> exact ⟨rfl, rfl, rfl, hstore⟩

theorem drainIn (s : Service) (id fuel left : Nat) (limit : Option Nat) :
    s.Undergoes (drainIn id fuel left limit s).2.2 := by
  refine drainIn_keeps (p := s.Undergoes) id (fun {s'} left h => h.trans ?_) fuel left limit (refl s)
  unfold ask
  split
  · exact ⟨rfl, rfl, rfl, .deed (.passTurn id)⟩
  · exact ⟨rfl, rfl, rfl, .deed (.receive id 0)⟩

theorem settle (s : Service) : s.Undergoes s.settle := by
  have hmoved : s.Undergoes (settleIn s.reach s) := by
    refine settleIn_keeps (p := s.Undergoes) (fun {s' s''} h hmove => h.trans ?_) s.reach (refl s)
    obtain ⟨l₁, t, l₂, t', hm, -⟩ := movesAt_of_move? hmove
    exact ⟨hm.alike.gateway, hm.alike.clock, hm.alike.sweepers,
      hm.relay_moves.becomes s'.clock.now⟩
  exact hmoved.trans (of_alike (alike_deliver _))

theorem readIn (handle fuel : Nat) (limit : Option Nat) (s : Service) :
    s.Undergoes (readIn handle fuel limit s).2.2 := by
  refine readIn_keeps (p := s.Undergoes) (fun h hx => h.trans ?_) (fun h => h.trans (settle _)) fuel
    limit (refl s)
  obtain ⟨y, -, hy⟩ := Option.map_eq_some_iff.1 hx
  cases hy
  exact of_same rfl rfl rfl rfl

/-- All steps but those of time and of sweepers. -/
theorem act (s : Service) (x : Step) (htime : ∀ d, x ≠ .advance d)
    (hstart : ∀ interval, x ≠ .startSweeper interval) (hstop : x ≠ .stopSweepers) :
    s.Undergoes (s.act x).2 := by
  cases x with
  | advance d => exact absurd rfl (htime d)
  | startSweeper interval => exact absurd rfl (hstart interval)
  | stopSweepers => exact absurd rfl hstop
  | sweep => exact ⟨rfl, rfl, rfl, .deed .sweep⟩
  | closeStore => exact ⟨rfl, rfl, rfl, .deed .close⟩
  | setFailing on => exact ⟨rfl, rfl, rfl, .deed (.setFailing on)⟩
  | breakSubscriptions e => exact ⟨rfl, rfl, rfl, .deed (.breakSubscriptions e)⟩
  | store c => exact ⟨rfl, rfl, rfl, .deed (.call c)⟩
  | drain id limit => exact drainIn s id (s.store.waiting id + 1) stint limit
  | unsubscribe id => exact ⟨rfl, rfl, rfl, .deed (.unsubscribe id)⟩
  | lock t key c =>
    obtain ⟨hacquire, hrelease, hrenew⟩ := s.store.becomes_lock s.clock.now (.ofLogical t key)
    refine ⟨rfl, rfl, rfl, ?_⟩
    cases c with
    | acquire fresh ttl => exact hacquire fresh ttl
    | release token => exact hrelease token
    | renew token ttl => exact hrenew token ttl
  | call t r given => exact after s (s.gateway.becomes_call s.clock given.fresh t r s.store) _ _ given
  | rpc caller c given =>
    rw [Service.act, Rpc.perform]
    cases caller.tenant with
    | error status => exact after s (.refl _ s.store) {} none given
    | ok t =>
      exact after s (s.gateway.becomes_call s.clock given.fresh t c.request s.store) _ _ given
  | openFeed t channels => exact ⟨rfl, rfl, rfl, s.store.becomes_feed s.clock.now t channels⟩
  | relayChannels t channels how =>
    have hfeed := s.store.becomes_feed s.clock.now t channels
    rw [Service.act]
    split <;> rename_i heq <;> rw [heq] at hfeed <;> exact ⟨rfl, rfl, rfl, hfeed⟩
  | read handle limit =>
    rw [Service.act]
    split
    · exact readIn handle _ limit s
    · exact refl s
  | outcome handle =>
    rw [act_outcome]
    split <;> exact of_same rfl rfl rfl rfl
  | _ => exact of_same rfl rfl rfl rfl

end Undergoes

theorem becomes_act (s : Service) (x : Step) :
    (s.act x).2.gateway = s.gateway ∧ s.clock.now ≤ (s.act x).2.clock.now ∧
      s.store.Becomes (s.act x).2.clock.now (s.act x).2.store := by
  have hundergoes (h : s.Undergoes (s.act x).2) : (s.act x).2.gateway = s.gateway ∧
      s.clock.now ≤ (s.act x).2.clock.now ∧
        s.store.Becomes (s.act x).2.clock.now (s.act x).2.store :=
    ⟨h.gateway, h.clock ▸ Instant.le_refl _, h.clock ▸ h.store⟩
  cases x with
  | advance d => exact ⟨rfl, Nat.le_add_right _ _, .refl _ s.store⟩
  | startSweeper interval => exact ⟨rfl, Instant.le_refl _, .refl _ s.store⟩
  | stopSweepers => exact ⟨rfl, Instant.le_refl _, .refl _ s.store⟩
  | _ => exact hundergoes (.act s _ nofun nofun nofun)

/-- The deeds of a step are done at its end. -/
theorem becomes_step (s : Service) (x : Step) :
    (s.step x).2.gateway = s.gateway ∧ s.clock.now ≤ (s.step x).2.clock.now ∧
      s.store.Becomes (s.step x).2.clock.now (s.step x).2.store := by
  obtain ⟨hgateway, hnow, hact⟩ := s.becomes_act x
  have hsettle := Undergoes.settle (s.act x).2
  have hclock : (s.step x).2.clock = (s.act x).2.clock := hsettle.clock
  have hround := Sweeper.becomes_runAll (s.act x).2.settle.clock.now (s.act x).2.settle.sweepers
    (s.act x).2.settle.store
  refine ⟨hsettle.gateway.trans hgateway, hclock ▸ hnow, ?_⟩
  rw [hclock]
  exact (hact.trans hsettle.store).trans (hsettle.clock ▸ hround)

/-- The store of a service comes out of a run of deeds, at times of the service. -/
theorem undergo_of_run (s : Service) (xs : List Step) :
    s.clock.now ≤ (s.run xs).2.clock.now ∧
      ∃ ds, (s.run xs).2.store = s.store.undergo ds ∧
        ∀ d ∈ ds, s.clock.now ≤ d.1 ∧ d.1 ≤ (s.run xs).2.clock.now := by
  induction xs generalizing s with
  | nil => exact ⟨Instant.le_refl _, [], rfl, by simp⟩
  | cons x xs ih =>
    obtain ⟨-, hfirst, ds, hstore⟩ := s.becomes_step x
    obtain ⟨hrest, ds', hstore', htimes⟩ := ih (s.step x).2
    show s.clock.now ≤ ((s.step x).2.run xs).2.clock.now ∧ ∃ ds,
      ((s.step x).2.run xs).2.store = s.store.undergo ds ∧
        ∀ d ∈ ds, s.clock.now ≤ d.1 ∧ d.1 ≤ ((s.step x).2.run xs).2.clock.now
    -- the deeds of the first step are done when the rest of the run starts
    refine ⟨Instant.le_trans hfirst hrest, ds.map ((s.step x).2.clock.now, ·) ++ ds', ?_, ?_⟩
    · rw [hstore', hstore, Store.undergo_append]
    · intro d hd
      rcases List.mem_append.1 hd with hd | hd
      · obtain ⟨d', -, rfl⟩ := List.mem_map.1 hd
        exact ⟨hfirst, hrest⟩
      · exact ⟨Instant.le_trans hfirst (htimes d hd).1, (htimes d hd).2⟩

end Service

end Tenancy
