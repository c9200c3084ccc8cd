import Tenancy.Proofs.Relay.Running
import Tenancy.Proofs.Service.Read

/-!
# Who holds subscriptions

Subscriptions are held by relays that run, and by callers directly: those are in a ledger, which
`Step.ledger` keeps from the steps and their answers. `Service.Accounted` says that the store has
the subscriptions of the ledger and of the running relays, and no others, and that the gauge of
running relays shows their number. Relays that move, readers and sweepers keep it.
-/

namespace Tenancy

open Metrics

/-! ## The ledger -/

namespace Step

/-- The subscriptions that callers hold after a step that was answered `a`: those opened at the
store or as a feed, until they are dropped or given to a relay. -/
def ledger (l : Holdings) (x : Step) (a : Answer) : Holdings :=
  match x, a with
  | .store (.subscribe channels), .stored (.ok (.opened id)) => l ++ [(id, distinct channels)]
  | .openFeed _ _, .fed (.ok f) => l ++ [(f.id, distinct f.channels)]
  | .unsubscribe id, _ => l.filter (·.1 ≠ id)
  | .relayFeed f _, _ => l.filter (·.1 ≠ f.id)
  | _, _ => l

/-- Callers drop only what they hold, and give only that to a relay. -/
def isOwned (l : Holdings) : Step → Bool
  | .unsubscribe id => l.any (·.1 = id)
  | .relayFeed f _ => l.contains (f.id, distinct f.channels)
  | _ => true

end Step

/-- What a feed holds, if there is one. -/
def holdingOf (feed : Option Feed) : Holdings :=
  (feed.map fun f => (f.id, distinct f.channels)).toList

namespace Service

variable {shut : Bool} {base : Int} {l l' : Holdings} {s s' : Service}

/-- The subscriptions of the relays that run. -/
def holdings (s : Service) : Holdings := s.relays.filterMap (·.relay.holding?)

/-- The number of relays that run. -/
def running (s : Service) : Nat := s.relays.countP (·.relay.isRunning)

theorem holdings_split {l₁ l₂ : List RelayTask} {t : RelayTask} (h : s.relays = l₁ ++ t :: l₂) :
    s.holdings = l₁.filterMap (·.relay.holding?) ++
      (t.relay.holding?.toList ++ l₂.filterMap (·.relay.holding?)) := by
  rw [holdings, h, List.filterMap_append, List.filterMap_cons]
  cases t.relay.holding? with
  | none => rfl
  | some p => rfl

theorem running_split {l₁ l₂ : List RelayTask} {t : RelayTask} (h : s.relays = l₁ ++ t :: l₂) :
    (s.running : Int) =
      l₁.countP (·.relay.isRunning) + l₂.countP (·.relay.isRunning) + t.relay.weigh := by
  rw [running, h, List.countP_append, List.countP_cons, Relay.weigh]
  push_cast
  omega

theorem length_holdings (s : Service) : s.holdings.length = s.running := by
  unfold holdings running
  rw [List.length_filterMap_eq_countP]
  simp only [Relay.isSome_holding?]

/-- The books are right, with the ledger `l`, and the gauge shows the relays that run. -/
structure Accounted (shut : Bool) (base : Int) (l : Holdings) (s : Service) : Prop where
  books : s.store.InOrder shut (l ++ s.holdings)
  gauge : gauge s.samples = base + s.running

namespace Accounted

/-! ## Parts -/

theorem leaving (h : s.Accounted shut base l) {e : Effects} (he : Metrics.gauge e.samples = 0) :
    (s.leaving e).Accounted shut base l where
  books := h.books
  gauge := by
    have hsum := gauge_append s.samples e.samples
    rw [he, h.gauge, Int.add_zero] at hsum
    exact hsum

theorem withStore (h : s.Accounted shut base l) {store : Store}
    (hb : store.InOrder shut (l' ++ s.holdings)) : { s with store }.Accounted shut base l' :=
  ⟨hb, h.gauge⟩

/-- Changes of relays that leave alone what they hold. -/
theorem mapRelays (h : s.Accounted shut base l) {f : RelayTask → RelayTask}
    (hf : ∀ t, (f t).relay.holding? = t.relay.holding?) :
    { s with relays := s.relays.map f }.Accounted shut base l := by
  have hsame : ({ s with relays := s.relays.map f } : Service).holdings = s.holdings := by
    unfold holdings
    rw [List.filterMap_map]
    exact List.filterMap_congr fun t _ => hf t
  refine ⟨hsame.symm ▸ h.books, ?_⟩
  rw [← length_holdings, hsame, length_holdings]
  exact h.gauge

theorem mapTask (h : s.Accounted shut base l) {f : RelayTask → RelayTask}
    (hf : ∀ t, (f t).relay.holding? = t.relay.holding?) (handle : Nat) :
    (s.mapTask handle f).Accounted shut base l := by
  refine h.mapRelays fun t => ?_
  split
  · exact hf t
  · rfl

theorem mapRelay (h : s.Accounted shut base l) {f : Relay → Relay}
    (hf : ∀ r, (f r).holding? = r.holding?) (handle : Nat) :
    (s.mapRelay handle f).Accounted shut base l := h.mapTask (fun t => hf t.relay) handle

/-- One more relay, which raises the gauge if it runs. -/
theorem addRelay {started : Relay × Effects} (hg : Metrics.gauge s.samples = base + s.running)
    (hb : s.store.InOrder shut (l ++ (s.holdings ++ started.1.holding?.toList)))
    (hs : Metrics.gauge started.2.samples = started.1.weigh) (handle : Nat) (ofGateway : Bool) :
    (s.addRelay handle ofGateway started).Accounted shut base l := by
  have hrelays : (s.addRelay handle ofGateway started).relays =
      s.relays ++ { handle, relay := started.1, ofGateway } :: [] := rfl
  have hholdings := holdings_split hrelays
  rw [List.filterMap_nil, List.append_nil] at hholdings
  refine ⟨hholdings.symm ▸ hb, ?_⟩
  have hsum := gauge_append s.samples started.2.samples
  have hrunning : ((s.addRelay handle ofGateway started).running : Int) =
      s.relays.countP (·.relay.isRunning) + (0 : Nat) + started.1.weigh := running_split hrelays
  rw [hrunning]
  refine hsum.trans ?_
  rw [hg, hs, running]
  omega

/-! ## Moves -/

theorem move (h : s.Accounted shut base l) {i : Nat} (hm : s.moveAt? i = some s') :
    s'.Accounted shut base l := by
  obtain ⟨l₁, t, l₂, r, e, -, hrelays, hmove, heq⟩ := moveAt?_eq_some hm
  have hrelays' : s'.relays = l₁ ++ { t with relay := r } :: l₂ := by
    rw [heq]
    rfl
  have hsamples : s'.samples = s.samples ++ e.samples := by
    rw [heq]
    rfl
  obtain ⟨hbooks, hgauge⟩ := h
  constructor
  · rw [holdings_split hrelays, ← List.append_assoc] at hbooks
    rw [holdings_split hrelays', ← List.append_assoc]
    exact hbooks.moves (Relay.moves_of_move? hmove)
  · have hrelay := Relay.gauge_move? hmove
    have hrunning : (s'.running : Int) =
        l₁.countP (·.relay.isRunning) + l₂.countP (·.relay.isRunning) + r.weigh :=
      running_split hrelays'
    rw [running_split hrelays] at hgauge
    rw [hsamples, gauge_append, hrunning, hgauge]
    omega

theorem settleIn (h : s.Accounted shut base l) (n : Nat) :
    (settleIn n s).Accounted shut base l := by
  refine settleIn_keeps (p := Accounted shut base l) (fun h hm => ?_) n h
  obtain ⟨i, -, hi⟩ := List.exists_of_findSome?_eq_some hm
  exact h.move hi

theorem hand (h : s.Accounted shut base l) (r : Audit.Record) :
    (s.hand r).Accounted shut base l := by
  unfold Service.hand
  split
  · refine leaving ?_ ?_
    · exact ⟨h.books, h.gauge⟩
    · rfl
  · have hkept : { s with trail := s.trail ++ [r] }.Accounted shut base l := ⟨h.books, h.gauge⟩
    simp only
    split
    · exact hkept.leaving rfl
    · exact hkept

theorem deliver (h : s.Accounted shut base l) : s.deliver.Accounted shut base l := by
  have hfold : ∀ (rs : List Audit.Record) (s : Service), s.Accounted shut base l →
      (rs.foldl Service.hand s).Accounted shut base l := by
    intro rs
    induction rs with
    | nil => exact fun _ h => h
    | cons r rs ih => exact fun s h => ih (s.hand r) (h.hand r)
  exact hfold s.pending _ ⟨h.books, h.gauge⟩

theorem settle (h : s.Accounted shut base l) : s.settle.Accounted shut base l :=
  (h.settleIn s.reach).deliver

theorem runSweepers (h : s.Accounted shut base l) : s.runSweepers.Accounted shut base l := by
  have hb := Store.InOrder.sweepers s.sweepers s.clock.now h.books
  unfold Service.runSweepers
  generalize Sweeper.runAll s.clock.now s.sweepers s.store = r at hb ⊢
  exact ⟨hb, h.gauge⟩

/-! ## Readers -/

theorem picked? (h : s.Accounted shut base l) {handle : Nat} {x : RelayItem}
    (hx : s.picked? handle = some (x, s')) : s'.Accounted shut base l := by
  obtain ⟨y, -, hy⟩ := Option.map_eq_some_iff.1 hx
  cases hy
  exact h.mapRelay (f := fun r => { r with mailbox := y.2 }) (fun _ => rfl) handle

theorem readIn (h : s.Accounted shut base l) (handle fuel : Nat) (limit : Option Nat) :
    (Service.readIn handle fuel limit s).2.2.Accounted shut base l :=
  readIn_keeps (p := Accounted shut base l) (fun h => h.picked?) (fun h => h.settle) fuel limit h

theorem ask (h : s.Accounted shut base l) (id left : Nat) :
    (s.ask id left).2.2.Accounted shut base l := by
  unfold Service.ask
  split
  · exact h.withStore (h.books.passTurn id)
  · exact (h.withStore (h.books.receive id 0)).leaving rfl

theorem drainIn (h : s.Accounted shut base l) (id fuel left : Nat) (limit : Option Nat) :
    (Service.drainIn id fuel left limit s).2.2.Accounted shut base l :=
  drainIn_keeps id (fun left h => h.ask id left) fuel left limit h

end Accounted

end Service

end Tenancy
