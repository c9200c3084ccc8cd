import Tenancy.Proofs.Service.Steady

/-!
# What stops relays

A relay is stopped by its caller, who cancels it, leaves it or hangs up, or with all others of the
gateway by a shutdown (`Stop`). It is interrupted from then on, and ends in the next turn that it
gets. Its move is a function of the relay and of the store behind it (`moveOf?_of_split`).
-/

namespace Tenancy

/-! ## Stopping -/

inductive Stop where
  | cancel (handle : Nat)
  | leave (handle : Nat)
  | hangUp (handle : Nat)
  | shutDown
  deriving DecidableEq, Repr

namespace Stop

def step : Stop → Step
  | cancel handle => .cancel handle
  | leave handle => .leave handle
  | hangUp handle => .hangUp handle
  | shutDown => .shutDown

/-- The one relay that is stopped, unless it is a shutdown. -/
def handle? : Stop → Option Nat
  | cancel handle | leave handle | hangUp handle => some handle
  | shutDown => none

/-- A shutdown stops the relays of the gateway, and anything else the one with the handle. -/
def stops (x : Stop) (t : RelayTask) : Bool :=
  match x.handle? with
  | some handle => t.handle = handle
  | none => t.ofGateway

/-- What is done to a relay that is stopped. -/
def apply : Stop → Relay → Relay
  | cancel _, r | shutDown, r => { r with cancelled := true }
  | leave _, r => { r with mailbox := r.mailbox.drop }
  | hangUp _, r => { r with mailbox := r.mailbox.drop, cancelled := true }

end Stop

/-- A relay that is stopped is interrupted. -/
theorem Stop.interrupts (x : Stop) (r : Relay) : (x.apply r).interruption?.isSome = true := by
  rw [Relay.isSome_interruption?]
  cases x with
  | cancel handle => rfl
  | leave handle => exact Bool.or_true _
  | hangUp handle => rfl
  | shutDown => rfl

/-- A stop leaves relays where they stand. -/
theorem Stop.handled_apply (x : Stop) (t : RelayTask) :
    t.Handled { t with relay := x.apply t.relay } := by
  cases x with
  | cancel handle => exact .cancel t
  | leave handle => exact .leave t
  | hangUp handle => exact .hangUp t
  | shutDown => exact .cancel t

namespace Service

variable {s : Service} {handle : Nat}

theorem relays_act_stop (s : Service) (x : Stop) :
    (s.act x.step).2.relays =
      s.relays.map fun t => if x.stops t then { t with relay := x.apply t.relay } else t := by
  have hhandle : ∀ (handle : Nat) (f : Relay → Relay),
      (s.mapRelay handle f).relays = s.relays.map fun t =>
        if decide (t.handle = handle) = true then { t with relay := f t.relay } else t := by
    intro handle f
    simp only [decide_eq_true_eq]
    rfl
  cases x with
  | cancel handle => exact hhandle handle _
  | leave handle => exact hhandle handle _
  | hangUp handle => exact hhandle handle _
  | shutDown => rfl

/-! ## Moves -/

theorem moveOf?_of_none (ht : s.task? handle = none) : s.moveOf? handle = none := by
  rcases s.moveOf?_cases handle with ⟨hnone, -⟩ | ⟨l₁, t, l₂, hsplit, hhandle, -⟩
  · exact hnone
  · have hmem : t ∈ s.relays := hsplit ▸ List.mem_append_right l₁ List.mem_cons_self
    exact absurd hhandle (task?_eq_none_iff.1 ht t hmem)

/-- The relay that is found stands behind others with other handles. -/
theorem split_of_task? {t : RelayTask} (ht : s.task? handle = some t) :
    ∃ l₁ l₂, s.relays = l₁ ++ t :: l₂ ∧ t.handle = handle ∧ ∀ u ∈ l₁, u.handle ≠ handle := by
  obtain ⟨hhandle, l₁, l₂, hsplit, hbefore⟩ := List.find?_eq_some_iff_append.1 ht
  exact ⟨l₁, l₂, hsplit, of_decide_eq_true hhandle, fun u hu => by simpa using hbefore u hu⟩

theorem task?_of_split {l₁ l₂ : List RelayTask} {t : RelayTask} (hr : s.relays = l₁ ++ t :: l₂)
    (hhandle : t.handle = handle) (hbefore : ∀ u ∈ l₁, u.handle ≠ handle) :
    s.task? handle = some t := by
  rw [task?, hr]
  exact List.find?_eq_some_iff_append.2 ⟨decide_eq_true hhandle, l₁, l₂, rfl,
    fun u hu => by simpa using hbefore u hu⟩

/-- The first relay with the handle moves, if it can. -/
theorem moveOf?_of_split {l₁ l₂ : List RelayTask} {t : RelayTask} (hr : s.relays = l₁ ++ t :: l₂)
    (hhandle : t.handle = handle) (hbefore : ∀ u ∈ l₁, u.handle ≠ handle) :
    s.moveOf? handle = (t.relay.move? s.store s.clock.wall).map fun x =>
      leaving { s with relays := l₁ ++ { t with relay := x.1 } :: l₂, store := x.2.1 } x.2.2 := by
  have hindex : s.relays.findIdx? (·.handle = handle) = some l₁.length := by
    rw [hr, List.findIdx?_append, List.findIdx?_eq_none_iff.2 fun u hu => by
      simpa using hbefore u hu, List.findIdx?_cons, hhandle]
    simp
  have hget : s.relays[l₁.length]? = some t := by
    rw [hr]
    simp
  have hset : ∀ u, s.relays.set l₁.length u = l₁ ++ u :: l₂ := by
    intro u
    rw [hr]
    simp
  unfold moveOf? moveAt?
  rw [hindex, Option.bind_some, hget]
  simp only [Option.bind_eq_bind, Option.bind_some, hset]
  cases t.relay.move? s.store s.clock.wall <;> rfl

/-- What a turn makes of the relay that it gives to move; a relay that cannot move stays as it is. -/
theorem turn_move {l₁ l₂ : List RelayTask} {t : RelayTask} (hr : s.relays = l₁ ++ t :: l₂)
    (hhandle : t.handle = handle) (hbefore : ∀ u ∈ l₁, u.handle ≠ handle) :
    ∃ r store e, (s.turn (.move handle)).1 = .flag (t.relay.move? s.store s.clock.wall).isSome ∧
      (s.turn (.move handle)).2 =
        leaving { s with relays := l₁ ++ { t with relay := r } :: l₂, store } e ∧
      (t.relay.move? s.store s.clock.wall = some (r, store, e) ∨
        t.relay.move? s.store s.clock.wall = none ∧ r = t.relay ∧ store = s.store) := by
  rw [turn, moveOf?_of_split hr hhandle hbefore]
  cases hm : t.relay.move? s.store s.clock.wall with
  | some x => exact ⟨x.1, x.2.1, x.2.2, rfl, rfl, .inl rfl⟩
  | none =>
    have hsame : s = leaving { s with relays := l₁ ++ t :: l₂ } {} := by
      rw [← hr]
      simp [leaving]
    exact ⟨t.relay, s.store, {}, rfl, hsame, .inr ⟨rfl, rfl, rfl⟩⟩

end Service

end Tenancy
