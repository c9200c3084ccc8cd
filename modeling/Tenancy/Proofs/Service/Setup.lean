import Tenancy.Proofs.Service.Deeds

/-!
# What no run changes

The gateway with its settings and the capacity of the channels are chosen before a service starts.
Whatever is done to a store leaves the capacity as it is, and so does every step
(`Service.SameSetup`).
-/

namespace Tenancy

/-! ## Stores -/

theorem Hub.capacity_unsubscribe (h : Hub) (id : Nat) : (h.unsubscribe id).capacity = h.capacity := by
  have hleave : ∀ (names : List String) (h : Hub), (names.foldl leave h).capacity = h.capacity := by
    intro names
    induction names with
    | nil => exact fun _ => rfl
    | cons c names ih =>
      intro h
      refine (ih (h.leave c)).trans ?_
      unfold leave
      simp only
      split <;> rfl
  unfold unsubscribe
  split
  · rfl
  · exact hleave _ _

namespace Store

/-- The number of messages that channels are made for. -/
def capacity (s : Store) : Nat := s.hub.capacity

theorem capacity_onEntries {α : Type} (s : Store) (f : Entries → α × Entries) :
    (s.onEntries f).2.capacity = s.capacity := by
  unfold onEntries
  split <;> rfl

theorem capacity_publish (s : Store) (channel payload : String) :
    (s.publish channel payload).2.capacity = s.capacity := by
  unfold publish
  split <;> rfl

theorem capacity_subscribe (s : Store) (channels : List String) :
    (s.subscribe channels).2.capacity = s.capacity := by
  unfold subscribe
  split <;> rfl

theorem capacity_unsubscribe (s : Store) (id : Nat) : (s.unsubscribe id).capacity = s.capacity :=
  s.hub.capacity_unsubscribe id

theorem capacity_receive (s : Store) (id turn : Nat) :
    (s.receive id turn).2.2.capacity = s.capacity := by
  show (s.receive id turn).2.2.hub.capacity = s.hub.capacity
  rcases s.hub_receive id turn with hhub | hhub
  · rw [hhub]
  · rw [hhub]
    exact (s.hub.receive_counts id turn).2.2

theorem capacity_passTurn (s : Store) (id : Nat) : (s.passTurn id).capacity = s.capacity := by
  unfold passTurn
  split <;> rfl

theorem capacity_call (s : Store) (now : Instant) (c : StoreCall) :
    (s.call now c).2.capacity = s.capacity := by
  cases c with
  | publish channel payload => exact s.capacity_publish channel payload
  | subscribe channels => exact s.capacity_subscribe channels
  | ping => rfl
  | _ => exact s.capacity_onEntries _

theorem capacity_after (s : Store) (now : Instant) (d : Deed) :
    (s.after now d).capacity = s.capacity := by
  cases d with
  | call c => exact s.capacity_call now c
  | receive id turn => exact s.capacity_receive id turn
  | passTurn id => exact s.capacity_passTurn id
  | unsubscribe id => exact s.capacity_unsubscribe id
  | _ => rfl

theorem Becomes.capacity_eq {s s' : Store} {now : Instant} (h : s.Becomes now s') :
    s'.capacity = s.capacity :=
  h.keeps (p := fun s' => s'.capacity = s.capacity)
    (fun {s'} d hs => (s'.capacity_after now d).trans hs) rfl

end Store

theorem Relay.Moves.capacity_eq {r r' : Relay} {s s' : Store} {now : Timestamp}
    (h : r.Moves s now r' s') : s'.capacity = s.capacity := (h.becomes ⟨0⟩).capacity_eq

/-! ## Services -/

namespace Service

/-- The same gateway, over channels of the same capacity. -/
structure SameSetup (s s' : Service) : Prop where
  gateway_eq : s'.gateway = s.gateway
  capacity_eq : s'.store.capacity = s.store.capacity

namespace SameSetup

variable {s s' s'' : Service}

theorem refl (s : Service) : s.SameSetup s := ⟨rfl, rfl⟩

theorem trans (h : s.SameSetup s') (h' : s'.SameSetup s'') : s.SameSetup s'' :=
  ⟨h'.gateway_eq.trans h.gateway_eq, h'.capacity_eq.trans h.capacity_eq⟩

theorem step (s : Service) (x : Step) : s.SameSetup (s.step x).2 := by
  obtain ⟨hgateway, -, hstore⟩ := s.becomes_step x
  exact ⟨hgateway, hstore.capacity_eq⟩

theorem run (xs : List Step) (s : Service) : s.SameSetup (s.run xs).2 := by
  induction xs generalizing s with
  | nil => exact refl s
  | cons x xs ih => exact (step s x).trans (ih (s.step x).2)

end SameSetup

end Service

end Tenancy
