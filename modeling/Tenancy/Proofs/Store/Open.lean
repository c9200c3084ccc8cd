import Tenancy.Store.Call

/-!
# Calls of an open store

A store that is available answers every call, and a call changes either the entries or the hub. One
that is not says the same to all calls, and is left alone.
-/

namespace Tenancy.Store

variable {s : Store}

theorem onEntries_of_available {α : Type} (ho : s.available = .ok ()) (f : Entries → α × Entries) :
    s.onEntries f = (.ok (f s.entries).1, { s with entries := (f s.entries).2 }) := by
  unfold onEntries
  rw [ho]

theorem publish_of_available (ho : s.available = .ok ()) (channel payload : String) :
    s.publish channel payload =
      (.ok (s.hub.listeners channel), { s with hub := (s.hub.publish channel payload).2 }) := by
  unfold publish
  rw [ho]
  rfl

theorem subscribe_of_available (ho : s.available = .ok ()) (channels : List String) :
    s.subscribe channels =
      (.ok s.hub.nextId,
        { s with
          hub := (s.hub.subscribe channels).2
          faults := s.faults.map fun f => { f with lines := f.lines ++ [{ id := s.hub.nextId }] } }) := by
  unfold subscribe
  rw [ho]
  rfl

theorem call_of_available (ho : s.available = .ok ()) (now : Instant) (c : StoreCall) :
    ∃ a, (s.call now c).1 = .ok a := by
  have hentries : ∀ {α : Type} (g : α → StoreAnswer) (f : Entries → α × Entries),
      ∃ a, (answered g (s.onEntries f)).1 = .ok a := fun g f => by
    rw [answered, onEntries_of_available ho]
    exact ⟨_, rfl⟩
  cases c with
  | publish channel payload =>
    rw [call, publish_of_available ho]
    exact ⟨_, rfl⟩
  | subscribe channels =>
    rw [call, subscribe_of_available ho]
    exact ⟨_, rfl⟩
  | ping =>
    rw [call, ping, ho]
    exact ⟨_, rfl⟩
  | _ => exact hentries _ _

theorem call_of_unavailable {e : StoreError} (h : s.available = .error e) (now : Instant)
    (c : StoreCall) : s.call now c = (.error e, s) := by
  have hentries : ∀ {α : Type} (f : Entries → α × Entries), s.onEntries f = (.error e, s) :=
    fun f => by rw [onEntries, h]
  cases c with
  | publish channel payload =>
    rw [call, publish, h]
    rfl
  | subscribe channels =>
    rw [call, subscribe, h]
    rfl
  | ping =>
    rw [call, ping, h]
    rfl
  | _ => exact congrArg (answered _) (hentries _)

/-- A new fault line leaves the switch as it is. -/
theorem available_subscribed (ho : s.available = .ok ()) (hub : Hub)
    (f : List FaultLine → List FaultLine) :
    Store.available
      { s with hub, faults := s.faults.map fun x => { x with lines := f x.lines } } = .ok () := by
  rw [← ho]
  unfold available
  cases s.faults <;> rfl

end Tenancy.Store
