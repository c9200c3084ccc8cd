import Tenancy.Proofs.Hub.Receive
import Tenancy.Proofs.Store.Entries
import Tenancy.Proofs.Store.Open

/-!
# Plain stores

A store in memory that nobody closed, with no fault switch in front of it: it answers every call,
its entries have distinct keys and its hub is tidy. Every call but a close keeps it so.
-/

namespace Tenancy

/-- What a store without a fault switch makes of what its hub offers. -/
def Arrival.ofDelivery : Delivery → Arrival
  | .message m => .message m
  | .nothing => .nothing
  | .ended => .ended

namespace Store

/-! ## No fault switch -/

section Faultless

variable {s : Store} (hf : s.faults = none)

include hf

theorem line?_of_faultless (id : Nat) : s.line? id = none := by
  rw [line?, hf]
  rfl

theorem unsubscribe_of_faultless (id : Nat) :
    s.unsubscribe id = { s with hub := s.hub.unsubscribe id } := by
  rw [unsubscribe, hf]
  rfl

theorem receive_of_faultless (id turn : Nat) :
    s.receive id turn =
      (.ofDelivery (s.hub.receive id turn).1, (s.hub.receive id turn).2.1,
        { s with hub := (s.hub.receive id turn).2.2 }) := by
  rw [receive, line?_of_faultless hf]
  obtain ⟨d, lag, hub⟩ := s.hub.receive id turn
  cases d <;> rfl

theorem waiting_of_faultless (id : Nat) :
    s.waiting id = ((s.hub.find? id).map (·.waiting)).getD 0 := by
  rw [waiting, line?_of_faultless hf]
  rfl

end Faultless

/-! ## Plain stores -/

structure Plain (s : Store) : Prop where
  faults_eq : s.faults = none
  closed_eq : s.closed = false
  distinct : s.entries.Distinct
  tidy : s.hub.Tidy

theorem plain_ofCapacity (capacity : Nat) : (ofCapacity capacity).Plain where
  faults_eq := rfl
  closed_eq := rfl
  distinct := .nil
  tidy := Hub.tidy_start capacity

namespace Plain

variable {s : Store} (hp : s.Plain)

include hp

theorem available : s.available = .ok () := by
  rw [Store.available, hp.faults_eq, hp.closed_eq]
  rfl

theorem withEntries {es : Entries} (hd : es.Distinct) : { s with entries := es }.Plain :=
  ⟨hp.faults_eq, hp.closed_eq, hd, hp.tidy⟩

theorem withHub {h : Hub} (ht : h.Tidy) : { s with hub := h }.Plain :=
  ⟨hp.faults_eq, hp.closed_eq, hp.distinct, ht⟩

theorem line?_eq (id : Nat) : s.line? id = none := line?_of_faultless hp.faults_eq id

theorem unsubscribe_eq (id : Nat) : s.unsubscribe id = { s with hub := s.hub.unsubscribe id } :=
  unsubscribe_of_faultless hp.faults_eq id

theorem receive_eq (id turn : Nat) :
    s.receive id turn =
      (.ofDelivery (s.hub.receive id turn).1, (s.hub.receive id turn).2.1,
        { s with hub := (s.hub.receive id turn).2.2 }) := receive_of_faultless hp.faults_eq id turn

theorem waiting_eq (id : Nat) : s.waiting id = ((s.hub.find? id).map (·.waiting)).getD 0 :=
  waiting_of_faultless hp.faults_eq id

end Plain

end Store

end Tenancy
