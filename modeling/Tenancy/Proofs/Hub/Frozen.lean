import Tenancy.Proofs.Hub.Receive

/-!
# Closed hubs

A hub that was closed counts nobody and has no inbox linked (`Hub.Frozen`), so nothing arrives at it
any more. What is left in it is taken, and its subscriptions are dropped one by one.
-/

namespace Tenancy

namespace Hub

structure Frozen (h : Hub) : Prop where
  counts : h.counts = []
  unlinked : ∀ s ∈ h.subscriptions, ∀ b ∈ s.inboxes, b.linked = false

theorem frozen_close (h : Hub) : h.close.Frozen where
  counts := rfl
  unlinked s hs b hb := by
    obtain ⟨s', -, rfl⟩ := List.mem_map.1 hs
    obtain ⟨b', -, rfl⟩ := List.mem_map.1 hb
    rfl

theorem ids_close (h : Hub) : h.close.subscriptions.map (·.id) = h.subscriptions.map (·.id) := by
  show (h.subscriptions.map _).map _ = _
  rw [List.map_map]
  rfl

theorem ids_receive (h : Hub) (id turn : Nat) :
    (h.receive id turn).2.2.subscriptions.map (·.id) = h.subscriptions.map (·.id) := by
  cases hf : h.find? id with
  | none => rw [receive_of_none hf]
  | some s =>
    rw [receive_of_some hf, List.map_map]
    refine List.map_congr_left fun t _ => ?_
    rw [Function.comp]
    split
    · rename_i ht
      rw [s.id_receive, (mem_of_find? hf).2, ht]
    · rfl

/-- A subscription after its hub was closed. -/
def cutOff (s : Subscription) : Subscription :=
  { s with inboxes := s.inboxes.map fun b => { b with linked := false } }

theorem find?_close (h : Hub) (id : Nat) : h.close.find? id = (h.find? id).map cutOff := by
  have hs : h.close.subscriptions = h.subscriptions.map cutOff := rfl
  rw [find?, hs, List.find?_map]
  rfl

namespace Frozen

variable {h : Hub}

/-- There is nobody to count out, and nothing to unlink. -/
theorem leave (hf : h.Frozen) (c : String) : h.leave c = h := by
  have hcounts : countOut c h.counts = h.counts := by
    rw [hf.counts]
    rfl
  unfold Hub.leave
  simp only [hcounts]
  split
  · rfl
  · refine mapInboxes_eq_self fun s hs b hb => ?_
    split
    · rw [← hf.unlinked s hs b hb]
    · rfl

theorem leave_all (hf : h.Frozen) (names : List String) : names.foldl Hub.leave h = h := by
  induction names with
  | nil => rfl
  | cons c names ih => rw [List.foldl_cons, hf.leave, ih]

theorem without (hf : h.Frozen) (id : Nat) :
    ({ h with subscriptions := h.subscriptions.filter (·.id ≠ id) } : Hub).Frozen where
  counts := hf.counts
  unlinked s hs := hf.unlinked s (List.mem_filter.1 hs).1

theorem unsubscribe_eq (hf : h.Frozen) (id : Nat) :
    h.unsubscribe id = { h with subscriptions := h.subscriptions.filter (·.id ≠ id) } := by
  unfold Hub.unsubscribe
  split
  · rename_i hnone
    rw [List.filter_eq_self.2 fun s hs => decide_eq_true (find?_eq_none_iff.1 hnone s hs)]
  · exact (hf.without id).leave_all _

theorem unsubscribe (hf : h.Frozen) (id : Nat) : (h.unsubscribe id).Frozen :=
  hf.unsubscribe_eq id ▸ hf.without id

theorem find?_unsubscribe (hf : h.Frozen) (id j : Nat) :
    (h.unsubscribe id).find? j = if j = id then none else h.find? j := by
  rw [hf.unsubscribe_eq]
  exact h.find?_without h.counts id j

theorem receive (hf : h.Frozen) (id turn : Nat) : (h.receive id turn).2.2.Frozen := by
  refine ⟨(h.receive_counts id turn).1.trans hf.counts, ?_⟩
  cases hs : h.find? id with
  | none =>
    rw [receive_of_none hs]
    exact hf.unlinked
  | some s =>
    have hears : ∀ b ∈ (s.receive turn).2.2.inboxes, b.linked = false := by
      intro b hb
      have hm : (b.linked, b.channel) ∈ s.ears := s.ears_receive turn ▸ Subscription.mem_ears hb
      obtain ⟨b', hb', he⟩ := List.mem_map.1 hm
      rw [← (Prod.mk.inj he).1]
      exact hf.unlinked s (mem_of_find? hs).1 b' hb'
    rw [receive_of_some hs]
    intro t ht
    obtain ⟨t', ht', rfl⟩ := List.mem_map.1 ht
    split
    · exact hears
    · exact hf.unlinked t' ht'

end Frozen

end Hub

end Tenancy
