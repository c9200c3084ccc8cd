import Mathlib.Algebra.BigOperators.Finprod
import Tenancy.Proofs.Hub.Held

/-!
# Who holds which channels

`Hub.holdings` lists the subscriptions of a hub with their channels. Subscribing adds to it,
dropping takes away, and nothing else changes it; the count of a channel is the number of holdings
that have it (`Tidy.count_eq_countP`), and `Hub.active` sums the counts of all channels.
-/

namespace Tenancy

/-- Subscriptions by id, with their distinct channels. -/
abbrev Holdings := List (Nat × List String)

/-- No two subscriptions have the same id, so leaving out an id leaves out one of them. -/
theorem Holdings.filter_id {pre post : Holdings} {p : Nat × List String}
    (hn : ((pre ++ p :: post).map (·.1)).Nodup) :
    (pre ++ p :: post).filter (·.1 ≠ p.1) = pre ++ post := by
  rw [List.map_append, List.map_cons, List.nodup_append, List.nodup_cons] at hn
  obtain ⟨-, ⟨hpost, -⟩, hpre⟩ := hn
  rw [List.filter_append, List.filter_cons_of_neg (by simp)]
  congr 1
  · refine List.filter_eq_self.2 fun q hq => decide_eq_true ?_
    exact hpre q.1 (List.mem_map_of_mem hq) p.1 List.mem_cons_self
  · refine List.filter_eq_self.2 fun q hq => decide_eq_true fun hid => hpost ?_
    exact List.mem_map.2 ⟨q, hq, hid⟩

namespace Hub

def holdings (h : Hub) : Holdings := h.subscriptions.map fun s => (s.id, s.channels)

theorem holdings_subscribe (h : Hub) (channels : List String) :
    (h.subscribe channels).2.holdings = h.holdings ++ [(h.nextId, distinct channels)] := by
  have hs : (h.subscribe channels).2.subscriptions =
      h.subscriptions ++ [opened h.nextId channels] := rfl
  have hnew : (opened h.nextId channels).channels = distinct channels :=
    channels_opened h.nextId channels
  rw [holdings, hs, List.map_append, List.map_singleton, hnew]
  rfl

theorem holdings_publish (h : Hub) (channel payload : String) :
    (h.publish channel payload).2.holdings = h.holdings := by
  rw [holdings, subscriptions_publish, List.map_map]
  refine List.map_congr_left fun s _ => ?_
  exact congrArg (s.id, ·) (Subscription.channels_congr (h.ears_heard channel payload s))

section

variable {h : Hub} (ht : h.Tidy)

include ht

theorem Tidy.holdings_receive (id turn : Nat) :
    (h.receive id turn).2.2.holdings = h.holdings := by
  have hchannels : ∀ h : Hub, h.holdings =
      (h.subscriptions.map fun s => (s.id, s.ears)).map fun p => (p.1, p.2.map (·.2)) := by
    intro h
    rw [holdings, List.map_map]
    exact List.map_congr_left fun s _ => congrArg (s.id, ·) s.channels_eq_map_ears
  rw [hchannels, ht.ears_receive id turn, ← hchannels]

theorem Tidy.holdings_unsubscribe (id : Nat) :
    (h.unsubscribe id).holdings = h.holdings.filter (·.1 ≠ id) := by
  obtain ⟨⟨counts, heq⟩, -⟩ := ht.unsubscribe_eq id
  rw [heq, holdings, holdings, List.filter_map]
  rfl

theorem Tidy.ids_holdings : (h.holdings.map (·.1)).Nodup := by
  rw [holdings, List.map_map]
  exact ht.ids_nodup

theorem Tidy.count_eq_countP (c : String) : h.count c = h.holdings.countP fun p => c ∈ p.2 := by
  rw [ht.count_eq, ht.listeners_eq_countP, holdings, List.countP_map]
  rfl

end

/-! ## Counts that are not zero -/

/-- No channel is kept without subscribers. -/
def Busy (h : Hub) : Prop := ∀ p ∈ h.counts, 0 < p.2

theorem pos_countIn {counts : List (String × Nat)} (hc : ∀ p ∈ counts, 0 < p.2) (c : String) :
    ∀ p ∈ countIn c counts, 0 < p.2 := by
  induction counts with
  | nil =>
    intro p hp
    rw [List.mem_singleton.1 hp]
    exact Nat.one_pos
  | cons q rest ih =>
    have hrest : ∀ p ∈ rest, 0 < p.2 := fun p hp => hc p (List.mem_cons_of_mem q hp)
    intro p hp
    rw [countIn] at hp
    split at hp
    · rcases List.mem_cons.1 hp with rfl | hp
      · exact Nat.succ_pos _
      · exact hrest p hp
    · rcases List.mem_cons.1 hp with rfl | hp
      · exact hc _ List.mem_cons_self
      · exact ih hrest p hp

theorem pos_countOut {counts : List (String × Nat)} (hc : ∀ p ∈ counts, 0 < p.2) (c : String) :
    ∀ p ∈ countOut c counts, 0 < p.2 := by
  intro p hp
  obtain ⟨hmem, hkept⟩ := List.mem_filter.1 hp
  obtain ⟨q, hq, rfl⟩ := List.mem_map.1 hmem
  have hpos := hc q hq
  by_cases hqc : q.1 = c
  · simp only [hqc, if_true, true_and, decide_eq_true_eq] at hkept ⊢
    omega
  · rwa [if_neg hqc]

theorem counts_leave (h : Hub) (c : String) : (h.leave c).counts = countOut c h.counts := by
  unfold leave
  simp only
  split <;> rfl

/-- What every step of `leave` keeps of the counts, dropping a subscription keeps. -/
theorem counts_unsubscribe {P : List (String × Nat) → Prop}
    (hP : ∀ counts c, P counts → P (countOut c counts)) {h : Hub} (hc : P h.counts) (id : Nat) :
    P (h.unsubscribe id).counts := by
  have hfold : ∀ (names : List String) (h : Hub), P h.counts → P (names.foldl leave h).counts := by
    intro names
    induction names with
    | nil => exact fun _ hc => hc
    | cons c names ih =>
      intro h hc
      refine ih (h.leave c) ?_
      rw [counts_leave]
      exact hP h.counts c hc
  unfold unsubscribe
  split
  · exact hc
  · exact hfold _ _ hc

theorem Busy.subscribe {h : Hub} (hb : h.Busy) (channels : List String) :
    (h.subscribe channels).2.Busy := by
  have hfold : ∀ (names : List String) (counts : List (String × Nat)), (∀ p ∈ counts, 0 < p.2) →
      ∀ p ∈ names.foldl (fun counts c => countIn c counts) counts, 0 < p.2 := by
    intro names
    induction names with
    | nil => exact fun _ hc => hc
    | cons c names ih => exact fun counts hc => ih (countIn c counts) (pos_countIn hc c)
  exact hfold (distinct channels) h.counts hb

theorem Busy.unsubscribe {h : Hub} (hb : h.Busy) (id : Nat) : (h.unsubscribe id).Busy :=
  counts_unsubscribe (P := fun counts => ∀ p ∈ counts, 0 < p.2)
    (fun _ c hc => pos_countOut hc c) hb id

/-! ## All channels together -/

theorem count_eq_zero {h : Hub} {c : String} (hc : c ∉ h.counts.map (·.1)) : h.count c = 0 := by
  have hnone : h.counts.find? (·.1 = c) = none :=
    List.find?_eq_none.2 fun p hp hpc => hc (of_decide_eq_true hpc ▸ List.mem_map_of_mem hp)
  rw [count, hnone]

theorem support_count (h : Hub) : Function.support h.count ⊆ ↑(h.counts.map (·.1)).toFinset := by
  intro c hc
  rw [Finset.mem_coe, List.mem_toFinset]
  exact not_not.1 fun hmem => hc (count_eq_zero hmem)

/-- Only finitely many channels have subscribers. -/
theorem finite_support_count (h : Hub) : (Function.support h.count).Finite :=
  (Finset.finite_toSet _).subset h.support_count

theorem active_eq_finsum {h : Hub} (hn : (h.counts.map (·.1)).Nodup) :
    h.active = ∑ᶠ c, h.count c := by
  have hfound : ∀ p ∈ h.counts, h.count p.1 = p.2 := by
    intro p hp
    have hsome : (h.counts.find? (·.1 = p.1)).isSome := by
      rw [List.find?_isSome]
      exact ⟨p, hp, decide_eq_true rfl⟩
    obtain ⟨q, hq⟩ := Option.isSome_iff_exists.1 hsome
    have hname : q.1 = p.1 := by
      have := List.find?_some hq
      exact of_decide_eq_true this
    rw [count, hq, List.inj_on_of_nodup_map hn (List.mem_of_find?_eq_some hq) hp hname]
  rw [finsum_eq_sum_of_support_subset _ h.support_count, List.sum_toFinset _ hn, List.map_map]
  have hvalues : h.counts.map (h.count ∘ (·.1)) = h.counts.map (·.2) :=
    List.map_congr_left hfound
  rw [hvalues]
  rfl

end Hub

end Tenancy
