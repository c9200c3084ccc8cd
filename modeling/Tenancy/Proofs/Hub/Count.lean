import Mathlib.Algebra.GroupWithZero.Nat
import Tenancy.Hub.Basic
import Tenancy.Proofs.Lists

/-!
# Counts and listeners of a hub

What `countIn` and `countOut` make of the count of a channel, and what the steps of a hub make of
the inboxes that listen to it.
-/

namespace Tenancy

theorem mem_distinct {c : String} {cs : List String} : c ∈ distinct cs ↔ c ∈ cs := by
  induction cs with
  | nil => exact Iff.rfl
  | cons d cs ih =>
    rw [distinct, List.mem_cons, List.mem_filter, ih, List.mem_cons]
    by_cases h : c = d
    · simp [h]
    · simp [h]

theorem nodup_distinct (cs : List String) : (distinct cs).Nodup := by
  induction cs with
  | nil => exact .nil
  | cons d cs ih =>
    have hd : d ∉ (distinct cs).filter (· ≠ d) := by simp
    exact List.nodup_cons.2 ⟨hd, ih.filter _⟩

theorem distinct_of_nodup {cs : List String} (h : cs.Nodup) : distinct cs = cs := by
  induction cs with
  | nil => rfl
  | cons c cs ih =>
    obtain ⟨hc, hcs⟩ := List.nodup_cons.1 h
    have hall : cs.filter (· ≠ c) = cs :=
      List.filter_eq_self.2 fun d hd => decide_eq_true fun e => hc (e ▸ hd)
    rw [distinct, ih hcs, hall]

theorem count_distinct (c : String) (cs : List String) :
    (distinct cs).count c = if c ∈ cs then 1 else 0 := by
  rw [(nodup_distinct cs).count]
  simp only [mem_distinct]

namespace Hub

/-! ## Counts -/

theorem count_eq_getD (h : Hub) (c : String) :
    h.count c = ((h.counts.find? (·.1 = c)).map (·.2)).getD 0 := by
  unfold count
  cases h.counts.find? (·.1 = c) <;> rfl

theorem count_countIn (h : Hub) (c d : String) :
    ({ h with counts := countIn c h.counts } : Hub).count d =
      h.count d + if c = d then 1 else 0 := by
  simp only [count_eq_getD]
  induction h.counts with
  | nil => by_cases hcd : c = d <;> simp [countIn, hcd]
  | cons p rest ih =>
    obtain ⟨e, n⟩ := p
    rw [countIn]
    by_cases hec : e = c
    · subst hec
      by_cases hcd : e = d <;> simp [hcd]
    · by_cases hed : e = d
      · subst hed
        simp [hec, Ne.symm hec]
      · simpa [hec, hed] using ih

theorem names_countIn (c : String) (counts : List (String × Nat)) :
    (countIn c counts).map (·.1) =
      if c ∈ counts.map (·.1) then counts.map (·.1) else counts.map (·.1) ++ [c] := by
  induction counts with
  | nil => rfl
  | cons p rest ih =>
    obtain ⟨e, n⟩ := p
    rw [countIn]
    by_cases hec : e = c
    · simp [hec]
    · rw [if_neg hec, List.map_cons, ih]
      by_cases hm : c ∈ rest.map (·.1)
      · simp [hm]
      · simp [hm, Ne.symm hec]

theorem nodup_names_countIn {c : String} {counts : List (String × Nat)}
    (h : (counts.map (·.1)).Nodup) : ((countIn c counts).map (·.1)).Nodup := by
  rw [names_countIn]
  split
  · exact h
  · rename_i hm
    rw [List.nodup_append]
    refine ⟨h, List.pairwise_singleton _ _, fun a ha b hb => ?_⟩
    rw [List.mem_singleton.1 hb]
    exact fun e => hm (e ▸ ha)

/-- A channel of which no subscriber is left has no count. -/
theorem countOut_cons (c : String) (p : String × Nat) (rest : List (String × Nat)) :
    countOut c (p :: rest) =
      if p.1 = c then
        if p.2 - 1 = 0 then countOut c rest else (p.1, p.2 - 1) :: countOut c rest
      else p :: countOut c rest := by
  by_cases hp : p.1 = c
  · by_cases h0 : p.2 - 1 = 0 <;> simp [countOut, hp, h0]
  · simp [countOut, hp]

theorem names_countOut_sublist (c : String) (counts : List (String × Nat)) :
    ((countOut c counts).map (·.1)).Sublist (counts.map (·.1)) := by
  induction counts with
  | nil => exact .slnil
  | cons p rest ih =>
    rw [countOut_cons]
    split
    · split
      · exact ih.cons _
      · exact ih.cons_cons _
    · exact ih.cons_cons _

theorem count_countOut {h : Hub} (hn : (h.counts.map (·.1)).Nodup) (c d : String) :
    ({ h with counts := countOut c h.counts } : Hub).count d =
      h.count d - if c = d then 1 else 0 := by
  simp only [count_eq_getD]
  generalize h.counts = counts at hn ⊢
  induction counts with
  | nil => by_cases hcd : c = d <;> simp [countOut, hcd]
  | cons p rest ih =>
    obtain ⟨e, n⟩ := p
    rw [List.map_cons, List.nodup_cons] at hn
    rw [countOut_cons]
    by_cases hec : e = c
    · subst hec
      by_cases hed : e = d
      · subst hed
        -- the name does not come again, so nothing is found behind its first entry
        have hrest : (countOut e rest).find? (·.1 = e) = none := by
          refine List.find?_eq_none.2 fun q hq he => hn.1 ?_
          have hq' := (names_countOut_sublist e rest).subset (List.mem_map_of_mem hq)
          rwa [of_decide_eq_true he] at hq'
        by_cases h0 : n - 1 = 0 <;> simp [h0, hrest]
      · have := ih hn.2
        by_cases h0 : n - 1 = 0 <;> simpa [h0, hed] using this
    · by_cases hed : e = d
      · subst hed
        simp [hec, Ne.symm hec]
      · simpa [hec, hed] using ih hn.2

theorem count_foldl_countIn (names : List String) (h : Hub) (d : String) :
    ({ h with counts := names.foldl (fun counts c => countIn c counts) h.counts } : Hub).count d =
      h.count d + names.count d := by
  induction names generalizing h with
  | nil => rfl
  | cons c names ih =>
    rw [List.foldl_cons, ih { h with counts := countIn c h.counts }, count_countIn, List.count_cons]
    simp only [beq_iff_eq]
    omega

theorem nodup_names_foldl_countIn {names : List String} {counts : List (String × Nat)}
    (h : (counts.map (·.1)).Nodup) :
    ((names.foldl (fun counts c => countIn c counts) counts).map (·.1)).Nodup := by
  induction names generalizing counts with
  | nil => exact h
  | cons c names ih => exact ih (nodup_names_countIn h)

end Hub

/-! ## Listeners -/

namespace Subscription

/-- Where a subscription listens: for each inbox whether it is linked, and its channel. -/
def ears (s : Subscription) : List (Bool × String) := s.inboxes.map fun b => (b.linked, b.channel)

/-- The inboxes of a subscription that a publish on the channel reaches. -/
def listens (s : Subscription) (channel : String) : Nat :=
  s.inboxes.countP fun b => b.linked && b.channel = channel

theorem listens_eq_countP_ears (s : Subscription) (c : String) :
    s.listens c = s.ears.countP fun p => p.1 && p.2 = c := by
  rw [ears, List.countP_map]
  rfl

theorem listens_eq_zero {s : Subscription} {c : String} (h : ∀ p ∈ s.ears, p.2 ≠ c) :
    s.listens c = 0 := by
  rw [listens_eq_countP_ears]
  exact List.countP_eq_zero.2 fun p hp => by simp [h p hp]

theorem mem_ears {s : Subscription} {b : Inbox} (hb : b ∈ s.inboxes) :
    (b.linked, b.channel) ∈ s.ears := List.mem_map_of_mem hb

end Subscription

namespace Hub

theorem listeners_eq_sum (h : Hub) (c : String) :
    h.listeners c = (h.subscriptions.map (·.listens c)).sum := rfl

/-- What changes inboxes but not where they listen changes no number of listeners. -/
theorem listeners_congr {h h' : Hub}
    (hs : h.subscriptions.map (·.ears) = h'.subscriptions.map (·.ears)) (c : String) :
    h.listeners c = h'.listeners c := by
  have hl : ∀ h : Hub, h.listeners c =
      ((h.subscriptions.map (·.ears)).map fun ps => ps.countP fun p => p.1 && p.2 = c).sum := by
    intro h
    rw [listeners_eq_sum, List.map_map]
    simp only [Subscription.listens_eq_countP_ears, Function.comp_def]
  rw [hl, hl, hs]

theorem mapInboxes_eq_self {f : Inbox → Inbox} {h : Hub}
    (hf : ∀ s ∈ h.subscriptions, ∀ b ∈ s.inboxes, f b = b) : mapInboxes f h = h := by
  have hs : h.subscriptions.map (fun s => { s with inboxes := s.inboxes.map f }) =
      h.subscriptions := by
    refine map_eq_self fun s hs => ?_
    rw [map_eq_self (hf s hs)]
  unfold mapInboxes
  rw [hs]

end Hub

end Tenancy
