import Mathlib.Data.List.Nodup
import Tenancy.Proofs.Hub.Count

/-!
# Tidy hubs

Where nobody closes a hub, the count of a channel is the number of inboxes that listen to it, so a
channel is dropped only when nobody is left to be unlinked: every inbox stays linked. `Hub.Tidy` is
that invariant, kept by every step; under it each step has one equation for what becomes of a
subscription and one for the number of listeners on a channel.
-/

namespace Tenancy

/-- Every inbox is linked, and no channel has two. -/
structure Subscription.Whole (s : Subscription) : Prop where
  linked : ∀ b ∈ s.inboxes, b.linked = true
  channels_nodup : (s.inboxes.map (·.channel)).Nodup

theorem Subscription.Whole.congr {s t : Subscription} (hs : s.Whole) (h : t.ears = s.ears) :
    t.Whole where
  linked b hb := by
    have hm : (b.linked, b.channel) ∈ s.ears := h ▸ Subscription.mem_ears hb
    obtain ⟨b', hb', he⟩ := List.mem_map.1 hm
    rw [← (Prod.mk.inj he).1]
    exact hs.linked b' hb'
  channels_nodup := by
    have hc := congrArg (List.map (·.2)) h
    simp only [Subscription.ears, List.map_map, Function.comp_def] at hc
    rw [hc]
    exact hs.channels_nodup

namespace Hub

structure Tidy (h : Hub) : Prop where
  names_nodup : (h.counts.map (·.1)).Nodup
  count_eq : ∀ c, h.count c = h.listeners c
  whole : ∀ s ∈ h.subscriptions, s.Whole
  ids_nodup : (h.subscriptions.map (·.id)).Nodup
  fresh : ∀ s ∈ h.subscriptions, s.id < h.nextId

theorem tidy_empty (capacity nextId : Nat) : ({ capacity, nextId } : Hub).Tidy where
  names_nodup := .nil
  count_eq _ := rfl
  whole _ hs := by cases hs
  ids_nodup := .nil
  fresh _ hs := by cases hs

theorem tidy_start (capacity : Nat) : ({ capacity } : Hub).Tidy := tidy_empty capacity 0

/-! ## Finding subscriptions -/

theorem mem_of_find? {h : Hub} {id : Nat} {s : Subscription} (hs : h.find? id = some s) :
    s ∈ h.subscriptions ∧ s.id = id := by
  have hid := List.find?_some hs
  exact ⟨List.mem_of_find?_eq_some hs, of_decide_eq_true hid⟩

theorem find?_eq_none_iff {h : Hub} {id : Nat} :
    h.find? id = none ↔ ∀ s ∈ h.subscriptions, s.id ≠ id := by
  simp [find?, List.find?_eq_none]

namespace Tidy

variable {h : Hub}

theorem find?_of_mem (ht : h.Tidy) {s : Subscription} (hs : s ∈ h.subscriptions) :
    h.find? s.id = some s := by
  cases hf : h.find? s.id with
  | none => exact absurd rfl (find?_eq_none_iff.1 hf s hs)
  | some s' =>
    obtain ⟨hs', hid⟩ := mem_of_find? hf
    exact congrArg some (List.inj_on_of_nodup_map ht.ids_nodup hs' hs hid)

theorem find?_nextId (ht : h.Tidy) {id : Nat} (hid : h.nextId ≤ id) : h.find? id = none :=
  find?_eq_none_iff.2 fun s hs e => by
    have := ht.fresh s hs
    omega

/-- The listeners on a channel are those of one subscription and the rest. -/
theorem listeners_split (ht : h.Tidy) {s : Subscription} (hs : s ∈ h.subscriptions) (c : String) :
    h.listeners c =
      ((h.subscriptions.filter (·.id ≠ s.id)).map (·.listens c)).sum + s.listens c := by
  obtain ⟨l₁, l₂, hl⟩ := List.append_of_mem hs
  have hnodup := ht.ids_nodup
  rw [hl, List.map_append, List.map_cons, List.nodup_append, List.nodup_cons] at hnodup
  obtain ⟨-, ⟨h₂, -⟩, h₁⟩ := hnodup
  have hf₁ : l₁.filter (·.id ≠ s.id) = l₁ := by
    refine List.filter_eq_self.2 fun a ha => decide_eq_true ?_
    exact h₁ a.id (List.mem_map_of_mem ha) s.id List.mem_cons_self
  have hf₂ : l₂.filter (·.id ≠ s.id) = l₂ := by
    refine List.filter_eq_self.2 fun a ha => decide_eq_true fun e => h₂ ?_
    exact e ▸ List.mem_map_of_mem ha
  rw [listeners_eq_sum, hl, List.filter_append, List.filter_cons_of_neg (by simp), hf₁, hf₂]
  simp only [List.map_append, List.map_cons, List.sum_append, List.sum_cons]
  omega

end Tidy

/-! ## Subscribing -/

/-- A subscription as it is opened. -/
def opened (id : Nat) (channels : List String) : Subscription :=
  ⟨id, (distinct channels).map fun c => { channel := c }⟩

theorem channels_opened (id : Nat) (channels : List String) :
    (opened id channels).inboxes.map (·.channel) = distinct channels := by
  rw [opened, List.map_map]
  exact List.map_id _

theorem listens_opened (id : Nat) (channels : List String) (c : String) :
    (opened id channels).listens c = if c ∈ channels then 1 else 0 := by
  rw [← count_distinct, ← channels_opened id, List.count, List.countP_map]
  refine List.countP_congr fun b hb => ?_
  obtain ⟨d, -, rfl⟩ := List.mem_map.1 hb
  simp

theorem whole_opened (id : Nat) (channels : List String) : (opened id channels).Whole where
  linked b hb := by
    obtain ⟨c, -, rfl⟩ := List.mem_map.1 hb
    rfl
  channels_nodup := by
    rw [channels_opened]
    exact nodup_distinct channels

theorem listeners_subscribe (h : Hub) (channels : List String) (c : String) :
    (h.subscribe channels).2.listeners c = h.listeners c + if c ∈ channels then 1 else 0 := by
  have hs : (h.subscribe channels).2.subscriptions = h.subscriptions ++ [opened h.nextId channels] :=
    rfl
  rw [listeners_eq_sum, hs, List.map_append, List.sum_append, ← listeners_eq_sum, List.map_singleton,
    List.sum_singleton, listens_opened]

theorem Tidy.find?_subscribe {h : Hub} (ht : h.Tidy) (channels : List String) (id : Nat) :
    (h.subscribe channels).2.find? id =
      if id = h.nextId then some (opened h.nextId channels) else h.find? id := by
  have hs : (h.subscribe channels).2.find? id =
      (h.find? id).or (if h.nextId = id then some (opened h.nextId channels) else none) := by
    simp only [find?, subscribe, List.find?_append, List.find?_singleton, decide_eq_true_eq]
    rfl
  rw [hs]
  by_cases hid : id = h.nextId
  · subst hid
    simp [ht.find?_nextId]
  · simp [hid, Ne.symm hid]

theorem Tidy.subscribe {h : Hub} (ht : h.Tidy) (channels : List String) :
    (h.subscribe channels).2.Tidy where
  names_nodup := nodup_names_foldl_countIn ht.names_nodup
  count_eq c := by
    rw [listeners_subscribe, ← ht.count_eq, ← count_distinct]
    exact count_foldl_countIn (distinct channels) h c
  whole s hs := by
    rcases List.mem_append.1 hs with hs | hs
    · exact ht.whole s hs
    · exact List.mem_singleton.1 hs ▸ whole_opened h.nextId channels
  ids_nodup := by
    have hids : (h.subscribe channels).2.subscriptions.map (·.id) =
        h.subscriptions.map (·.id) ++ [h.nextId] := List.map_append
    rw [hids, List.nodup_append]
    refine ⟨ht.ids_nodup, List.pairwise_singleton _ _, fun a ha b hb => ?_⟩
    obtain ⟨s, hs, rfl⟩ := List.mem_map.1 ha
    have := ht.fresh s hs
    have := List.mem_singleton.1 hb
    omega
  fresh s hs := by
    rcases List.mem_append.1 hs with hs | hs
    · exact Nat.lt_succ_of_lt (ht.fresh s hs)
    · exact List.mem_singleton.1 hs ▸ Nat.lt_succ_self h.nextId

/-! ## Publishing -/

/-- A subscription after a publish. -/
def heard (h : Hub) (channel payload : String) (s : Subscription) : Subscription :=
  { s with inboxes := s.inboxes.map fun b =>
      if b.linked && b.channel = channel then b.push h.bufferSize ⟨channel, payload⟩ else b }

theorem push_linked_channel (size : Nat) (m : Message) (b : Inbox) :
    (b.push size m).linked = b.linked ∧ (b.push size m).channel = b.channel := by
  unfold Inbox.push
  split <;> exact ⟨rfl, rfl⟩

theorem ears_heard (h : Hub) (channel payload : String) (s : Subscription) :
    (h.heard channel payload s).ears = s.ears := by
  unfold Subscription.ears
  rw [heard, List.map_map]
  refine List.map_congr_left fun b _ => ?_
  rw [Function.comp]
  obtain ⟨hl, hc⟩ := push_linked_channel h.bufferSize ⟨channel, payload⟩ b
  split
  · rw [hl, hc]
  · rfl

theorem subscriptions_publish (h : Hub) (channel payload : String) :
    (h.publish channel payload).2.subscriptions = h.subscriptions.map (h.heard channel payload) := rfl

theorem find?_publish (h : Hub) (channel payload : String) (id : Nat) :
    (h.publish channel payload).2.find? id = (h.find? id).map (h.heard channel payload) := by
  rw [find?, subscriptions_publish, List.find?_map]
  rfl

theorem listeners_publish (h : Hub) (channel payload c : String) :
    (h.publish channel payload).2.listeners c = h.listeners c := by
  refine listeners_congr ?_ c
  rw [subscriptions_publish, List.map_map]
  exact List.map_congr_left fun s _ => ears_heard h channel payload s

theorem Tidy.publish {h : Hub} (ht : h.Tidy) (channel payload : String) :
    (h.publish channel payload).2.Tidy where
  names_nodup := ht.names_nodup
  count_eq c := by
    rw [listeners_publish]
    exact ht.count_eq c
  whole s hs := by
    obtain ⟨s', hs', rfl⟩ := List.mem_map.1 hs
    exact (ht.whole s' hs').congr (ears_heard h channel payload s')
  ids_nodup := by
    rw [subscriptions_publish, List.map_map]
    exact ht.ids_nodup
  fresh s hs := by
    obtain ⟨s', hs', rfl⟩ := List.mem_map.1 hs
    exact ht.fresh s' hs'

/-! ## Leaving -/

/-- Counts that are still to be taken back: for every name in `rest` one more than there are
listeners. -/
structure Owing (h : Hub) (rest : List String) : Prop where
  names_nodup : (h.counts.map (·.1)).Nodup
  count_eq : ∀ c, h.count c = h.listeners c + rest.count c
  linked : ∀ s ∈ h.subscriptions, ∀ b ∈ s.inboxes, b.linked = true

/-- Where all inboxes are linked, a channel that nobody listens to has no inbox. -/
theorem no_inbox_of_listeners_eq_zero {h : Hub} {c : String} (hzero : h.listeners c = 0)
    (hl : ∀ s ∈ h.subscriptions, ∀ b ∈ s.inboxes, b.linked = true) :
    ∀ s ∈ h.subscriptions, ∀ b ∈ s.inboxes, b.channel ≠ c := by
  intro s hs b hb hbc
  rw [listeners_eq_sum, List.sum_eq_zero_iff_forall_eq_nat] at hzero
  have hs0 := hzero (s.listens c) (List.mem_map_of_mem hs)
  have hb0 := List.countP_eq_zero.1 hs0 b hb
  simp [hl s hs b hb, hbc] at hb0

/-- A channel is dropped when nobody listens to it any more, so there is no inbox to unlink. -/
theorem Owing.leave {h : Hub} {c : String} {rest : List String} (ho : h.Owing (c :: rest)) :
    h.leave c = { h with counts := countOut c h.counts } ∧ (h.leave c).Owing rest := by
  have hcount : ∀ d, ({ h with counts := countOut c h.counts } : Hub).count d =
      h.listeners d + rest.count d := by
    intro d
    rw [count_countOut ho.names_nodup, ho.count_eq, List.count_cons]
    simp only [beq_iff_eq]
    omega
  have hleave : h.leave c = { h with counts := countOut c h.counts } := by
    unfold Hub.leave
    by_cases hany : (countOut c h.counts).any (·.1 = c) = true
    · exact if_pos hany
    · have hzero : h.listeners c = 0 := by
        have hfind : (countOut c h.counts).find? (·.1 = c) = none := by
          rw [List.find?_eq_none]
          exact fun p hp hpc => hany (List.any_eq_true.2 ⟨p, hp, hpc⟩)
        have hc := hcount c
        rw [count_eq_getD] at hc
        simp only [hfind, Option.map_none, Option.getD_none] at hc
        omega
      have hnone := no_inbox_of_listeners_eq_zero hzero ho.linked
      exact (if_neg hany).trans (mapInboxes_eq_self fun s hs b hb => if_neg (hnone s hs b hb))
  refine ⟨hleave, ?_⟩
  rw [hleave]
  exact ⟨ho.names_nodup.sublist (names_countOut_sublist c h.counts), hcount, ho.linked⟩

theorem Owing.leave_all {names rest : List String} :
    ∀ {h : Hub}, h.Owing (names ++ rest) →
      ∃ counts, names.foldl Hub.leave h = { h with counts } ∧ (names.foldl Hub.leave h).Owing rest := by
  induction names with
  | nil => exact fun {h} ho => ⟨h.counts, rfl, ho⟩
  | cons c names ih =>
    intro h ho
    obtain ⟨hleave, ho'⟩ := ho.leave
    obtain ⟨counts, hfold, hrest⟩ := ih ho'
    refine ⟨counts, ?_, hrest⟩
    rw [List.foldl_cons, hfold, hleave]

/-- A subscription that is taken out is not found any more, and all others are. -/
theorem find?_without (h : Hub) (counts : List (String × Nat)) (id j : Nat) :
    ({ h with counts, subscriptions := h.subscriptions.filter (·.id ≠ id) } : Hub).find? j =
      if j = id then none else h.find? j := by
  by_cases hj : j = id
  · subst hj
    rw [if_pos rfl, find?_eq_none_iff]
    exact fun s hs => of_decide_eq_true (List.mem_filter.1 hs).2
  · rw [if_neg hj, find?, find?, List.find?_filter]
    congr 1
    funext s
    by_cases hs : s.id = j
    · simp [hs, hj]
    · simp [hs]

section Unsubscribe

variable {h : Hub} (ht : h.Tidy) (id : Nat)

include ht

/-- Dropping a subscription takes it away, and changes nothing else but counts. -/
theorem Tidy.unsubscribe_eq :
    (∃ counts, h.unsubscribe id =
      { h with counts, subscriptions := h.subscriptions.filter (·.id ≠ id) }) ∧
      (h.unsubscribe id).Owing [] := by
  cases hf : h.find? id with
  | none =>
    have hall : h.subscriptions.filter (·.id ≠ id) = h.subscriptions :=
      List.filter_eq_self.2 fun s hs => decide_eq_true (find?_eq_none_iff.1 hf s hs)
    rw [unsubscribe, hf, hall]
    exact ⟨⟨h.counts, rfl⟩, ht.names_nodup, ht.count_eq, fun s hs => (ht.whole s hs).linked⟩
  | some s =>
    obtain ⟨hs, rfl⟩ := mem_of_find? hf
    have ho : ({ h with subscriptions := h.subscriptions.filter (·.id ≠ s.id) } : Hub).Owing
        (s.inboxes.map (·.channel) ++ []) := by
      refine ⟨ht.names_nodup, fun c => ?_, fun t htm => (ht.whole t (List.mem_filter.1 htm).1).linked⟩
      have hlistens : s.listens c = (s.inboxes.map (·.channel)).count c := by
        rw [List.count_eq_countP, List.countP_map]
        refine List.countP_congr fun b hb => ?_
        rw [(ht.whole s hs).linked b hb]
        simp
      rw [List.append_nil, ← hlistens, listeners_eq_sum, ← ht.listeners_split hs, ← ht.count_eq]
      rfl
    obtain ⟨counts, hfold, hrest⟩ := ho.leave_all
    rw [unsubscribe, hf]
    exact ⟨⟨counts, hfold⟩, hrest⟩

theorem Tidy.unsubscribe : (h.unsubscribe id).Tidy := by
  obtain ⟨⟨counts, heq⟩, ho⟩ := ht.unsubscribe_eq id
  have hmem : ∀ s ∈ (h.unsubscribe id).subscriptions, s ∈ h.subscriptions := by
    intro s hs
    rw [heq] at hs
    exact (List.mem_filter.1 hs).1
  refine ⟨ho.names_nodup, ho.count_eq, fun s hs => ht.whole s (hmem s hs), ?_, fun s hs => ?_⟩
  · rw [heq]
    exact ht.ids_nodup.sublist (List.filter_sublist.map _)
  · rw [heq]
    exact ht.fresh s (hmem s hs)

theorem Tidy.find?_unsubscribe (j : Nat) :
    (h.unsubscribe id).find? j = if j = id then none else h.find? j := by
  obtain ⟨⟨counts, heq⟩, -⟩ := ht.unsubscribe_eq id
  rw [heq, find?_without]

theorem Tidy.listeners_unsubscribe (c : String) :
    h.listeners c =
      (h.unsubscribe id).listeners c + ((h.find? id).map (·.listens c)).getD 0 := by
  obtain ⟨⟨counts, heq⟩, -⟩ := ht.unsubscribe_eq id
  rw [heq]
  cases hf : h.find? id with
  | none =>
    have hall : h.subscriptions.filter (·.id ≠ id) = h.subscriptions :=
      List.filter_eq_self.2 fun s hs => decide_eq_true (find?_eq_none_iff.1 hf s hs)
    rw [hall]
    rfl
  | some s =>
    obtain ⟨hs, rfl⟩ := mem_of_find? hf
    exact ht.listeners_split hs c

theorem Tidy.unsubscribe_capacity :
    (h.unsubscribe id).capacity = h.capacity ∧ (h.unsubscribe id).nextId = h.nextId := by
  obtain ⟨⟨counts, heq⟩, -⟩ := ht.unsubscribe_eq id
  rw [heq]
  exact ⟨rfl, rfl⟩

end Unsubscribe

end Hub

end Tenancy
