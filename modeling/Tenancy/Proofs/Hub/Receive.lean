import Tenancy.Proofs.Hub.Tidy

/-!
# Taking messages

What a subscription offers depends on its inboxes and the turn alone, and taking it changes only
them. While anything waits there is a message to take, and one less waits then.
-/

namespace Tenancy

namespace Subscription

/-- The subscription after the first message of a channel was taken. -/
def taken (s : Subscription) (channel : String) : Subscription :=
  { s with inboxes := s.inboxes.map fun b => if b.channel = channel then afterTake b else b }

theorem ears_taken (s : Subscription) (c : String) : (s.taken c).ears = s.ears := by
  unfold ears
  rw [taken, List.map_map]
  refine List.map_congr_left fun b _ => ?_
  rw [Function.comp]
  split <;> rfl

theorem takeFrom_eq_some {s : Subscription} {c : String} {m : Message} {lag : Option Lag}
    {s' : Subscription} (h : s.takeFrom c = some (m, lag, s')) :
    s' = s.taken c ∧ ∃ b rest, s.inboxes.find? (·.channel = c) = some b ∧ b.pending = m :: rest := by
  unfold takeFrom at h
  cases hb : s.inboxes.find? (·.channel = c) with
  | none => simp [hb] at h
  | some b =>
    cases hp : b.pending with
    | nil => simp [hb, hp] at h
    | cons m' rest =>
      simp only [hb, hp, List.head?_cons, Option.bind_eq_bind, Option.bind_some, Option.some.injEq,
        Prod.mk.injEq] at h
      obtain ⟨rfl, -, rfl⟩ := h
      exact ⟨rfl, b, rest, rfl, hp⟩

/-- Either a message is taken from a channel, or nothing changes. -/
theorem receive_cases (s : Subscription) (turn : Nat) :
    (∃ c m lag, s.takeFrom c = some (m, lag, s.taken c) ∧
      s.receive turn = (.message m, lag, s.taken c)) ∨
    ((s.nonempty[turn % s.nonempty.length]?).bind s.takeFrom = none ∧
      s.receive turn = (if s.isOver then .ended else .nothing, none, s)) := by
  cases hr : (s.nonempty[turn % s.nonempty.length]?).bind s.takeFrom with
  | none => exact .inr ⟨rfl, by simp only [receive, hr]⟩
  | some r =>
    obtain ⟨m, lag, s'⟩ := r
    obtain ⟨c, -, hc⟩ := Option.bind_eq_some_iff.1 hr
    obtain ⟨rfl, -⟩ := takeFrom_eq_some hc
    exact .inl ⟨c, m, lag, hc, by simp only [receive, hr]⟩

theorem id_receive (s : Subscription) (turn : Nat) : (s.receive turn).2.2.id = s.id := by
  rcases s.receive_cases turn with ⟨c, m, lag, -, h⟩ | ⟨-, h⟩
  · rw [h]
    rfl
  · rw [h]

theorem ears_receive (s : Subscription) (turn : Nat) : (s.receive turn).2.2.ears = s.ears := by
  rcases s.receive_cases turn with ⟨c, m, lag, -, h⟩ | ⟨-, h⟩
  · rw [h]
    exact s.ears_taken c
  · rw [h]

/-- The id plays no part. -/
theorem receive_withId (s : Subscription) (id turn : Nat) :
    ({ s with id } : Subscription).receive turn =
      ((s.receive turn).1, (s.receive turn).2.1, { (s.receive turn).2.2 with id }) := by
  have htake : ∀ c, ({ s with id } : Subscription).takeFrom c =
      (s.takeFrom c).map fun r => (r.1, r.2.1, { r.2.2 with id }) := by
    intro c
    unfold takeFrom
    cases s.inboxes.find? (·.channel = c) with
    | none => simp
    | some b => cases hp : b.pending <;> simp [hp]
  have hnonempty : ({ s with id } : Subscription).nonempty = s.nonempty := rfl
  have hover : ({ s with id } : Subscription).isOver = s.isOver := rfl
  unfold receive
  simp only [hnonempty, hover]
  cases s.nonempty[turn % s.nonempty.length]? with
  | none => rfl
  | some c =>
    simp only [Option.bind_some, htake]
    cases s.takeFrom c <;> rfl

/-! ## How much waits -/

theorem waiting_eq_sum (s : Subscription) :
    s.waiting = (s.inboxes.map fun b => b.pending.length).sum := rfl

theorem waiting_eq_zero_iff {s : Subscription} : s.waiting = 0 ↔ s.nonempty = [] := by
  rw [waiting_eq_sum, nonempty, List.sum_eq_zero_iff_forall_eq_nat, List.map_eq_nil_iff,
    List.filter_eq_nil_iff]
  constructor
  · intro h b hb
    have hlen := h b.pending.length (List.mem_map_of_mem hb)
    simpa using hlen
  · intro h n hn
    obtain ⟨b, hb, rfl⟩ := List.mem_map.1 hn
    simpa using h b hb

/-- A channel has one inbox, and no other has it. -/
theorem split_of_nodup {s : Subscription} (hnodup : (s.inboxes.map (·.channel)).Nodup) {b : Inbox}
    (hb : b ∈ s.inboxes) :
    ∃ l₁ l₂, s.inboxes = l₁ ++ b :: l₂ ∧ (∀ a ∈ l₁, a.channel ≠ b.channel) ∧
      ∀ a ∈ l₂, a.channel ≠ b.channel := by
  obtain ⟨l₁, l₂, hl⟩ := List.append_of_mem hb
  rw [hl, List.map_append, List.map_cons, List.nodup_append, List.nodup_cons] at hnodup
  obtain ⟨-, ⟨h₂, -⟩, h₁⟩ := hnodup
  refine ⟨l₁, l₂, hl, fun a ha => ?_, fun a ha e => ?_⟩
  · exact h₁ a.channel (List.mem_map_of_mem ha) b.channel List.mem_cons_self
  · exact h₂ (e ▸ List.mem_map_of_mem ha)

theorem channel_of_find? {bs : List Inbox} {c : String} {b : Inbox}
    (h : bs.find? (·.channel = c) = some b) : b.channel = c := by
  have hb := List.find?_some h
  exact of_decide_eq_true hb

/-- An inbox is found under its channel. -/
theorem find?_of_nodup {s : Subscription} (hnodup : (s.inboxes.map (·.channel)).Nodup) {b : Inbox}
    (hb : b ∈ s.inboxes) : s.inboxes.find? (·.channel = b.channel) = some b := by
  obtain ⟨l₁, l₂, hl, h₁, -⟩ := split_of_nodup hnodup hb
  have hnone : l₁.find? (·.channel = b.channel) = none :=
    List.find?_eq_none.2 fun a ha => by simpa using h₁ a ha
  rw [hl, List.find?_append, hnone]
  simp

theorem Whole.waiting_taken {s : Subscription} (hs : s.Whole) {c : String} {m : Message}
    {lag : Option Lag} {s' : Subscription} (h : s.takeFrom c = some (m, lag, s')) :
    s'.waiting + 1 = s.waiting := by
  obtain ⟨rfl, b, rest, hb, hp⟩ := takeFrom_eq_some h
  have hc := channel_of_find? hb
  subst hc
  obtain ⟨l₁, l₂, hl, h₁, h₂⟩ :=
    split_of_nodup hs.channels_nodup (List.mem_of_find?_eq_some hb)
  have hsame : ∀ l : List Inbox, (∀ a ∈ l, a.channel ≠ b.channel) →
      l.map (fun a => if a.channel = b.channel then afterTake a else a) = l := by
    intro l hne
    exact map_eq_self fun a ha => if_neg (hne a ha)
  rw [waiting_eq_sum, waiting_eq_sum, taken, hl, List.map_append, List.map_cons, hsame l₁ h₁,
    hsame l₂ h₂, if_pos rfl]
  simp only [List.map_append, List.map_cons, List.sum_append, List.sum_cons, afterTake, hp,
    List.length_cons, List.drop_succ_cons, List.drop_zero]
  omega

/-- While anything waits, there is a message to take. -/
theorem takes_of_nodup {s : Subscription} (hnodup : (s.inboxes.map (·.channel)).Nodup)
    (hw : 0 < s.waiting) (turn : Nat) :
    ∃ c m lag, s.takeFrom c = some (m, lag, s.taken c) ∧
      s.receive turn = (.message m, lag, s.taken c) := by
  rcases s.receive_cases turn with h | ⟨hnone, -⟩
  · exact h
  · exfalso
    have hne : s.nonempty ≠ [] := fun e => by
      have := waiting_eq_zero_iff.2 e
      omega
    have hlt : turn % s.nonempty.length < s.nonempty.length :=
      Nat.mod_lt _ (List.length_pos_iff.2 hne)
    rw [List.getElem?_eq_getElem hlt, Option.bind_some] at hnone
    obtain ⟨b, hb, hbc⟩ := List.mem_map.1 (List.getElem_mem hlt)
    obtain ⟨hb, hpending⟩ := List.mem_filter.1 hb
    rw [← hbc] at hnone
    unfold takeFrom at hnone
    rw [find?_of_nodup hnodup hb] at hnone
    cases hp : b.pending with
    | nil => simp [hp] at hpending
    | cons m rest => simp [hp] at hnone

end Subscription

namespace Hub

variable {h : Hub}

theorem receive_of_none {id : Nat} (hf : h.find? id = none) (turn : Nat) :
    h.receive id turn = (.ended, none, h) := by
  rw [receive, hf]

theorem receive_of_some {id : Nat} {s : Subscription} (hf : h.find? id = some s) (turn : Nat) :
    h.receive id turn = ((s.receive turn).1, (s.receive turn).2.1,
      { h with subscriptions := h.subscriptions.map fun t =>
          if t.id = id then (s.receive turn).2.2 else t }) := by
  rw [receive, hf]

/-- The subscriptions after a take from one of them. -/
theorem find?_receive (id turn j : Nat) :
    (h.receive id turn).2.2.find? j =
      if j = id then (h.find? id).map fun s => (s.receive turn).2.2 else h.find? j := by
  cases hf : h.find? id with
  | none =>
    rw [receive_of_none hf]
    by_cases hj : j = id
    · simp [hj, hf]
    · simp [hj]
  | some s =>
    have hid : (s.receive turn).2.2.id = id := (s.id_receive turn).trans (mem_of_find? hf).2
    -- a take does not move a subscription to another id
    have hsame : ((fun t : Subscription => decide (t.id = j)) ∘
        fun t => if t.id = id then (s.receive turn).2.2 else t) =
        fun t => decide (t.id = j) := by
      funext t
      by_cases ht : t.id = id
      · simp [ht, hid]
      · simp [ht]
    rw [receive_of_some hf, find?, List.find?_map, hsame]
    by_cases hj : j = id
    · subst hj
      have hs : h.subscriptions.find? (·.id = j) = some s := hf
      simp [hs, (mem_of_find? hf).2]
    · cases hfj : h.find? j with
      | none =>
        have hs : h.subscriptions.find? (·.id = j) = none := hfj
        simp [hs, hj]
      | some t =>
        have hs : h.subscriptions.find? (·.id = j) = some t := hfj
        have ht : t.id ≠ id := (mem_of_find? hfj).2 ▸ hj
        simp [hs, hj, ht]

theorem Tidy.ears_receive (ht : h.Tidy) (id turn : Nat) :
    (h.receive id turn).2.2.subscriptions.map (fun s => (s.id, s.ears)) =
      h.subscriptions.map fun s => (s.id, s.ears) := by
  cases hf : h.find? id with
  | none => rw [receive_of_none hf]
  | some s =>
    rw [receive_of_some hf, List.map_map]
    refine List.map_congr_left fun t htm => ?_
    rw [Function.comp]
    by_cases hid : t.id = id
    · -- ids are distinct, so this is the subscription that was found
      have hst := ht.find?_of_mem htm
      rw [hid, hf] at hst
      cases hst
      rw [if_pos hid, s.id_receive, s.ears_receive]
    · rw [if_neg hid]

theorem Tidy.listeners_receive (ht : h.Tidy) (id turn : Nat) (c : String) :
    (h.receive id turn).2.2.listeners c = h.listeners c := by
  refine listeners_congr ?_ c
  have he := congrArg (List.map (·.2)) (ht.ears_receive id turn)
  rwa [List.map_map, List.map_map] at he

theorem receive_counts (id turn : Nat) :
    (h.receive id turn).2.2.counts = h.counts ∧ (h.receive id turn).2.2.nextId = h.nextId ∧
      (h.receive id turn).2.2.capacity = h.capacity := by
  cases hf : h.find? id with
  | none =>
    rw [receive_of_none hf]
    exact ⟨rfl, rfl, rfl⟩
  | some s =>
    rw [receive_of_some hf]
    exact ⟨rfl, rfl, rfl⟩

theorem Tidy.receive (ht : h.Tidy) (id turn : Nat) : (h.receive id turn).2.2.Tidy := by
  obtain ⟨hcounts, hnext, -⟩ := h.receive_counts id turn
  have hears := ht.ears_receive id turn
  have hmem : ∀ s ∈ (h.receive id turn).2.2.subscriptions,
      ∃ s' ∈ h.subscriptions, s'.id = s.id ∧ s'.ears = s.ears := by
    intro s hs
    have hm : (s.id, s.ears) ∈ h.subscriptions.map fun s => (s.id, s.ears) :=
      hears ▸ List.mem_map_of_mem hs
    obtain ⟨s', hs', he⟩ := List.mem_map.1 hm
    exact ⟨s', hs', Prod.mk.inj he⟩
  constructor
  · rw [hcounts]
    exact ht.names_nodup
  · intro c
    rw [ht.listeners_receive, ← ht.count_eq, count_eq_getD, count_eq_getD, hcounts]
  · intro s hs
    obtain ⟨s', hs', -, he⟩ := hmem s hs
    exact (ht.whole s' hs').congr he.symm
  · have hids := congrArg (List.map (·.1)) hears
    rw [List.map_map, List.map_map] at hids
    have hn : (h.subscriptions.map (·.id)).Nodup := ht.ids_nodup
    exact hids ▸ hn
  · intro s hs
    obtain ⟨s', hs', hid, -⟩ := hmem s hs
    rw [hnext, ← hid]
    exact ht.fresh s' hs'

end Hub

end Tenancy
