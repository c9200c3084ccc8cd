import Mathlib.Data.List.DropRight
import Tenancy.Proofs.Hub.Receive

/-!
# What waits on a channel

`Subscription.held` is what a subscription can still take from one of its channels. A publish adds
to it the message, and keeps the latest ones that fit; a take removes the first. `Hub.Stocked` is
the invariant behind both: no inbox is overfull, and each holds messages of its own channel only.
-/

namespace Tenancy

namespace Inbox

structure Stocked (size : Nat) (b : Inbox) : Prop where
  bounded : b.pending.length ≤ size
  labelled : ∀ m ∈ b.pending, m.channel = b.channel

theorem stocked_empty (size : Nat) (c : String) : ({ channel := c } : Inbox).Stocked size where
  bounded := Nat.zero_le size
  labelled _ hm := by cases hm

variable {size : Nat} {b : Inbox}

/-- The latest messages are kept. -/
theorem Stocked.pending_push (hb : b.Stocked size) (m : Message) :
    (b.push size m).pending = (b.pending ++ [m]).rtake size := by
  have hlen := hb.bounded
  unfold push List.rtake
  rw [List.length_append, List.length_singleton]
  split
  · rename_i hroom
    have hzero : b.pending.length + 1 - size = 0 := by omega
    rw [hzero, List.drop_zero]
  · rename_i hfull
    have hone : b.pending.length + 1 - size = 1 := by omega
    rw [hone]

theorem Stocked.push (hb : b.Stocked size) {m : Message} (hm : m.channel = b.channel) :
    (b.push size m).Stocked size where
  bounded := by
    rw [hb.pending_push, List.rtake, List.length_drop]
    omega
  labelled m' hm' := by
    rw [(Hub.push_linked_channel size m b).2]
    rw [hb.pending_push] at hm'
    rcases List.mem_append.1 (List.mem_of_mem_drop hm') with hold | hnew
    · exact hb.labelled m' hold
    · exact List.mem_singleton.1 hnew ▸ hm

theorem Stocked.afterTake (hb : b.Stocked size) : (Subscription.afterTake b).Stocked size where
  bounded := by
    have hlen := hb.bounded
    simp only [Subscription.afterTake, List.length_drop]
    omega
  labelled m hm := hb.labelled m (List.mem_of_mem_drop hm)

end Inbox

namespace Subscription

def channels (s : Subscription) : List String := s.inboxes.map (·.channel)

/-- The messages of a channel that wait to be taken. -/
def held (s : Subscription) (c : String) : List Message :=
  ((s.inboxes.find? (·.channel = c)).map (·.pending)).getD []

theorem held_of_find? {s : Subscription} {c : String} {b : Inbox}
    (h : s.inboxes.find? (·.channel = c) = some b) : s.held c = b.pending := by
  rw [held, h]
  rfl

theorem channels_eq_map_ears (s : Subscription) : s.channels = s.ears.map (·.2) := by
  rw [ears, List.map_map]
  rfl

theorem channels_congr {s t : Subscription} (h : t.ears = s.ears) : t.channels = s.channels := by
  rw [channels_eq_map_ears, h, ← channels_eq_map_ears]

theorem held_eq_nil {s : Subscription} {c : String} (hc : c ∉ s.channels) : s.held c = [] := by
  have hnone : s.inboxes.find? (·.channel = c) = none :=
    List.find?_eq_none.2 fun b hb hbc => hc (of_decide_eq_true hbc ▸ List.mem_map_of_mem hb)
  rw [held, hnone]
  rfl

/-- A change of inboxes that leaves their channels alone changes what they hold one by one. -/
theorem find?_map_inboxes {f : Inbox → Inbox} (hf : ∀ b, (f b).channel = b.channel)
    (bs : List Inbox) (c : String) :
    (bs.map f).find? (·.channel = c) = (bs.find? (·.channel = c)).map f := by
  have hsame : (fun b : Inbox => decide (b.channel = c)) ∘ f = fun b => decide (b.channel = c) :=
    funext fun b => by rw [Function.comp, hf]
  rw [List.find?_map, hsame]

theorem held_taken (s : Subscription) (c d : String) :
    (s.taken c).held d = if d = c then (s.held d).drop 1 else s.held d := by
  have hchannel : ∀ b : Inbox,
      (if b.channel = c then afterTake b else b).channel = b.channel := by
    intro b
    split <;> rfl
  unfold held taken
  rw [find?_map_inboxes hchannel]
  cases hb : s.inboxes.find? (·.channel = d) with
  | none => simp
  | some b =>
    have hbd := channel_of_find? hb
    by_cases hd : d = c
    · simp [hbd, hd, afterTake]
    · simp [hbd, hd]

/-- Either the first message that waits on a channel is taken, or nothing changes. -/
theorem receive_eq (s : Subscription) (turn : Nat) :
    (∃ c m lag rest, s.held c = m :: rest ∧ c ∈ s.channels ∧
      s.receive turn = (.message m, lag, s.taken c)) ∨
    ∃ d, (∀ m, d ≠ Delivery.message m) ∧ s.receive turn = (d, none, s) := by
  rcases s.receive_cases turn with ⟨c, m, lag, htake, hr⟩ | ⟨-, hr⟩
  · obtain ⟨-, b, rest, hb, hp⟩ := takeFrom_eq_some htake
    have hbc := channel_of_find? hb
    have hmem := List.mem_of_find?_eq_some hb
    exact .inl ⟨c, m, lag, rest, (held_of_find? hb).trans hp, hbc ▸ List.mem_map_of_mem hmem, hr⟩
  · refine .inr ⟨_, fun m hm => ?_, hr⟩
    split at hm <;> cases hm

/-- The first message that waits on a channel can be taken. -/
theorem exists_turn {s : Subscription} {c : String} {m : Message} {rest : List Message}
    (h : s.held c = m :: rest) : ∃ turn, (s.receive turn).1 = .message m := by
  unfold held at h
  cases hb : s.inboxes.find? (·.channel = c) with
  | none => simp [hb] at h
  | some b =>
    have hp : b.pending = m :: rest := by simpa [hb] using h
    have hc : c ∈ s.nonempty := by
      refine List.mem_map.2 ⟨b, List.mem_filter.2 ⟨List.mem_of_find?_eq_some hb, ?_⟩, ?_⟩
      · simp [hp]
      · exact channel_of_find? hb
    obtain ⟨i, hi, hic⟩ := List.mem_iff_getElem.1 hc
    refine ⟨i, ?_⟩
    unfold receive
    simp only [Nat.mod_eq_of_lt hi, List.getElem?_eq_getElem hi, hic, Option.bind_some, takeFrom, hb,
      hp, List.head?_cons, Option.bind_eq_bind]

theorem Whole.listens_eq {s : Subscription} (hs : s.Whole) (c : String) :
    s.listens c = if c ∈ s.channels then 1 else 0 := by
  have hcount : s.listens c = s.channels.count c := by
    rw [channels, List.count_eq_countP, List.countP_map]
    refine List.countP_congr fun b hb => ?_
    rw [hs.linked b hb]
    simp
  have hnodup : s.channels.Nodup := hs.channels_nodup
  rw [hcount, hnodup.count]

end Subscription

namespace Hub

/-- The number of listeners is the number of subscriptions to the channel. -/
theorem Tidy.listeners_eq_countP {h : Hub} (ht : h.Tidy) (c : String) :
    h.listeners c = h.subscriptions.countP fun s => c ∈ s.channels := by
  have hall : ∀ ss : List Subscription, (∀ s ∈ ss, s.Whole) →
      (ss.map (·.listens c)).sum = ss.countP fun s => c ∈ s.channels := by
    intro ss hss
    induction ss with
    | nil => rfl
    | cons s ss ih =>
      rw [List.map_cons, List.sum_cons, ih fun s hs => hss s (List.mem_cons_of_mem _ hs),
        (hss s List.mem_cons_self).listens_eq, List.countP_cons]
      simp only [decide_eq_true_eq]
      omega
  exact (h.listeners_eq_sum c).trans (hall h.subscriptions ht.whole)

/-- A tidy hub whose inboxes are within bounds and hold messages of their own channels. -/
structure Stocked (h : Hub) : Prop where
  tidy : h.Tidy
  inboxes : ∀ s ∈ h.subscriptions, ∀ b ∈ s.inboxes, b.Stocked h.bufferSize

variable {h : Hub}

theorem stocked_empty (capacity nextId : Nat) : ({ capacity, nextId } : Hub).Stocked where
  tidy := tidy_empty capacity nextId
  inboxes _ hs := by cases hs

theorem stocked_start (capacity : Nat) : ({ capacity } : Hub).Stocked := stocked_empty capacity 0

namespace Stocked

theorem channel_of_held (hh : h.Stocked) {s : Subscription} (hs : s ∈ h.subscriptions) {c : String}
    {m : Message} (hm : m ∈ s.held c) : m.channel = c := by
  unfold Subscription.held at hm
  cases hb : s.inboxes.find? (·.channel = c) with
  | none => simp [hb] at hm
  | some b =>
    rw [hb] at hm
    have hlabel := (hh.inboxes s hs b (List.mem_of_find?_eq_some hb)).labelled m hm
    exact hlabel.trans (Subscription.channel_of_find? hb)

theorem held_heard (hh : h.Stocked) {s : Subscription} (hs : s ∈ h.subscriptions)
    (c payload d : String) :
    (h.heard c payload s).held d =
      if d = c ∧ d ∈ s.channels then (s.held d ++ [(⟨c, payload⟩ : Message)]).rtake h.bufferSize
      else s.held d := by
  have hchannel : ∀ b : Inbox, (if b.linked && b.channel = c then
      b.push h.bufferSize ⟨c, payload⟩ else b).channel = b.channel := by
    intro b
    split
    · exact (push_linked_channel ..).2
    · rfl
  by_cases hd : d ∈ s.channels
  · obtain ⟨b, hb, rfl⟩ := List.mem_map.1 hd
    have hwhole := hh.tidy.whole s hs
    have hfind := Subscription.find?_of_nodup hwhole.channels_nodup hb
    unfold Subscription.held heard
    rw [Subscription.find?_map_inboxes hchannel, hfind]
    simp only [Option.map_some, Option.getD_some, hwhole.linked b hb, Bool.true_and,
      decide_eq_true_eq]
    by_cases hbc : b.channel = c
    · rw [if_pos hbc, if_pos ⟨hbc, hd⟩, (hh.inboxes s hs b hb).pending_push]
    · rw [if_neg hbc, if_neg fun hand => hbc hand.1]
  · rw [if_neg fun hand => hd hand.2, Subscription.held_eq_nil hd,
      Subscription.held_eq_nil (Subscription.channels_congr (h.ears_heard c payload s) ▸ hd)]

/-- A publish gives the number of subscriptions to its channel. The message waits for each of them
then, behind the latest of the others; nothing else changes. -/
theorem publish_reaches (hh : h.Stocked) (c payload : String) :
    (h.publish c payload).1 = (h.subscriptions.countP fun s => c ∈ s.channels) ∧
      ∀ s ∈ h.subscriptions, ∃ s', (h.publish c payload).2.find? s.id = some s' ∧
        ∀ d, s'.held d =
          if d = c ∧ d ∈ s.channels then (s.held d ++ [(⟨c, payload⟩ : Message)]).rtake h.bufferSize
          else s.held d := by
  refine ⟨hh.tidy.listeners_eq_countP c, fun s hs => ⟨h.heard c payload s, ?_, ?_⟩⟩
  · rw [find?_publish, hh.tidy.find?_of_mem hs]
    rfl
  · exact hh.held_heard hs c payload

/-! ## Steps -/

theorem subscribe (hh : h.Stocked) (channels : List String) :
    (h.subscribe channels).2.Stocked where
  tidy := hh.tidy.subscribe channels
  inboxes s hs b hb := by
    rcases List.mem_append.1 hs with hold | hnew
    · exact hh.inboxes s hold b hb
    · obtain ⟨c, -, rfl⟩ := List.mem_map.1 (List.mem_singleton.1 hnew ▸ hb)
      exact Inbox.stocked_empty h.bufferSize c

theorem publish (hh : h.Stocked) (channel payload : String) :
    (h.publish channel payload).2.Stocked where
  tidy := hh.tidy.publish channel payload
  inboxes s hs b hb := by
    obtain ⟨s', hs', rfl⟩ := List.mem_map.1 hs
    obtain ⟨b', hb', rfl⟩ := List.mem_map.1 hb
    have hstocked := hh.inboxes s' hs' b' hb'
    split
    · rename_i hlisten
      have hchannel : b'.channel = channel := by simpa using (Bool.and_eq_true_iff.1 hlisten).2
      exact hstocked.push hchannel.symm
    · exact hstocked

theorem receive (hh : h.Stocked) (id turn : Nat) : (h.receive id turn).2.2.Stocked where
  tidy := hh.tidy.receive id turn
  inboxes s hs b hb := by
    have hsize : (h.receive id turn).2.2.bufferSize = h.bufferSize := by
      unfold bufferSize
      rw [(h.receive_counts id turn).2.2]
    rw [hsize]
    cases hf : h.find? id with
    | none =>
      rw [receive_of_none hf] at hs
      exact hh.inboxes s hs b hb
    | some t =>
      rw [receive_of_some hf] at hs
      obtain ⟨s', hs', rfl⟩ := List.mem_map.1 hs
      split at hb
      · have ht := hh.inboxes t (mem_of_find? hf).1
        rcases t.receive_eq turn with ⟨c, m, lag, rest, -, -, hr⟩ | ⟨d, -, hr⟩
        · rw [hr] at hb
          obtain ⟨b', hb', rfl⟩ := List.mem_map.1 hb
          split
          · exact (ht b' hb').afterTake
          · exact ht b' hb'
        · rw [hr] at hb
          exact ht b hb
      · exact hh.inboxes s' hs' b hb

theorem unsubscribe (hh : h.Stocked) (id : Nat) : (h.unsubscribe id).Stocked where
  tidy := hh.tidy.unsubscribe id
  inboxes s hs b hb := by
    obtain ⟨⟨counts, heq⟩, -⟩ := hh.tidy.unsubscribe_eq id
    rw [heq] at hs ⊢
    exact hh.inboxes s (List.mem_filter.1 hs).1 b hb

end Stocked

end Hub

end Tenancy
