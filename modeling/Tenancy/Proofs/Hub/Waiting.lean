import Tenancy.Proofs.Hub.Frozen
import Tenancy.Proofs.Hub.Held
import Tenancy.Proofs.Relay.Backlog

/-!
# What waits of what was published

A subscription holds, of each channel, the texts that a backlog says wait (`Subscription.Holds`). A
publish adds to them and may push out the oldest, a take removes the first, and closing the hub
changes nothing. Of a subscription that is cut off there is a message to take, or it has ended
(`Subscription.receive_unlinked`).
-/

namespace Tenancy

theorem Hub.bufferSize_pos (h : Hub) : 0 < h.bufferSize :=
  Nat.pos_of_isPowerOfTwo (Nat.isPowerOfTwo_nextPowerOfTwo _)

/-- A message that finds the inbox full pushes out the oldest. -/
theorem Inbox.pending_push {size : Nat} {b : Inbox} (hsize : 0 < size)
    (hle : b.pending.length ≤ size) (m : Message) :
    (b.push size m).pending = enqueue size 0 b.pending m := by
  unfold Inbox.push enqueue
  rw [Nat.zero_add]
  by_cases hroom : b.pending.length < size
  · rw [if_pos hroom, if_neg (Nat.ne_of_lt hroom)]
  · obtain ⟨oldest, rest, hpending⟩ := List.exists_cons_of_length_pos (l := b.pending) (by omega)
    rw [if_neg hroom, if_pos (by omega), hpending]
    rfl

namespace Subscription

variable {s : Subscription} {c d : String}

theorem held_opened (id : Nat) (channels : List String) (c : String) :
    (Hub.opened id channels).held c = [] := by
  unfold held
  cases hb : (Hub.opened id channels).inboxes.find? (·.channel = c) with
  | none => rfl
  | some b =>
    obtain ⟨d, -, rfl⟩ := List.mem_map.1 (List.mem_of_find?_eq_some hb)
    rfl

theorem held_cutOff (s : Subscription) (c : String) : (Hub.cutOff s).held c = s.held c := by
  unfold held Hub.cutOff
  rw [find?_map_inboxes (f := fun b => { b with linked := false }) fun _ => rfl, Option.map_map]
  rfl

/-! ## Publishing -/

theorem held_heard (h : Hub) (text : String) (s : Subscription) (c d : String) :
    (h.heard c text s).held d =
      ((s.inboxes.find? (·.channel = d)).map fun b =>
        (if b.linked && b.channel = c then b.push h.bufferSize ⟨c, text⟩ else b).pending).getD [] := by
  have hchannel : ∀ b : Inbox, (if b.linked && b.channel = c then
      b.push h.bufferSize ⟨c, text⟩ else b).channel = b.channel := by
    intro b
    split
    · exact (Hub.push_linked_channel ..).2
    · rfl
  unfold held Hub.heard
  rw [find?_map_inboxes hchannel, Option.map_map]
  rfl

theorem held_heard_other (h : Hub) (text : String) (hne : d ≠ c) :
    (h.heard c text s).held d = s.held d := by
  rw [held_heard, held]
  cases hb : s.inboxes.find? (·.channel = d) with
  | none => rfl
  | some b =>
    have hother : ¬ (b.linked && b.channel = c) = true := by
      rw [channel_of_find? hb, decide_eq_false hne, Bool.and_false]
      exact Bool.noConfusion
    rw [Option.map_some, if_neg hother]
    rfl

theorem held_heard_own {h : Hub} (hs : s.Whole) (hc : c ∈ s.channels)
    (hle : (s.held c).length ≤ h.bufferSize) (text : String) :
    (h.heard c text s).held c = enqueue h.bufferSize 0 (s.held c) ⟨c, text⟩ := by
  obtain ⟨b, hb, rfl⟩ := List.mem_map.1 hc
  have hfind := find?_of_nodup hs.channels_nodup hb
  have hlistens : (b.linked && b.channel = b.channel) = true := by
    rw [hs.linked b hb, decide_eq_true rfl, Bool.and_true]
  rw [held_of_find? hfind] at hle
  rw [held_heard, held_of_find? hfind, hfind, Option.map_some, if_pos hlistens]
  exact Inbox.pending_push h.bufferSize_pos hle _

/-! ## Taking -/

/-- A message of one of the channels is taken, or there is none. -/
theorem receive_offers (s : Subscription) (turn : Nat) :
    (∃ c m lag rest, s.held c = m :: rest ∧ c ∈ s.channels ∧
      s.receive turn = (.message m, lag, s.taken c)) ∨
    s.receive turn = (if s.isOver then .ended else .nothing, none, s) := by
  rcases s.receive_eq turn with htaken | ⟨d, hd, hr⟩
  · exact .inl htaken
  · rcases s.receive_cases turn with ⟨c, m, lag, -, hr'⟩ | ⟨-, hr'⟩
    · exact absurd (Prod.mk.inj (hr.symm.trans hr')).1 (hd m)
    · exact .inr hr'

theorem isOver_iff : s.isOver = true ↔ ∀ b ∈ s.inboxes, b.linked = false ∧ b.pending = [] := by
  simp [isOver]

theorem held_of_empty (h : ∀ b ∈ s.inboxes, b.pending = []) (c : String) : s.held c = [] := by
  unfold held
  cases hb : s.inboxes.find? (·.channel = c) with
  | none => rfl
  | some b => exact h b (List.mem_of_find?_eq_some hb)

theorem held_of_isOver (h : s.isOver = true) (c : String) : s.held c = [] :=
  held_of_empty (fun b hb => (isOver_iff.1 h b hb).2) c

theorem pending_of_waiting (h : s.waiting = 0) : ∀ b ∈ s.inboxes, b.pending = [] := by
  have hempty := waiting_eq_zero_iff.1 h
  rw [nonempty, List.map_eq_nil_iff, List.filter_eq_nil_iff] at hempty
  exact fun b hb => by simpa using hempty b hb

/-- A message that can be taken is among those that wait. -/
theorem waiting_pos {m : Message} {rest : List Message} (h : s.held c = m :: rest) :
    0 < s.waiting := by
  refine Nat.pos_of_ne_zero fun hzero => ?_
  cases h.symm.trans (held_of_empty (pending_of_waiting hzero) c)

/-- Nothing waits that could not be taken, so a subscription that is cut off ends when nothing is
left. -/
theorem receive_unlinked (hnodup : s.channels.Nodup) (hcut : ∀ b ∈ s.inboxes, b.linked = false)
    (turn : Nat) :
    (∃ c m lag rest, s.held c = m :: rest ∧ c ∈ s.channels ∧
      s.receive turn = (.message m, lag, s.taken c)) ∨
    s.isOver = true ∧ s.receive turn = (.ended, none, s) := by
  rcases s.receive_offers turn with htaken | hr
  · exact .inl htaken
  · refine .inr ?_
    have hzero : s.waiting = 0 := by
      rcases Nat.eq_zero_or_pos s.waiting with hzero | hpos
      · exact hzero
      · obtain ⟨c, m, lag, -, hr'⟩ := takes_of_nodup hnodup hpos turn
        rw [hr'] at hr
        split at hr <;> cases hr
    have hover : s.isOver = true :=
      isOver_iff.2 fun b hb => ⟨hcut b hb, pending_of_waiting hzero b hb⟩
    rw [hover] at hr
    exact ⟨hover, hr⟩

/-! ## Backlogs -/

/-- Of the texts that were published on a channel, the subscription holds those that wait. -/
def Holds (s : Subscription) (c : String) (texts : List String) (waiting : List Nat) : Prop :=
  (s.held c).map some = waiting.map fun i => texts[i]?.map (Message.mk c)

namespace Holds

variable {texts : List String} {waiting : List Nat}

theorem length_eq (h : s.Holds c texts waiting) : (s.held c).length = waiting.length := by
  have hlength := congrArg List.length h
  rwa [List.length_map, List.length_map] at hlength

theorem congr {s' : Subscription} (h : s.Holds c texts waiting) (hheld : s'.held c = s.held c) :
    s'.Holds c texts waiting := by
  rw [Holds, hheld]
  exact h

theorem opened (id : Nat) (channels : List String) (c : String) (texts : List String) :
    (Hub.opened id channels).Holds c texts [] := by
  rw [Holds, held_opened]
  rfl

theorem heard {hub : Hub} (h : s.Holds c texts waiting) (hs : s.Whole) (hc : c ∈ s.channels)
    (hle : waiting.length ≤ hub.bufferSize) {i : Nat} {text : String} (hi : texts[i]? = some text) :
    (hub.heard c text s).Holds c texts (enqueue hub.bufferSize 0 waiting i) := by
  have hnew : some (Message.mk c text) = texts[i]?.map (Message.mk c) := by
    rw [hi]
    rfl
  rw [Holds, held_heard_own hs hc (h.length_eq.trans_le hle), map_enqueue, map_enqueue, hnew]
  congr 1

/-- What is taken is the first that waits. -/
theorem first (h : s.Holds c texts waiting) {m : Message} {rest : List Message}
    (hm : s.held c = m :: rest) :
    ∃ i is text, waiting = i :: is ∧ texts[i]? = some text ∧ m = ⟨c, text⟩ := by
  rw [Holds, hm] at h
  cases waiting with
  | nil => cases h
  | cons i is =>
    obtain ⟨hfirst, -⟩ := List.cons.inj h
    obtain ⟨text, htext, rfl⟩ := Option.map_eq_some_iff.1 hfirst.symm
    exact ⟨i, is, text, rfl, htext, rfl⟩

theorem taken (h : s.Holds d texts waiting) (c : String) :
    (s.taken c).Holds d texts (if d = c then waiting.drop 1 else waiting) := by
  rw [Holds, held_taken]
  split
  · rw [List.map_drop, List.map_drop, h]
  · exact h

theorem eq_nil (h : s.Holds c texts waiting) (hnil : s.held c = []) : waiting = [] := by
  have hlength := h.length_eq
  rw [hnil] at hlength
  exact List.length_eq_zero_iff.1 hlength.symm

end Holds

end Subscription

end Tenancy
