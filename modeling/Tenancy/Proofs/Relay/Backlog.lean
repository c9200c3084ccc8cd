import Mathlib.Data.List.Perm.Basic
import Tenancy.Proofs.Hub.Delivery

/-!
# The backlog of a caller

Between a publish and the caller of a relay, messages wait in three places: in an inbox, in the hand
of the relay, and in a mailbox. A `Backlog` is what becomes of them where the three are one queue.
The first `ahead` messages of it are safe with the relay. A publish that finds `size` more behind
these pushes out the oldest that is not safe (`enqueue`).

Messages are told apart by their place among those published. `Backlog.Sorted` is the invariant: each
of them was read, waits or is lost, and what was read and what waits is in order. While at most
`ahead + size` messages are outstanding nothing is lost (`Backlog.lost_eq_nil`).
-/

namespace Tenancy

/-! ## The queue -/

section Enqueue

variable {α β : Type} {size ahead : Nat}

/-- One more message in a queue. -/
def enqueue (size ahead : Nat) (waiting : List α) (a : α) : List α :=
  if waiting.length = ahead + size then waiting.eraseIdx ahead ++ [a] else waiting ++ [a]

theorem map_enqueue (f : α → β) (waiting : List α) (a : α) :
    (enqueue size ahead waiting a).map f = enqueue size ahead (waiting.map f) (f a) := by
  unfold enqueue
  rw [List.length_map]
  split
  · rw [List.map_append, List.eraseIdx_map, List.map_singleton]
  · rw [List.map_append, List.map_singleton]

theorem enqueue_of_room {waiting : List α} (h : waiting.length < ahead + size) (a : α) :
    enqueue size ahead waiting a = waiting ++ [a] :=
  if_neg (Nat.ne_of_lt h)

theorem enqueue_of_full {safe rest : List α} {x : α} (hsafe : safe.length = ahead)
    (hrest : rest.length + 1 = size) (a : α) :
    enqueue size ahead (safe ++ x :: rest) a = safe ++ rest ++ [a] := by
  have hfull : (safe ++ x :: rest).length = ahead + size := by
    rw [List.length_append, List.length_cons]
    omega
  have herase : (safe ++ x :: rest).eraseIdx ahead = safe ++ rest := by
    rw [List.eraseIdx_append_of_length_le (Nat.le_of_eq hsafe), hsafe, Nat.sub_self,
      List.eraseIdx_cons_zero]
  rw [enqueue, if_pos hfull, herase]

/-- A queue has room, or a first message that is not safe. -/
theorem room_or_full {waiting : List α} (hsize : 0 < size) (h : waiting.length ≤ ahead + size) :
    waiting.length < ahead + size ∨
      ∃ safe x rest, waiting = safe ++ x :: rest ∧ safe.length = ahead ∧ rest.length + 1 = size := by
  rcases Nat.lt_or_eq_of_le h with hlt | heq
  · exact .inl hlt
  · have hahead : ahead < waiting.length := by omega
    refine .inr ⟨waiting.take ahead, waiting[ahead], waiting.drop (ahead + 1), ?_, ?_, ?_⟩
    · rw [List.getElem_cons_drop, List.take_append_drop]
    · exact List.length_take_of_le (Nat.le_of_lt hahead)
    · rw [List.length_drop]
      omega

end Enqueue

/-! ## Backlogs -/

/-- The messages of a channel, as far as the caller of a relay is concerned. -/
structure Backlog where
  /-- How many were published. -/
  sent : Nat := 0
  read : List Nat := []
  /-- Published, and neither read nor lost. -/
  waiting : List Nat := []
  lost : List Nat := []
  deriving DecidableEq, Repr

namespace Backlog

variable {size ahead : Nat} {b : Backlog}

/-- The message that a publish pushes out. -/
def pushedOut (size ahead : Nat) (b : Backlog) : List Nat :=
  if b.waiting.length = ahead + size then b.waiting[ahead]?.toList else []

def tick (size ahead : Nat) (b : Backlog) : Tick → Backlog
  | .put _ =>
    { b with
      sent := b.sent + 1
      waiting := enqueue size ahead b.waiting b.sent
      lost := b.lost ++ b.pushedOut size ahead }
  | .take => { b with read := b.read ++ b.waiting.take 1, waiting := b.waiting.drop 1 }

def after (size ahead : Nat) (ticks : List Tick) : Backlog := ticks.foldl (tick size ahead) {}

theorem after_concat (ticks : List Tick) (x : Tick) :
    after size ahead (ticks ++ [x]) = (after size ahead ticks).tick size ahead x :=
  List.foldl_concat ..

/-- Nothing is forgotten or doubled, and what the caller gets is in order. -/
structure Sorted (size ahead : Nat) (b : Backlog) : Prop where
  perm : (b.read ++ b.waiting ++ b.lost).Perm (List.range b.sent)
  increasing : (b.read ++ b.waiting).Pairwise (· < ·)
  waiting_le : b.waiting.length ≤ ahead + size

namespace Sorted

theorem lt_sent (h : b.Sorted size ahead) {i : Nat} (hi : i ∈ b.read ++ b.waiting) : i < b.sent :=
  List.mem_range.1 (h.perm.subset (List.mem_append_left _ hi))

theorem sent_eq (h : b.Sorted size ahead) :
    b.sent = b.read.length + b.waiting.length + b.lost.length := by
  have hlength := h.perm.length_eq
  rwa [List.length_append, List.length_append, List.length_range, eq_comm] at hlength

/-- The latest message comes behind those that are kept. -/
theorem increasing_concat (h : b.Sorted size ahead) {kept : List Nat}
    (hkept : kept.Sublist b.waiting) : (b.read ++ (kept ++ [b.sent])).Pairwise (· < ·) := by
  have hsub : (b.read ++ kept).Sublist (b.read ++ b.waiting) := hkept.append_left b.read
  rw [← List.append_assoc, List.pairwise_append]
  refine ⟨h.increasing.sublist hsub, List.pairwise_singleton _ _, fun i hi j hj => ?_⟩
  rw [List.mem_singleton.1 hj]
  exact h.lt_sent (hsub.subset hi)

theorem put (h : b.Sorted size ahead) (hsize : 0 < size) (payload : String) :
    (b.tick size ahead (.put payload)).Sorted size ahead := by
  have hrange : (b.sent :: (b.read ++ b.waiting ++ b.lost)).Perm (List.range (b.sent + 1)) := by
    rw [List.range_succ]
    exact (h.perm.cons _).trans (List.perm_append_singleton _ _).symm
  rcases room_or_full hsize h.waiting_le with hroom | ⟨safe, x, rest, heq, hsafe, hrest⟩
  · have hnone : b.pushedOut size ahead = [] := if_neg (Nat.ne_of_lt hroom)
    refine ⟨?_, ?_, ?_⟩
    · refine List.Perm.trans ?_ hrange
      refine List.perm_iff_count.2 fun i => ?_
      simp only [tick, enqueue_of_room hroom, hnone, List.count_append, List.count_cons,
        List.count_nil]
      omega
    · rw [tick, enqueue_of_room hroom]
      exact h.increasing_concat (List.Sublist.refl _)
    · rw [tick, enqueue_of_room hroom, List.length_append, List.length_singleton]
      omega
  · have hout : b.pushedOut size ahead = [x] := by
      have hlength := congrArg List.length heq
      rw [List.length_append, List.length_cons] at hlength
      rw [pushedOut, if_pos (by omega), heq, List.getElem?_append_right (Nat.le_of_eq hsafe), hsafe,
        Nat.sub_self]
      rfl
    refine ⟨?_, ?_, ?_⟩
    · refine List.Perm.trans ?_ hrange
      refine List.perm_iff_count.2 fun i => ?_
      simp only [tick, heq, enqueue_of_full hsafe hrest, hout, List.count_append, List.count_cons,
        List.count_nil]
      omega
    · rw [tick, heq, enqueue_of_full hsafe hrest]
      refine h.increasing_concat ?_
      rw [heq]
      exact (List.sublist_cons_self x rest).append_left safe
    · rw [tick, heq, enqueue_of_full hsafe hrest, List.length_append, List.length_append,
        List.length_singleton]
      omega

theorem take (h : b.Sorted size ahead) : (b.tick size ahead .take).Sorted size ahead := by
  have hsame : b.read ++ b.waiting.take 1 ++ b.waiting.drop 1 = b.read ++ b.waiting := by
    rw [List.append_assoc, List.take_append_drop]
  refine ⟨?_, ?_, ?_⟩
  · rw [tick, hsame]
    exact h.perm
  · rw [tick, hsame]
    exact h.increasing
  · rw [tick, List.length_drop]
    exact (Nat.sub_le _ _).trans h.waiting_le

end Sorted

theorem sorted_after (hsize : 0 < size) (ticks : List Tick) :
    (after size ahead ticks).Sorted size ahead := by
  induction ticks using List.reverseRecOn with
  | nil => exact ⟨.nil, .nil, Nat.zero_le _⟩
  | append_singleton ticks x ih =>
    rw [after_concat]
    cases x with
    | put payload => exact ih.put hsize payload
    | take => exact ih.take

/-- While no more than `ahead + size` messages are published and not read, none is lost. -/
theorem lost_eq_nil (hsize : 0 < size) {ticks : List Tick}
    (h : ∀ pre, pre <+: ticks →
      (after size ahead pre).sent ≤ (after size ahead pre).read.length + (ahead + size)) :
    (after size ahead ticks).lost = [] := by
  induction ticks using List.reverseRecOn with
  | nil => rfl
  | append_singleton ticks x ih =>
    have hnone := ih fun pre hpre => h pre (hpre.trans (List.prefix_append ticks [x]))
    have hbound := h (ticks ++ [x]) List.prefix_rfl
    have hsorted : (after size ahead ticks).Sorted size ahead := sorted_after hsize ticks
    have hsent := hsorted.sent_eq
    rw [after_concat] at hbound ⊢
    cases x with
    | take => exact hnone
    | put payload =>
      -- a full queue would make one too many with the new message
      have hroom : (after size ahead ticks).waiting.length ≠ ahead + size := by
        rw [hnone, List.length_nil] at hsent
        simp only [tick] at hbound
        omega
      rw [tick, hnone, pushedOut, if_neg hroom]
      rfl

/-! ## The end of a backlog -/

/-- Of the texts that were published, those that are not lost. -/
def kept (b : Backlog) (texts : List String) : List String :=
  (texts.zipIdx.filter (·.2 ∉ b.lost)).map (·.1)

namespace Sorted

/-- Where nothing waits any more, all that is not lost was read. -/
theorem read_eq (h : b.Sorted size ahead) (hnone : b.waiting = []) :
    b.read = (List.range b.sent).filter (· ∉ b.lost) := by
  obtain ⟨hperm, hincreasing, -⟩ := h
  rw [hnone, List.append_nil] at hperm hincreasing
  have hapart := (List.nodup_append.1 (hperm.nodup_iff.2 List.nodup_range)).2.2
  have hread : (b.read ++ b.lost).filter (· ∉ b.lost) = b.read := by
    have hsome : b.read.filter (· ∉ b.lost) = b.read :=
      List.filter_eq_self.2 fun i hi => decide_eq_true fun hlost => hapart i hi i hlost rfl
    have hlost : b.lost.filter (· ∉ b.lost) = [] :=
      List.filter_eq_nil_iff.2 fun i hi => by simpa using hi
    rw [List.filter_append, hsome, hlost, List.append_nil]
  have hfiltered := hperm.filter (· ∉ b.lost)
  rw [hread] at hfiltered
  exact hfiltered.eq_of_pairwise (fun i j _ _ hij hji => absurd hij (Nat.lt_asymm hji)) hincreasing
    (List.pairwise_lt_range.filter _)

/-- Where nothing waits any more, the texts that are kept were read, in the order of the publishes. -/
theorem map_read (h : b.Sorted size ahead) (hnone : b.waiting = []) {texts : List String}
    (hsent : texts.length = b.sent) : b.read.map (texts[·]?) = (b.kept texts).map some := by
  have hrange : List.range b.sent = texts.zipIdx.map (·.2) := by
    rw [List.zipIdx_map_snd, hsent, List.range_eq_range']
  rw [h.read_eq hnone, hrange, List.filter_map, kept, List.map_map, List.map_map]
  refine List.map_congr_left fun q hq => ?_
  exact List.mem_zipIdx_iff_getElem?.1 (List.mem_filter.1 hq).1

end Sorted

theorem sent_foldl (ticks : List Tick) (b : Backlog) :
    (ticks.foldl (tick size ahead) b).sent = b.sent + (Tick.payloads ticks).length := by
  induction ticks generalizing b with
  | nil => rfl
  | cons x ticks ih =>
    rw [List.foldl_cons, ih]
    cases x with
    | put text => exact (Nat.add_assoc _ 1 _).trans (congrArg _ (Nat.add_comm 1 _))
    | take => rfl

/-- Nothing is lost of a backlog that is only read. -/
theorem lost_foldl {ticks : List Tick} (h : ∀ x ∈ ticks, x = .take) (b : Backlog) :
    (ticks.foldl (tick size ahead) b).lost = b.lost := by
  induction ticks generalizing b with
  | nil => rfl
  | cons x ticks ih =>
    obtain ⟨rfl, hticks⟩ := List.forall_mem_cons.1 h
    exact ih hticks (b.tick size ahead .take)

end Backlog

end Tenancy
