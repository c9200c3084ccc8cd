import Mathlib.Data.Finset.Card
import Mathlib.Data.String.Basic
import Tenancy.Gateway.Request
import Tenancy.Proofs.Hub.Count

/-!
# Distinct names

Three ways to drop the names that come again: keeping the first of each (`distinct`), in the names
that are asked for and in those that are subscribed to, and putting them in order, where a name that
comes again is next to itself (`sortedNames`). All of them leave as many names as there are
(`length_distinct`, `length_sortedNames`), so a short list cannot have too many
(`hasMoreThan_iff`).
-/

namespace Tenancy

/-! ## The first of each -/

theorem length_distinct (names : List String) : (distinct names).length = names.toFinset.card := by
  have hset : names.toFinset = (distinct names).toFinset := by
    ext c
    rw [List.mem_toFinset, List.mem_toFinset, mem_distinct]
  rw [hset, List.toFinset_card_of_nodup (nodup_distinct names)]

/-- Names are kept in the order in which they come first. -/
theorem pairwise_idxOf_distinct (names : List String) :
    (distinct names).Pairwise fun a b => names.idxOf a < names.idxOf b := by
  induction names with
  | nil => exact .nil
  | cons c names ih =>
    rw [distinct, List.pairwise_cons]
    refine ⟨fun d hd => ?_, ?_⟩
    · have hne : d ≠ c := of_decide_eq_true (List.mem_filter.1 hd).2
      rw [List.idxOf_cons_self, List.idxOf_cons_ne names hne.symm]
      exact Nat.succ_pos _
    · refine (ih.filter _).imp_of_mem fun {a b} ha hb hlt => ?_
      have hac : a ≠ c := of_decide_eq_true (List.mem_filter.1 ha).2
      have hbc : b ≠ c := of_decide_eq_true (List.mem_filter.1 hb).2
      rw [List.idxOf_cons_ne names hac.symm, List.idxOf_cons_ne names hbc.symm]
      exact Nat.succ_lt_succ hlt

/-! ## In order -/

/-- What is kept does not depend on what was kept before. -/
theorem eraseRepsBy_loop_eq (r : String → String → Bool) (a : String) (l kept : List String) :
    List.eraseRepsBy.loop r a l kept = kept.reverse ++ List.eraseRepsBy.loop r a l [] := by
  induction l generalizing a kept with
  | nil => simp [List.eraseRepsBy.loop]
  | cons b l ih =>
    simp only [List.eraseRepsBy.loop]
    cases r a b with
    | true => exact ih a kept
    | false =>
      simp only
      rw [ih b (a :: kept), ih b [a]]
      simp

theorem eraseReps_cons_cons (a b : String) (l : List String) :
    (a :: b :: l).eraseReps = if a = b then (b :: l).eraseReps else a :: (b :: l).eraseReps := by
  unfold List.eraseReps List.eraseRepsBy
  simp only [List.eraseRepsBy.loop]
  by_cases hab : a = b
  · simp [hab]
  · simp only [hab, beq_eq_false_iff_ne.2 hab, if_false]
    exact eraseRepsBy_loop_eq _ b l [a]

/-- In a list in order, a name that comes again is next to itself. -/
theorem length_eraseReps {l : List String} (h : l.Pairwise (· ≤ ·)) :
    l.eraseReps.length = l.toFinset.card := by
  induction l with
  | nil => rfl
  | cons a l ih =>
    obtain ⟨ha, hl⟩ := List.pairwise_cons.1 h
    cases l with
    | nil => rfl
    | cons b l =>
      rw [eraseReps_cons_cons, List.toFinset_cons]
      by_cases hab : a = b
      · rw [if_pos hab, hab, Finset.insert_eq_of_mem (by simp)]
        exact ih hl
      · have hnot : a ∉ (b :: l).toFinset := by
          intro hmem
          have hba : b ≤ a := by
            rcases List.mem_cons.1 (List.mem_toFinset.1 hmem) with e | hm
            · exact absurd e hab
            · exact (List.pairwise_cons.1 hl).1 a hm
          exact hab (le_antisymm (ha b List.mem_cons_self) hba)
        rw [if_neg hab, List.length_cons, ih hl, Finset.card_insert_of_notMem hnot]

theorem length_sortedNames (names : List String) :
    (sortedNames names).length = names.toFinset.card := by
  have htrans (a b c : String) : decide (a ≤ b) = true → decide (b ≤ c) = true →
      decide (a ≤ c) = true := by
    simpa only [decide_eq_true_eq] using le_trans
  have htotal (a b : String) : (decide (a ≤ b) || decide (b ≤ a)) = true := by
    simpa using le_total a b
  have hsorted := List.pairwise_mergeSort htrans htotal names
  simp only [decide_eq_true_eq] at hsorted
  rw [sortedNames, length_eraseReps hsorted,
    List.toFinset_eq_of_perm _ _ (List.mergeSort_perm names _)]

theorem hasMoreThan_iff {limit : Nat} {names : List String} :
    hasMoreThan limit names = true ↔ limit < names.toFinset.card := by
  have hle := names.toFinset_card_le
  rw [hasMoreThan, length_sortedNames, Bool.and_eq_true, decide_eq_true_iff, decide_eq_true_iff]
  omega

end Tenancy
