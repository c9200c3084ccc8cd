import Mathlib.Algebra.Group.Nat.Defs
import Tenancy.Text.Blank
import Tenancy.Text.Digits

/-!
# Runs of digits

A number is a run of digits, with or without zeros in front, and what it is read as: the digits of
`decimal` and `padded` have the value that they were written for, every run is its value with zeros in
front (`padded_value`), a run is worth less than the power of ten that it is long, and what follows a
run is found where the digits end.
-/

namespace Tenancy.Text

/-- A run of digits. -/
def IsRun (ds : List Char) : Prop := ds ≠ [] ∧ ∀ c ∈ ds, c.isDigit = true

theorem isDigit_iff {c : Char} : c.isDigit = true ↔ 48 ≤ c.toNat ∧ c.toNat ≤ 57 := by
  simp only [Char.isDigit, Bool.and_eq_true, decide_eq_true_eq, ge_iff_le, UInt32.le_iff_toNat_le]
  exact Iff.rfl

theorem isRun_decimal (n : Nat) : IsRun (decimal n) :=
  ⟨Nat.toDigits_ne_nil, fun _ hc => Nat.isDigit_of_mem_toDigits (by decide) (by decide) hc⟩

theorem isRun_padded (width n : Nat) : IsRun (padded width n) := by
  refine ⟨fun h => (isRun_decimal n).1 (List.append_eq_nil_iff.1 h).2, fun c hc => ?_⟩
  rcases List.mem_append.1 hc with hz | hd
  · rw [List.eq_of_mem_replicate hz]
    rfl
  · exact (isRun_decimal n).2 c hd

theorem value_decimal (n : Nat) : Nat.ofDigitChars 10 (decimal n) 0 = n :=
  Nat.ofDigitChars_ten_toDigits

/-- Zeros in front do not count. -/
theorem value_padded (width n : Nat) : Nat.ofDigitChars 10 (padded width n) 0 = n := by
  rw [padded, Nat.ofDigitChars_append, Nat.ofDigitChars_replicate_zero, Nat.mul_zero, value_decimal]

theorem length_padded {width n : Nat} (hw : 0 < width) (hn : n < 10 ^ width) :
    (padded width n).length = width := by
  have hle : (decimal n).length ≤ width :=
    (Nat.length_toDigits_le_iff (by decide) hw).2 hn
  rw [padded, List.length_append, List.length_replicate]
  omega

theorem value_lt {ds : List Char} (h : ∀ c ∈ ds, c.isDigit = true) (init : Nat) :
    Nat.ofDigitChars 10 ds init < (init + 1) * 10 ^ ds.length := by
  induction ds generalizing init with
  | nil => simp
  | cons c ds ih =>
    have hc := isDigit_iff.1 (h c List.mem_cons_self)
    have hzero : '0'.toNat = 48 := rfl
    have hrest := ih (fun d hd => h d (List.mem_cons_of_mem c hd)) (10 * init + (c.toNat - 48))
    rw [Nat.ofDigitChars_cons, hzero, List.length_cons, Nat.pow_succ]
    refine Nat.lt_of_lt_of_le hrest ?_
    rw [Nat.mul_comm (10 ^ ds.length) 10, ← Nat.mul_assoc]
    exact Nat.mul_le_mul_right _ (by omega)

/-- Runs of one length that have one value are the same. -/
theorem value_inj {ds es : List Char} (hlength : ds.length = es.length)
    (hds : ∀ c ∈ ds, c.isDigit = true) (hes : ∀ c ∈ es, c.isDigit = true) {i j : Nat}
    (h : Nat.ofDigitChars 10 ds i = Nat.ofDigitChars 10 es j) : i = j ∧ ds = es := by
  induction ds generalizing es i j with
  | nil =>
    cases List.length_eq_zero_iff.1 hlength.symm
    rw [Nat.ofDigitChars_nil, Nat.ofDigitChars_nil] at h
    exact ⟨h, rfl⟩
  | cons c ds ih =>
    obtain ⟨e, es, rfl⟩ := List.exists_cons_of_length_eq_add_one hlength.symm
    have hzero : '0'.toNat = 48 := rfl
    have hc := isDigit_iff.1 (hds c List.mem_cons_self)
    have he := isDigit_iff.1 (hes e List.mem_cons_self)
    rw [Nat.ofDigitChars_cons, Nat.ofDigitChars_cons, hzero] at h
    obtain ⟨hinit, rfl⟩ := ih (Nat.succ.inj hlength) (fun d hd => hds d (List.mem_cons_of_mem c hd))
      (fun d hd => hes d (List.mem_cons_of_mem e hd)) h
    have hce : c = e := Char.toNat_inj.1 (by omega)
    exact ⟨by omega, by rw [hce]⟩

/-- A run of digits is its value, with zeros in front. -/
theorem padded_value {ds : List Char} (h : IsRun ds) :
    padded ds.length (Nat.ofDigitChars 10 ds 0) = ds := by
  have hpos : 0 < ds.length := List.length_pos_iff.2 h.1
  have hlt : Nat.ofDigitChars 10 ds 0 < 10 ^ ds.length := by
    have hlt := value_lt h.2 0
    omega
  exact (value_inj (length_padded hpos hlt) (isRun_padded _ _).2 h.2 (value_padded _ _)).2

/-- What is read as a number is its digits, with zeros in front. -/
theorem readNat?_eq_some_iff {cs : List Char} {n : Nat} :
    readNat? cs = some n ↔ ∃ width, cs = padded width n := by
  have hread : ∀ ds, IsRun ds → readNat? ds = some (Nat.ofDigitChars 10 ds 0) := fun ds h =>
    if_pos ⟨h.1, List.all_eq_true.2 h.2⟩
  constructor
  · intro h
    obtain ⟨hrun, hvalue⟩ := Option.ite_none_right_eq_some.1 h
    cases hvalue
    exact ⟨cs.length, (padded_value ⟨hrun.1, List.all_eq_true.1 hrun.2⟩).symm⟩
  · rintro ⟨width, rfl⟩
    rw [hread _ (isRun_padded width n), value_padded]

/-- The digits in front are the run, where no digit follows it. -/
theorem takeWhile_run {ds rest : List Char} (h : ∀ c ∈ ds, c.isDigit = true)
    (hrest : ∀ c ∈ rest.head?, c.isDigit = false) :
    (ds ++ rest).takeWhile Char.isDigit = ds ∧ (ds ++ rest).dropWhile Char.isDigit = rest := by
  have hhead : rest.takeWhile Char.isDigit = [] ∧ rest.dropWhile Char.isDigit = rest := by
    cases rest with
    | nil => exact ⟨rfl, rfl⟩
    | cons c rest =>
      have hc : ¬ c.isDigit = true := by simp [hrest c rfl]
      exact ⟨List.takeWhile_cons_of_neg hc, List.dropWhile_cons_of_neg hc⟩
  rw [List.takeWhile_append_of_pos h, List.dropWhile_append_of_pos h, hhead.1, hhead.2,
    List.append_nil]
  exact ⟨rfl, rfl⟩

theorem not_isBlank_of_isDigit {c : Char} (h : c.isDigit = true) : isBlank c = false := by
  have hc := isDigit_iff.1 h
  simp only [isBlank, blankRanges, List.any_cons, List.any_nil, Bool.or_false, Bool.or_eq_false_iff,
    Bool.and_eq_false_iff, decide_eq_false_iff_not]
  omega

/-- A run starts with a digit. -/
theorem IsRun.exists_cons {ds : List Char} (h : IsRun ds) :
    ∃ c cs, ds = c :: cs ∧ c.isDigit = true := by
  obtain ⟨hne, hdigits⟩ := h
  cases ds with
  | nil => exact absurd rfl hne
  | cons c cs => exact ⟨c, cs, rfl, hdigits c List.mem_cons_self⟩

/-- Nothing is cut off in front of a run of digits. -/
theorem trimStart_run {ds : List Char} (h : IsRun ds) (rest : List Char) :
    trimStart (ds ++ rest) = ds ++ rest := by
  obtain ⟨c, cs, rfl, hc⟩ := h.exists_cons
  refine List.dropWhile_cons_of_neg ?_
  rw [not_isBlank_of_isDigit hc]
  exact Bool.false_ne_true

end Tenancy.Text
