import Tenancy.Proofs.Digits
import Tenancy.Proofs.Time.Date
import Tenancy.Time.Timestamp

/-!
# The text of a time

Every time between the first and the last one is read back from its text (`Timestamp.ofText?_text`),
leap seconds included, and what is read from any text is such a time (`Timestamp.proper_of_ofText?`).
-/

namespace Tenancy.Timestamp

open Text

/-- A time that there is: between the first and the last one, and in a leap second only at the end of
a minute. -/
structure Proper (t : Timestamp) : Prop where
  first_le : first.secs ≤ t.secs
  le_last : t.secs ≤ last.secs
  nanos : t.nanos < 1000000000 ∨ (t.nanos < 2000000000 ∧ t.secs % 60 = 59)

/-! ## Reading numbers and separators -/

/-- A run is read whole if it ends where the digits do, or is as long as a run can be. -/
theorem readDigits_run {ds : List Char} (h : IsRun ds) {width : Nat} (hle : ds.length ≤ width)
    {rest : List Char} (hend : ds.length < width → ∀ c ∈ rest.head?, c.isDigit = false) :
    readDigits width (ds ++ rest) = some (Nat.ofDigitChars 10 ds 0, rest) := by
  obtain ⟨hne, hdigits⟩ := h
  have htake : ((ds ++ rest).take width).takeWhile Char.isDigit = ds := by
    rw [List.take_append, List.take_of_length_le hle]
    refine (takeWhile_run hdigits fun c hc => ?_).1
    by_cases hlt : ds.length < width
    · refine hend hlt c ?_
      cases rest with
      | nil => simp at hc
      | cons d rest =>
        obtain ⟨k, hk⟩ : ∃ k, width - ds.length = k + 1 := ⟨width - ds.length - 1, by omega⟩
        rw [hk, List.take_succ_cons] at hc
        exact hc
    · have hzero : width - ds.length = 0 := by omega
      rw [hzero, List.take_zero] at hc
      cases hc
  unfold readDigits
  rw [htake, if_neg hne, List.drop_left]

theorem readField_padded {n : Nat} (hn : n < 100) (rest : List Char) :
    readField 2 (padded 2 n ++ rest) = some (n, rest) := by
  have hlen : (padded 2 n).length = 2 := length_padded (by decide) hn
  rw [readField, trimStart_run (isRun_padded 2 n), readDigits_run (isRun_padded 2 n) (by omega),
    value_padded]
  intro hlt
  omega

theorem readMark_self {c : Char} (hc : isBlank c = false) (rest : List Char) :
    readMark c (c :: rest) = some rest := by
  have htrim : trimStart (c :: rest) = c :: rest :=
    List.dropWhile_cons_of_neg (by rw [hc]; exact Bool.false_ne_true)
  rw [readMark, htrim]
  exact if_pos rfl

/-- A year is read whole, with its sign if it has one. -/
theorem readYear_yearText (y : Int) (rest : List Char) :
    readYear (yearText y ++ '-' :: rest) = some (y, '-' :: rest) := by
  have hrun := isRun_padded 4 y.natAbs
  have hmark : ∀ c ∈ ('-' :: rest).head?, c.isDigit = false := by
    rintro c ⟨⟩
    rfl
  have hlong : readDigits (padded 4 y.natAbs ++ '-' :: rest).length
      (padded 4 y.natAbs ++ '-' :: rest) = some (y.natAbs, '-' :: rest) := by
    rw [readDigits_run hrun (by simp) fun _ => hmark, value_padded]
  unfold yearText
  split
  · rename_i hy
    have hlen : (padded 4 y.natAbs).length = 4 := length_padded (by decide) (by omega)
    have hread : readDigits 4 (padded 4 y.natAbs ++ '-' :: rest) = some (y.natAbs, '-' :: rest) := by
      rw [readDigits_run hrun (by omega) fun _ => hmark, value_padded]
    have htrim := trimStart_run hrun ('-' :: rest)
    obtain ⟨c, cs, hcs, hc⟩ := hrun.exists_cons
    rw [hcs] at hread htrim ⊢
    have habs : (y.natAbs : Int) = y := by omega
    rw [readYear, htrim, List.cons_append]
    split
    · rename_i heq
      cases heq
      exact absurd hc (by decide)
    · rename_i heq
      cases heq
      exact absurd hc (by decide)
    · rw [← List.cons_append, hread, Option.map_some]
      simp only [habs]
  · split
    · have habs : -(y.natAbs : Int) = y := by omega
      have htrim : trimStart ('-' :: (padded 4 y.natAbs ++ '-' :: rest)) =
          '-' :: (padded 4 y.natAbs ++ '-' :: rest) := rfl
      rw [List.cons_append, readYear, htrim]
      simp only [hlong, Option.map_some, habs]
    · have habs : (y.natAbs : Int) = y := by omega
      have htrim : trimStart ('+' :: (padded 4 y.natAbs ++ '-' :: rest)) =
          '+' :: (padded 4 y.natAbs ++ '-' :: rest) := rfl
      rw [List.cons_append, readYear, htrim]
      simp only [hlong, Option.map_some, habs]

theorem readFraction_padded {width n : Nat} (hw : 0 < width) (hle : width ≤ 9)
    (hn : n < 10 ^ width) :
    readFraction ('.' :: padded width n ++ ['Z']) = some (n * 10 ^ (9 - width), ['Z']) := by
  have hlen := length_padded hw hn
  have hmark : ∀ c ∈ ['Z'].head?, c.isDigit = false := by
    rintro c ⟨⟩
    rfl
  rw [List.cons_append, readFraction, readDigits_run (isRun_padded width n) (by omega) fun _ => hmark,
    value_padded]
  have hused : (padded width n ++ ['Z']).length - ['Z'].length = width := by
    rw [List.length_append, hlen]
    omega
  simp only [Option.bind_eq_bind, Option.bind_some, hused]
  rfl

/-- A fraction is written with as many digits as it needs, and read back. -/
theorem readFraction_fractionText {n : Nat} (hn : n < 1000000000) :
    readFraction (fractionText n ++ ['Z']) = some (n, ['Z']) := by
  unfold fractionText
  split
  · rename_i hzero
    rw [hzero]
    rfl
  · split
    · rw [readFraction_padded (by decide) (by decide) (by omega)]
      congr 2
      omega
    · split
      · rw [readFraction_padded (by decide) (by decide) (by omega)]
        congr 2
        omega
      · rw [readFraction_padded (by decide) (by decide) (by omega)]
        congr 2
        omega

/-! ## Reading a time back -/

theorem ofText?_text {t : Timestamp} (h : t.Proper) : ofText? t.text = some t := by
  obtain ⟨secs, nanos⟩ := t
  obtain ⟨hfirst, hlast, hnanos⟩ := h
  dsimp only [first, last] at hfirst hlast hnanos
  have hyear := Date.year_ofDays (n := secs / 86400) (by omega) (by omega)
  have hvalid := Date.isValid_ofDays (secs / 86400)
  have hdays := Date.toDays_ofDays (secs / 86400)
  unfold ofText? text
  rw [String.toList_ofList]
  unfold chars
  generalize Date.ofDays (secs / 86400) = date at hyear hvalid hdays ⊢
  obtain ⟨hmonth, hday⟩ := Date.le_of_isValid hvalid
  obtain ⟨year, month, day⟩ := date
  dsimp only at hyear hmonth hday ⊢
  -- the parts of the day, and the second that is written for a leap second
  obtain ⟨s, hs⟩ : ∃ s, s = (secs % 86400).toNat := ⟨_, rfl⟩
  have hin : s < 86400 := by omega
  rw [← hs]
  obtain ⟨second, hsecond⟩ : ∃ second, second = s % 60 + (if 1000000000 ≤ nanos then 1 else 0) := ⟨_, rfl⟩
  obtain ⟨frac, hfrac⟩ : ∃ frac, frac = if 1000000000 ≤ nanos then nanos - 1000000000 else nanos := ⟨_, rfl⟩
  have hleap : if 1000000000 ≤ nanos then second = 60 ∧ frac = nanos - 1000000000 ∧ s % 60 = 59
      else second = s % 60 ∧ frac = nanos := by
    split at hsecond <;> split at hfrac <;> split <;> omega
  have hfrac' : frac < 1000000000 := by
    split at hleap <;> omega
  have hsecond' : second ≤ 60 := by
    split at hleap <;> omega
  rw [← hsecond, ← hfrac]
  have hoffset : readOffset (trimStart ['Z']) = some (0, []) := by decide
  have hsecs : (⟨year, month, day⟩ : Date).toDays * 86400 + (s / 3600 : Nat) * 3600 +
      (s / 60 % 60 : Nat) * 60 + ((if second = 60 then 59 else second : Nat) : Int) - 0 = secs := by
    rw [hdays]
    split <;> split at hleap <;> omega
  have hnano : (if second = 60 then frac + 1000000000 else frac) = nanos := by
    split <;> split at hleap <;> omega
  have hend : trimStart [] = [] := rfl
  have hdash : isBlank '-' = false := by decide
  have hcolon : isBlank ':' = false := by decide
  simp only [List.append_assoc, List.cons_append]
  -- what is written is read, part by part
  refine Option.bind_eq_some_iff.2 ⟨_, readYear_yearText year _, ?_⟩
  refine Option.bind_eq_some_iff.2 ⟨_, readMark_self hdash _, ?_⟩
  refine Option.bind_eq_some_iff.2 ⟨_, readField_padded (by omega) _, ?_⟩
  refine Option.bind_eq_some_iff.2 ⟨_, readMark_self hdash _, ?_⟩
  refine Option.bind_eq_some_iff.2 ⟨_, readField_padded (by omega) _, ?_⟩
  refine Option.bind_eq_some_iff.2 ⟨_, readField_padded (by omega) _, ?_⟩
  refine Option.bind_eq_some_iff.2 ⟨_, readMark_self hcolon _, ?_⟩
  refine Option.bind_eq_some_iff.2 ⟨_, readField_padded (by omega) _, ?_⟩
  refine Option.bind_eq_some_iff.2 ⟨_, readMark_self hcolon _, ?_⟩
  refine Option.bind_eq_some_iff.2 ⟨_, readField_padded (by omega) _, ?_⟩
  refine Option.bind_eq_some_iff.2 ⟨_, readFraction_fractionText hfrac', ?_⟩
  refine Option.bind_eq_some_iff.2 ⟨_, hoffset, ?_⟩
  refine (if_pos ⟨hend, hvalid, hyear.1, hyear.2, by omega, by omega, hsecond', by omega,
    by omega⟩).trans ?_
  simp only [hsecs, hnano]
  exact if_pos ⟨hfirst, hlast⟩

/-! ## What can be read -/

theorem offset_of_readOffset {cs rest : List Char} {offset : Int}
    (h : readOffset cs = some (offset, rest)) : offset % 60 = 0 := by
  unfold readOffset at h
  split at h
  · cases h
    rfl
  · split at h
    · cases h
    · split at h
      · cases h
        rfl
      · split at h
        · simp only [Option.bind_eq_bind, Option.bind_eq_some_iff] at h
          obtain ⟨hours, -, minutes, -, h⟩ := h
          split at h
          · cases h
            split <;> omega
          · cases h
        · cases h

theorem lt_of_readDigits {width n : Nat} {cs rest : List Char}
    (h : readDigits width cs = some (n, rest)) :
    n < 10 ^ (cs.length - rest.length) ∧ cs.length - rest.length ≤ width := by
  unfold readDigits at h
  dsimp only at h
  split at h
  · cases h
  · cases h
    have hdigits : ∀ c ∈ (cs.take width).takeWhile Char.isDigit, c.isDigit = true :=
      fun c hc => List.all_eq_true.1 List.all_takeWhile c hc
    have hlen : ((cs.take width).takeWhile Char.isDigit).length ≤ min width cs.length := by
      rw [← List.length_take]
      exact (List.takeWhile_sublist _).length_le
    have hused : cs.length - (cs.drop ((cs.take width).takeWhile Char.isDigit).length).length =
        ((cs.take width).takeWhile Char.isDigit).length := by
      rw [List.length_drop]
      omega
    rw [hused]
    have hlt := value_lt hdigits 0
    rw [Nat.zero_add, Nat.one_mul] at hlt
    exact ⟨hlt, by omega⟩

theorem lt_of_readFraction {n : Nat} {cs rest : List Char}
    (h : readFraction cs = some (n, rest)) : n < 1000000000 := by
  unfold readFraction at h
  split at h
  · obtain ⟨⟨m, after⟩, hm, h⟩ := Option.bind_eq_some_iff.1 h
    cases h
    obtain ⟨hlt, hle⟩ := lt_of_readDigits hm
    rename_i text
    generalize text.length - after.length = used at hlt hle ⊢
    calc m * 10 ^ (9 - used) < 10 ^ used * 10 ^ (9 - used) :=
          Nat.mul_lt_mul_of_pos_right hlt (Nat.pow_pos (by decide))
      _ = 10 ^ 9 := by rw [← Nat.pow_add, Nat.add_sub_cancel' hle]
      _ = 1000000000 := by decide
  · cases h
    decide

/-- Only times that there are can be read. -/
theorem proper_of_ofText? {s : String} {t : Timestamp} (h : ofText? s = some t) : t.Proper := by
  unfold ofText? ofChars? at h
  obtain ⟨⟨year, cs₁⟩, -, h⟩ := Option.bind_eq_some_iff.1 h
  obtain ⟨cs₂, -, h⟩ := Option.bind_eq_some_iff.1 h
  obtain ⟨⟨month, cs₃⟩, -, h⟩ := Option.bind_eq_some_iff.1 h
  obtain ⟨cs₄, -, h⟩ := Option.bind_eq_some_iff.1 h
  obtain ⟨⟨day, cs₅⟩, -, h⟩ := Option.bind_eq_some_iff.1 h
  dsimp only at h
  split at h
  · split at h
    · obtain ⟨cs₆, -, h⟩ := Option.bind_eq_some_iff.1 h
      obtain ⟨⟨hour, cs₇⟩, -, h⟩ := Option.bind_eq_some_iff.1 h
      obtain ⟨cs₈, -, h⟩ := Option.bind_eq_some_iff.1 h
      obtain ⟨⟨minute, cs₉⟩, -, h⟩ := Option.bind_eq_some_iff.1 h
      obtain ⟨cs₁₀, -, h⟩ := Option.bind_eq_some_iff.1 h
      obtain ⟨⟨second, cs₁₁⟩, -, h⟩ := Option.bind_eq_some_iff.1 h
      obtain ⟨⟨nanos, cs₁₂⟩, hnanos, h⟩ := Option.bind_eq_some_iff.1 h
      obtain ⟨⟨offset, cs₁₃⟩, hoffset, h⟩ := Option.bind_eq_some_iff.1 h
      have hlt := lt_of_readFraction hnanos
      have hsixty := offset_of_readOffset hoffset
      obtain ⟨-, h⟩ := Option.ite_none_right_eq_some.1 h
      obtain ⟨⟨hfirst, hlast⟩, h⟩ := Option.ite_none_right_eq_some.1 h
      cases h
      refine ⟨hfirst, hlast, ?_⟩
      dsimp only
      by_cases hleap : second = 60
      · rw [if_pos hleap, if_pos hleap]
        exact .inr ⟨by omega, by omega⟩
      · rw [if_neg hleap]
        exact .inl hlt
    · cases h
  · cases h

end Tenancy.Timestamp
