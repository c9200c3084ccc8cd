import Tenancy.Time.Date

/-!
# Days and dates

Every day has one date: `Date.ofDays` gives a date of the calendar, and `Date.toDays` finds the way
back (`Date.toDays_ofDays`). The day of a 400-year cycle is taken apart into century, group of four
years, year and day of the year (`Date.Place`), where only the last day of a leap year, and with it of
the whole cycle, is out of the even rhythm.
-/

namespace Tenancy.Date

/-- The place of a day in a cycle of 400 years: `c` centuries, `q` groups of four years, `t` years
and `d` days before it. A year has a day 365 only if it is the last one of its group, and at the end
of a century only if it is the last one of the cycle. -/
structure Place (n c q t d : Int) : Prop where
  eq : n = 36524 * c + 1461 * q + 365 * t + d
  century : 0 ≤ c ∧ c ≤ 3
  group : 0 ≤ q ∧ q ≤ 24
  year : 0 ≤ t ∧ t ≤ 3
  day : 0 ≤ d ∧ d ≤ 365
  leap : d = 365 → t = 3 ∧ (q < 24 ∨ c = 3)

theorem exists_place {n : Int} (h₀ : 0 ≤ n) (h₁ : n < 146097) : ∃ c q t d, Place n c q t d := by
  have hc : ∃ c r, n = 36524 * c + r ∧ 0 ≤ c ∧ c ≤ 3 ∧ 0 ≤ r ∧ r ≤ 36524 ∧ (r = 36524 → c = 3) := by
    by_cases hn : n < 146096
    · exact ⟨n / 36524, n % 36524, by omega⟩
    · exact ⟨3, 36524, by omega⟩
  obtain ⟨c, r, hn, hc₀, hc₃, hr₀, hr, hlast⟩ := hc
  have ht : ∃ t d, r % 1461 = 365 * t + d ∧ 0 ≤ t ∧ t ≤ 3 ∧ 0 ≤ d ∧ d ≤ 365 ∧
      (d = 365 → t = 3 ∧ r % 1461 = 1460) := by
    by_cases hs : r % 1461 < 1460
    · exact ⟨r % 1461 / 365, r % 1461 % 365, by omega⟩
    · exact ⟨3, 365, by omega⟩
  obtain ⟨t, d, hs, ht₀, ht₃, hd₀, hd, hleap⟩ := ht
  refine ⟨c, r / 1461, t, d, by omega, ⟨hc₀, hc₃⟩, by omega, ⟨ht₀, ht₃⟩, ⟨hd₀, hd⟩, ?_⟩
  intro h365
  obtain ⟨ht3, hr1460⟩ := hleap h365
  exact ⟨ht3, by omega⟩

namespace Place

variable {n c q t d : Int} (h : Place n c q t d)

include h

/-- The year of the cycle, as it is found from the day alone. -/
theorem year_eq : (n - n / 1460 + n / 36524 - n / 146096) / 365 = 100 * c + 4 * q + t := by
  obtain ⟨heq, hc, hq, ht, hd, hleap⟩ := h
  -- a whole cycle is one day longer than four centuries
  have hcycle : n / 36524 - n / 146096 = c := by
    obtain ⟨r, hr⟩ : ∃ r, r = 1461 * q + 365 * t + d := ⟨_, rfl⟩
    have hn : n = 36524 * c + r := by omega
    have hr₀ : 0 ≤ r ∧ r ≤ 36524 ∧ (r = 36524 → c = 3) := by
      refine ⟨by omega, by omega, fun hr' => ?_⟩
      have hd' : d = 365 := by omega
      have := (hleap hd').2
      omega
    clear heq hr hleap
    by_cases hr' : r = 36524
    · have := hr₀.2.2 hr'
      omega
    · have hfirst : n / 36524 = c := by omega
      omega
  have hgroups : n / 1460 = 25 * c + q + (24 * c + q + 365 * t + d) / 1460 := by omega
  have hcarry : 0 ≤ (24 * c + q + 365 * t + d) / 1460 ∧ (24 * c + q + 365 * t + d) / 1460 ≤ 1 := by
    omega
  have hfirst : d = 0 → (24 * c + q + 365 * t + d) / 1460 = 0 := by omega
  have hover : d = 365 → (24 * c + q + 365 * t + d) / 1460 = 1 := by
    intro h365
    have := (hleap h365).1
    omega
  omega

theorem day_eq :
    n - (365 * (100 * c + 4 * q + t) + (100 * c + 4 * q + t) / 4 - (100 * c + 4 * q + t) / 100) =
      d := by
  obtain ⟨heq, hc, hq, ht, -, -⟩ := h
  omega

theorem isLeapYear_of_last (hd : d = 365) (cycle : Int) :
    isLeapYear (100 * c + 4 * q + t + cycle * 400 + 1) = true := by
  obtain ⟨-, hc, hq, -, -, hleap⟩ := h
  obtain ⟨rfl, hlast⟩ := hleap hd
  simp only [isLeapYear, decide_eq_true_eq]
  omega

end Place

theorem le_of_isValid {date : Date} (h : date.isValid = true) : date.month ≤ 12 ∧ date.day ≤ 31 := by
  simp only [isValid, decide_eq_true_eq] at h
  have hdays : daysInMonth date.year date.month ≤ 31 ∧
      (¬ date.month ≤ 12 → daysInMonth date.year date.month = 0) := by
    unfold daysInMonth
    split
    · split <;> omega
    · split
      · omega
      · split <;> omega
  omega

/-! ## From days to dates and back -/

/-- A day of a cycle: its place in the cycle, and its month and day of the month, from March on. -/
theorem ofDays_eq {n c q t d : Int} (h : Place ((n + 719468) % 146097) c q t d) :
    let m := (5 * d + 2) / 153
    ofDays n =
      ⟨100 * c + 4 * q + t + (n + 719468) / 146097 * 400 + (if m < 10 then 0 else 1),
        (if m < 10 then m + 3 else m - 9).toNat, (d - (153 * m + 2) / 5 + 1).toNat⟩ := by
  intro m
  unfold ofDays
  simp only [h.year_eq, h.day_eq]
  have hm : 0 ≤ m := by
    have := h.day
    omega
  have hyear : (if (if m < 10 then m + 3 else m - 9) ≤ 2 then (1 : Int) else 0) =
      if m < 10 then 0 else 1 := by
    have := h.day
    split <;> split <;> omega
  rw [← hyear]

theorem exists_ofDays (n : Int) : ∃ c q t d, Place ((n + 719468) % 146097) c q t d :=
  exists_place (by omega) (by omega)

theorem isValid_ofDays (n : Int) : (ofDays n).isValid = true := by
  obtain ⟨c, q, t, d, h⟩ := exists_ofDays n
  obtain ⟨hd₀, hd⟩ := h.day
  rw [ofDays_eq h]
  simp only [isValid, decide_eq_true_eq]
  refine ⟨by omega, ?_⟩
  unfold daysInMonth
  have hm : 0 ≤ (5 * d + 2) / 153 ∧ (5 * d + 2) / 153 ≤ 11 := by omega
  by_cases hfeb : (5 * d + 2) / 153 = 11
  · -- February, whose last day is the last one of the year from March on
    have hmonth : (if (5 * d + 2) / 153 < 10 then (5 * d + 2) / 153 + 3 else (5 * d + 2) / 153 - 9).toNat = 2 := by
      rw [hfeb]
      rfl
    rw [if_pos hmonth, if_neg (show ¬ (5 * d + 2) / 153 < 10 by omega)]
    by_cases hlast : d = 365
    · have hleap := h.isLeapYear_of_last hlast ((n + 719468) / 146097)
      rw [hleap]
      simp only [if_true]
      omega
    · split <;> omega
  · by_cases hten : (5 * d + 2) / 153 < 10
    · rw [if_pos hten, if_pos hten, if_neg (show ¬ ((5 * d + 2) / 153 + 3).toNat = 2 by omega)]
      split
      · omega
      · rw [if_pos (by omega)]
        omega
    · rw [if_neg hten, if_neg hten, if_neg (show ¬ ((5 * d + 2) / 153 - 9).toNat = 2 by omega)]
      split
      · omega
      · rw [if_pos (by omega)]
        omega

/-- The number of a date whose year and month are counted from March. -/
theorem toDays_fromMarch (y m : Int) (day : Nat) (hm : 0 ≤ m ∧ m ≤ 11) :
    toDays ⟨y + (if m < 10 then 0 else 1), (if m < 10 then m + 3 else m - 9).toNat, day⟩ =
      y / 400 * 146097 +
        (y % 400 * 365 + y % 400 / 4 - y % 400 / 100 + ((153 * m + 2) / 5 + (day - 1))) - 719468 := by
  unfold toDays
  by_cases hten : m < 10
  · have hmonth : ¬ (m + 3).toNat ≤ 2 := by omega
    have hmarch : (((m + 3).toNat : Int) + 9) % 12 = m := by omega
    simp only [if_pos hten, if_neg hmonth, hmarch, Int.add_zero]
  · have hmonth : (m - 9).toNat ≤ 2 := by omega
    have hmarch : (((m - 9).toNat : Int) + 9) % 12 = m := by omega
    simp only [if_neg hten, if_pos hmonth, hmarch, Int.add_sub_cancel]

theorem toDays_ofDays (n : Int) : (ofDays n).toDays = n := by
  obtain ⟨c, q, t, d, h⟩ := exists_ofDays n
  have hm : 0 ≤ (5 * d + 2) / 153 ∧ (5 * d + 2) / 153 ≤ 11 := by
    have := h.day
    omega
  rw [ofDays_eq h, toDays_fromMarch _ _ _ hm]
  obtain ⟨heq, hc, hq, ht, hd, -⟩ := h
  have hcycle : (100 * c + 4 * q + t + (n + 719468) / 146097 * 400) / 400 =
      (n + 719468) / 146097 := by omega
  have hyear : (100 * c + 4 * q + t + (n + 719468) / 146097 * 400) % 400 = 100 * c + 4 * q + t := by
    omega
  have hfour : (100 * c + 4 * q + t) / 4 = 25 * c + q := by omega
  have hcentury : (100 * c + 4 * q + t) / 100 = c := by omega
  have hday : ((d - (153 * ((5 * d + 2) / 153) + 2) / 5 + 1).toNat : Int) =
      d - (153 * ((5 * d + 2) / 153) + 2) / 5 + 1 := by omega
  rw [hcycle, hyear, hfour, hcentury, hday]
  omega

/-- The years of the days that are timed. -/
theorem year_ofDays {n : Int} (h₀ : -96465292 ≤ n) (h₁ : n ≤ 95026236) :
    -262143 ≤ (ofDays n).year ∧ (ofDays n).year ≤ 262142 := by
  obtain ⟨c, q, t, d, h⟩ := exists_ofDays n
  rw [ofDays_eq h]
  obtain ⟨heq, hc, hq, ht, hd, -⟩ := h
  have hfirst : -656 ≤ (n + 719468) / 146097 := by omega
  have hlast : (n + 719468) / 146097 ≤ 655 := by omega
  simp only
  split
  · omega
  · have hjanuary : 306 ≤ d := by omega
    refine ⟨by omega, ?_⟩
    by_cases hcycle : (n + 719468) / 146097 = 655
    · have hcentury : c ≤ 1 := by omega
      have hgroup : c = 1 → q ≤ 10 := by omega
      omega
    · omega

end Tenancy.Date
