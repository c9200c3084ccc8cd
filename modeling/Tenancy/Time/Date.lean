/-!
# Calendar dates

Dates of the proleptic Gregorian calendar and their numbers of days from 1970-01-01. Years are
counted from March in cycles of 400, so that the leap day is the last of its year.
-/

namespace Tenancy

structure Date where
  year : Int
  month : Nat
  day : Nat
  deriving DecidableEq, Repr, Inhabited

namespace Date

def isLeapYear (y : Int) : Bool := y % 4 = 0 ∧ (y % 100 ≠ 0 ∨ y % 400 = 0)

/-- The number of days in a month; none outside 1 to 12. -/
def daysInMonth (y : Int) (m : Nat) : Nat :=
  if m = 2 then if isLeapYear y then 29 else 28
  else if m = 4 ∨ m = 6 ∨ m = 9 ∨ m = 11 then 30
  else if 1 ≤ m ∧ m ≤ 12 then 31
  else 0

/-- Whether the month and the day exist. -/
def isValid (d : Date) : Bool := 1 ≤ d.day ∧ d.day ≤ daysInMonth d.year d.month

/-- Days from 1970-01-01 to the date. -/
def toDays (d : Date) : Int :=
  let y := if d.month ≤ 2 then d.year - 1 else d.year
  let cycle := y / 400
  let yoc := y % 400
  let fromMarch : Int := (d.month + 9) % 12
  let doy := (153 * fromMarch + 2) / 5 + (d.day - 1)
  cycle * 146097 + (yoc * 365 + yoc / 4 - yoc / 100 + doy) - 719468

/-- The date `n` days from 1970-01-01. -/
def ofDays (n : Int) : Date :=
  let z := n + 719468
  let cycle := z / 146097
  let doc := z % 146097
  let yoc := (doc - doc / 1460 + doc / 36524 - doc / 146096) / 365
  let doy := doc - (365 * yoc + yoc / 4 - yoc / 100)
  let fromMarch := (5 * doy + 2) / 153
  let day := doy - (153 * fromMarch + 2) / 5 + 1
  let month := if fromMarch < 10 then fromMarch + 3 else fromMarch - 9
  ⟨yoc + cycle * 400 + (if month ≤ 2 then 1 else 0), month.toNat, day.toNat⟩

end Date

end Tenancy
