import Tenancy.Text.Digits
import Tenancy.Text.Blank
import Tenancy.Time.Date
import Tenancy.Time.Span

/-!
# Wall-clock times

A timestamp is a time of the UTC calendar with nanoseconds. Its text is `Timestamp.text`:
date, `T`, time, as many of 0, 3, 6 or 9 fraction digits as it needs, and `Z`; years outside
0 to 9999 carry a sign. `Timestamp.ofText?` reads that form and its relatives: another offset
from UTC, blanks between the parts, fewer digits.
-/

namespace Tenancy

/-- Seconds from 1970-01-01T00:00:00Z, and nanoseconds beyond them. From `10 ^ 9` nanoseconds
on the time lies in a leap second that follows the last second of a minute. -/
structure Timestamp where
  secs : Int
  nanos : Nat
  deriving DecidableEq, Repr, Inhabited

namespace Timestamp

/-- The first time: -262143-01-01T00:00:00Z. -/
def first : Timestamp := ⟨-8334601228800, 0⟩

/-- The last time: +262142-12-31T23:59:59.999999999Z. -/
def last : Timestamp := ⟨8210266876799, 999999999⟩

/-- Nanoseconds from 1970-01-01T00:00:00Z. -/
def ns (t : Timestamp) : Int := t.secs * 1000000000 + t.nanos

/-- Milliseconds from 1970-01-01T00:00:00Z, rounded down. -/
def millis (t : Timestamp) : Int := t.secs * 1000 + t.nanos / 1000000

theorem millis_eq (t : Timestamp) : t.millis = t.ns / 1000000 := by
  unfold millis ns
  omega

def ofNs (n : Int) : Timestamp := ⟨n / 1000000000, (n % 1000000000).toNat⟩

/-- The time `d` later. -/
def shift (t : Timestamp) (d : Span) : Timestamp := ofNs (t.ns + d.ns)

/-- The time `d` later, or the last time when that is earlier. -/
def shiftCapped (t : Timestamp) (d : Span) : Timestamp :=
  if t.ns + d.ns ≤ last.ns then t.shift d else last

/-- The time `d` later, made part by part with a carry from the nanoseconds; none past the last time. -/
def add? (t : Timestamp) (d : Span) : Option Timestamp :=
  let nanos := t.nanos + d.subsec
  let secs := t.secs + d.secs + (nanos / 1000000000 : Nat)
  if secs ≤ last.secs then some ⟨secs, nanos % 1000000000⟩ else none

/-! ## Text -/

def yearText (y : Int) : List Char :=
  if 0 ≤ y ∧ y ≤ 9999 then Text.padded 4 y.natAbs
  else (if y < 0 then '-' else '+') :: Text.padded 4 y.natAbs

def fractionText (n : Nat) : List Char :=
  if n = 0 then []
  else if n % 1000000 = 0 then '.' :: Text.padded 3 (n / 1000000)
  else if n % 1000 = 0 then '.' :: Text.padded 6 (n / 1000)
  else '.' :: Text.padded 9 n

def chars (t : Timestamp) : List Char :=
  let date := Date.ofDays (t.secs / 86400)
  let inDay := (t.secs % 86400).toNat
  let leap := 1000000000 ≤ t.nanos
  let second := inDay % 60 + (if leap then 1 else 0)
  yearText date.year ++ '-' :: Text.padded 2 date.month ++ '-' :: Text.padded 2 date.day
    ++ 'T' :: Text.padded 2 (inDay / 3600) ++ ':' :: Text.padded 2 (inDay / 60 % 60)
    ++ ':' :: Text.padded 2 second
    ++ fractionText (if leap then t.nanos - 1000000000 else t.nanos) ++ ['Z']

/-- The time in the UTC calendar. -/
def text (t : Timestamp) : String := String.ofList t.chars

/-! ## Reading -/

/-- A number of at least one and at most `width` digits, and what follows it. -/
def readDigits (width : Nat) (cs : List Char) : Option (Nat × List Char) :=
  let digits := (cs.take width).takeWhile Char.isDigit
  if digits = [] then none
  else some (Nat.ofDigitChars 10 digits 0, cs.drop digits.length)

/-- A number after optional blanks. -/
def readField (width : Nat) (cs : List Char) : Option (Nat × List Char) :=
  readDigits width (Text.trimStart cs)

/-- A separator after optional blanks. -/
def readMark (c : Char) (cs : List Char) : Option (List Char) :=
  match Text.trimStart cs with
  | d :: rest => if d = c then some rest else none
  | [] => none

/-- A year of up to four digits, or of any length behind a sign. -/
def readYear (cs : List Char) : Option (Int × List Char) :=
  match Text.trimStart cs with
  | '-' :: rest => (readDigits rest.length rest).map fun (n, r) => (-(n : Int), r)
  | '+' :: rest => (readDigits rest.length rest).map fun (n, r) => ((n : Int), r)
  | cs => (readDigits 4 cs).map fun (n, r) => ((n : Int), r)

/-- Fraction digits to nanoseconds; digits beyond the ninth are dropped. -/
def readFraction : List Char → Option (Nat × List Char)
  | '.' :: rest => do
    let (n, after) ← readDigits 9 rest
    let used := rest.length - after.length
    some (n * Nat.pow 10 (9 - used), after.dropWhile Char.isDigit)
  | cs => some (0, cs)

def readTwoDigits : List Char → Option (Nat × List Char)
  | a :: b :: rest =>
    if a.isDigit ∧ b.isDigit then some (Nat.ofDigitChars 10 [a, b] 0, rest) else none
  | _ => none

/-- The offset from UTC in seconds: `Z`, `UTC`, or hours and minutes behind a sign. -/
def readOffset (cs : List Char) : Option (Int × List Char) :=
  if cs.length ≥ 3 ∧ (cs.take 3).map Char.toUpper = ['U', 'T', 'C'] then some (0, cs.drop 3)
  else match cs with
    | [] => none
    | c :: rest =>
      if c = 'Z' ∨ c = 'z' then some (0, rest)
      else if c = '+' ∨ c = '-' ∨ c = '\u2212' then do
        let (hours, rest) ← readTwoDigits rest
        let rest := rest.dropWhile fun d => d == ':' || Text.isBlank d
        let (minutes, rest) ← readTwoDigits rest
        if minutes ≤ 59 then
          let offset : Int := hours * 3600 + minutes * 60
          some (if c = '+' then offset else -offset, rest)
        else none
      else none

/-- The time that a text names, if it is one. -/
def ofChars? (cs : List Char) : Option Timestamp := do
  let (year, cs) ← readYear cs
  let cs ← readMark '-' cs
  let (month, cs) ← readField 2 cs
  let cs ← readMark '-' cs
  let (day, cs) ← readField 2 cs
  let cs ← match cs with
    | c :: rest => if c = 'T' ∨ c = 't' ∨ c = ' ' then some rest else none
    | [] => none
  let (hour, cs) ← readField 2 cs
  let cs ← readMark ':' cs
  let (minute, cs) ← readField 2 cs
  let cs ← readMark ':' cs
  let (second, cs) ← readField 2 cs
  let (nanos, cs) ← readFraction cs
  let (offset, cs) ← readOffset (Text.trimStart cs)
  let date : Date := ⟨year, month, day⟩
  if Text.trimStart cs = [] ∧ date.isValid ∧ -262143 ≤ year ∧ year ≤ 262142
      ∧ hour ≤ 23 ∧ minute ≤ 59 ∧ second ≤ 60 ∧ -86400 < offset ∧ offset < 86400 then
    let leap := second = 60
    let inZone : Int := date.toDays * 86400 + hour * 3600 + minute * 60
      + (if leap then 59 else second)
    let t : Timestamp := ⟨inZone - offset, if leap then nanos + 1000000000 else nanos⟩
    if first.secs ≤ t.secs ∧ t.secs ≤ last.secs then some t else none
  else none

def ofText? (s : String) : Option Timestamp := ofChars? s.toList

end Timestamp

end Tenancy
