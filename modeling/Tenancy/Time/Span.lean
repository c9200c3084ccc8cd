import Tenancy.Text.Digits

/-!
# Spans of time

A span is a length of time in whole nanoseconds. `Span.longest` is the longest span that a
caller can name: `2 ^ 64 - 1` seconds and all nanoseconds below the next. `Span.text` writes a
span in the largest of the units s, ms, µs and ns that does not exceed it, with the fraction
cut after its last nonzero digit.
-/

namespace Tenancy

/-- A length of time, in nanoseconds. -/
structure Span where
  ns : Nat
  deriving DecidableEq, Repr, Inhabited

namespace Span

def ofSecs (n : Nat) : Span := ⟨n * 1000000000⟩

def ofMillis (n : Nat) : Span := ⟨n * 1000000⟩

/-- `secs` whole seconds and `nanos` nanoseconds. -/
def ofParts (secs nanos : Nat) : Span := ⟨secs * 1000000000 + nanos⟩

/-- The longest span. -/
def longest : Span := ofParts (UInt64.size - 1) 999999999

/-- Whole seconds in the span. -/
def secs (d : Span) : Nat := d.ns / 1000000000

/-- Nanoseconds beyond the last whole second. -/
def subsec (d : Span) : Nat := d.ns % 1000000000

/-- Whole milliseconds in the span. -/
def millis (d : Span) : Nat := d.ns / 1000000

instance : LE Span := ⟨fun a b => a.ns ≤ b.ns⟩
instance : LT Span := ⟨fun a b => a.ns < b.ns⟩
instance (a b : Span) : Decidable (a ≤ b) := inferInstanceAs (Decidable (a.ns ≤ b.ns))
instance (a b : Span) : Decidable (a < b) := inferInstanceAs (Decidable (a.ns < b.ns))

theorem le_def {a b : Span} : a ≤ b ↔ a.ns ≤ b.ns := Iff.rfl

theorem lt_def {a b : Span} : a < b ↔ a.ns < b.ns := Iff.rfl

/-- The longest span that a signed word of milliseconds can count. -/
def signedLimit : Span := ofMillis (UInt64.size / 2 - 1)

/-- The span, if it is not too long for a signed length of time. -/
def signed? (d : Span) : Option Span := if d ≤ signedLimit then some d else none

/-- Whole milliseconds fit into a span where they fit into its own whole milliseconds. -/
theorem ofMillis_le_iff {n : Nat} {d : Span} : ofMillis n ≤ d ↔ n ≤ d.millis :=
  (Nat.le_div_iff_mul_le (by decide)).symm

/-- `part` counts steps of `10 ^ -width` of the unit beyond `whole`. -/
def inUnit (whole part width : Nat) (unit : List Char) : List Char :=
  let digits := Text.fraction width part
  Text.decimal whole ++ (if digits = [] then [] else '.' :: digits) ++ unit

/-- The span in its largest fitting unit. -/
def text (d : Span) : String :=
  String.ofList <|
    if 1000000000 ≤ d.ns then inUnit d.secs d.subsec 9 ['s']
    else if 1000000 ≤ d.ns then inUnit (d.ns / 1000000) (d.ns % 1000000) 6 ['m', 's']
    else if 1000 ≤ d.ns then inUnit (d.ns / 1000) (d.ns % 1000) 3 ['µ', 's']
    else inUnit d.ns 0 0 ['n', 's']

end Span

end Tenancy
