import Tenancy.Time.Span
import Tenancy.Time.Timestamp

/-!
# Clocks

An instant is a point on the time line that deadlines are kept on; it only moves forward. A
`Clock` is one reading of that line together with a reading of the wall clock. The wall clock is
only reported: it runs by itself, and no deadline is kept on it. `Instant.after?` has no answer
when the sum passes the last instant.
-/

namespace Tenancy

/-- A point on the forward-moving time line, in nanoseconds from its start. -/
structure Instant where
  ns : Nat
  deriving DecidableEq, Repr, Inhabited

namespace Instant

/-- The last point that can be represented. The count of seconds has 63 bits, and one day of it
belongs to the time before the line starts. -/
def last : Instant := ⟨(UInt64.size / 2 - 86400) * 1000000000 - 1⟩

instance : LE Instant := ⟨fun a b => a.ns ≤ b.ns⟩
instance : LT Instant := ⟨fun a b => a.ns < b.ns⟩
instance (a b : Instant) : Decidable (a ≤ b) := inferInstanceAs (Decidable (a.ns ≤ b.ns))
instance (a b : Instant) : Decidable (a < b) := inferInstanceAs (Decidable (a.ns < b.ns))

theorem le_def {a b : Instant} : a ≤ b ↔ a.ns ≤ b.ns := Iff.rfl

theorem lt_def {a b : Instant} : a < b ↔ a.ns < b.ns := Iff.rfl

/-- The instant `d` after `t`, unless it passes the last one. -/
def after? (t : Instant) (d : Span) : Option Instant :=
  if t.ns + d.ns ≤ last.ns then some ⟨t.ns + d.ns⟩ else none

/-- The time from `a` to `b`; zero when `b` is not later. -/
def spanTo (a b : Instant) : Span := ⟨b.ns - a.ns⟩

end Instant

/-- One reading of both clocks. -/
structure Clock where
  now : Instant
  wall : Timestamp
  deriving DecidableEq, Repr, Inhabited

/-- The time line moved on by `d`, under the same reading of the wall clock. -/
def Clock.advance (c : Clock) (d : Span) : Clock := { c with now := ⟨c.now.ns + d.ns⟩ }

end Tenancy
