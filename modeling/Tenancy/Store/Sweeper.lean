import Tenancy.Store.Basic

/-!
# The sweeper

A sweeper purges the expired entries of a store at once and then at every interval, which is cut
to `maxInterval`. Its timer has whole milliseconds: a sweep is due when the clock, rounded down,
has reached the planned instant, rounded up. A sweep that comes more than `tolerance` late puts
the next one a full interval after itself; otherwise the planned rhythm goes on.

Near the end of time the rhythm breaks. The timer counts up to `lastStep`, where every sweep is
due at once, and a sweeper that cannot represent its next plan stops for good.
-/

namespace Tenancy

/-- A running sweeper, and when it plans to sweep next. -/
structure Sweeper where
  interval : Span
  next : Instant
  deriving DecidableEq, Repr, Inhabited

namespace Sweeper

def tolerance : Span := .ofMillis 5

/-- Thirty years of 365 days. -/
def maxInterval : Span := .ofSecs (30 * 365 * 86400)

/-- A sweeper that starts; it cannot run without time between its sweeps. -/
def start? (interval : Span) (now : Instant) : Option Sweeper :=
  if interval.ns = 0 then none else some ⟨⟨min interval.ns maxInterval.ns⟩, now⟩

/-! ## The timer -/

/-- The nanoseconds of a step. -/
def step : Nat := 1000000

/-- The last step; all later instants fall on it. -/
def lastStep : Nat := UInt64.size - 3

/-- The step that an instant has reached. -/
def stepAt (t : Instant) : Nat := min (t.ns / step) lastStep

/-- The step at which a plan is due. -/
def stepFor (t : Instant) : Nat := min ((t.ns + (step - 1)) / step) lastStep

def isDue (w : Sweeper) (now : Instant) : Bool := stepFor w.next ≤ stepAt now

/-! ## Sweeping -/

/-- The plan after one sweep at `now`. -/
def plan? (w : Sweeper) (now : Instant) : Option Instant :=
  if w.next.ns + tolerance.ns < now.ns then now.after? w.interval else w.next.after? w.interval

/-- Sweeps at the last step until others get their turn. -/
def burst : Nat := 8192

/-- How many sweeps after the first one are due at `now`, when the second is planned at `next`. -/
def repeats (w : Sweeper) (now next : Instant) : Nat :=
  if stepAt now = lastStep then burst
  else if stepFor next ≤ stepAt now then (stepAt now * step - next.ns) / w.interval.ns + 1
  else 0

/-- Sweeps the store if that is due. The sweeper is gone when it had to stop. -/
def run (w : Sweeper) (now : Instant) (s : Store) : Option Sweeper × Store :=
  if w.isDue now then
    match w.plan? now with
    | none => (none, s)
    | some next =>
      let more : Span := ⟨w.repeats now next * w.interval.ns⟩
      ((next.after? more).map fun next => { w with next }, (s.purge now).2)
  else (some w, s)

/-- Runs several sweepers on one store, and keeps those that did not stop. -/
def runAll (now : Instant) : List Sweeper → Store → List Sweeper × Store
  | [], s => ([], s)
  | w :: ws, s =>
    let ran := w.run now s
    let rest := runAll now ws ran.2
    (ran.1.toList ++ rest.1, rest.2)

end Sweeper

end Tenancy
