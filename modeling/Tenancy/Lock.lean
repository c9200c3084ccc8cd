import Tenancy.Store.Basic

/-!
# Locks

A lock is an entry whose value is the token of its owner and whose lifetime is the lease. Each
operation is one store call, so nobody gets between looking and writing.
-/

namespace Tenancy.Lock

variable (k : Key) (token : String) (now : Instant) (s : Store)

/-- Takes the lock if it is free, and tells whether it was. -/
def acquire (ttl : Span) : Except StoreError Bool × Store :=
  s.setIfAbsent now k.physical token (some ttl)

/-- Frees the lock if `token` holds it. -/
def release : Except StoreError Bool × Store := s.compareAndDelete now k.physical token

/-- Gives the lock a new lease from `now` on if `token` holds it. -/
def renew (ttl : Span) : Except StoreError Bool × Store :=
  s.compareAndExpire now k.physical token ttl

end Tenancy.Lock
