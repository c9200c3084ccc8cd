import Tenancy.Time.Clock

/-!
# Held entries

The entries that a store holds: a value under each key, some with a deadline. An entry is
expired from its deadline on, but stays held until somebody removes it: `get` removes the entry
it finds expired, `purge` all of them. The operations give their answer and the entries left.
-/

namespace Tenancy

/-- A value, and when it expires; without a deadline it never does. -/
structure Entry where
  value : String
  deadline : Option Instant := none
  deriving DecidableEq, Repr, Inhabited

namespace Entry

/-- When an entry that gets lifetime `ttl` at `now` expires: never, if that cannot be
represented. -/
def deadlineAfter (now : Instant) (ttl : Option Span) : Option Instant := ttl.bind now.after?

def isExpired (e : Entry) (now : Instant) : Bool :=
  match e.deadline with
  | some t => t ≤ now
  | none => false

end Entry

/-- Entries by key, each key once. -/
abbrev Entries := List (String × Entry)

namespace Entries

def find? (es : Entries) (key : String) : Option Entry :=
  match es with
  | [] => none
  | (k, e) :: rest => if k = key then some e else find? rest key

/-- Puts an entry under a key, over the one that is there. -/
def insert (key : String) (e : Entry) : Entries → Entries
  | [] => [(key, e)]
  | (k, old) :: rest => if k = key then (key, e) :: rest else (k, old) :: insert key e rest

def erase (key : String) (es : Entries) : Entries := es.filter (·.1 ≠ key)

/-- The entry under a key, if it is there and not expired. -/
def live? (es : Entries) (key : String) (now : Instant) : Option Entry :=
  match es.find? key with
  | some e => if e.isExpired now then none else some e
  | none => none

/-! ## Lookup -/

theorem find?_insert (es : Entries) (key key' : String) (e : Entry) :
    find? (insert key e es) key' = if key = key' then some e else find? es key' := by
  induction es with
  | nil => simp [insert, find?]
  | cons x rest ih =>
    obtain ⟨k, old⟩ := x
    by_cases hk : k = key <;> by_cases hk' : key = key' <;> simp_all [insert, find?]

theorem find?_erase (es : Entries) (key key' : String) :
    find? (erase key es) key' = if key = key' then none else find? es key' := by
  induction es with
  | nil => simp [erase, find?]
  | cons x rest ih =>
    obtain ⟨k, old⟩ := x
    simp only [erase] at ih
    by_cases hk : k = key <;> by_cases hk' : key = key' <;>
      simp_all [erase, find?]

/-! ## Operations -/

section Operations

variable (es : Entries) (now : Instant)

def get (key : String) : Option String × Entries :=
  match es.find? key with
  | none => (none, es)
  | some e => if e.isExpired now then (none, es.erase key) else (some e.value, es)

def set (key value : String) (ttl : Option Span) : Entries :=
  es.insert key ⟨value, Entry.deadlineAfter now ttl⟩

/-- Sets the key unless a live entry is there, and tells whether it did. -/
def setIfAbsent (key value : String) (ttl : Option Span) : Bool × Entries :=
  match es.live? key now with
  | some _ => (false, es)
  | none => (true, es.set now key value ttl)

/-- Removes the key, and tells whether a live entry was there. -/
def delete (key : String) : Bool × Entries :=
  match es.find? key with
  | none => (false, es)
  | some e => (!e.isExpired now, es.erase key)

/-- Removes the key if a live entry with the expected value is there. -/
def compareAndDelete (key expected : String) : Bool × Entries :=
  match es.live? key now with
  | some e => if e.value = expected then (true, es.erase key) else (false, es)
  | none => (false, es)

/-- Gives a live entry with the expected value a new lifetime. -/
def compareAndExpire (key expected : String) (ttl : Span) : Bool × Entries :=
  match es.live? key now with
  | some e =>
    if e.value = expected then
      (true, es.insert key ⟨e.value, Entry.deadlineAfter now (some ttl)⟩)
    else (false, es)
  | none => (false, es)

/-- Gives a live entry a new lifetime. -/
def expire (key : String) (ttl : Span) : Bool × Entries :=
  match es.live? key now with
  | some e => (true, es.insert key ⟨e.value, Entry.deadlineAfter now (some ttl)⟩)
  | none => (false, es)

/-- What is left of the lifetime of a live entry with a deadline. -/
def ttl? (key : String) : Option Span :=
  (es.live? key now).bind fun e => e.deadline.map now.spanTo

/-- Removes the expired entries, and tells how many. -/
def purge : Nat × Entries :=
  let kept := es.filter fun x => !x.2.isExpired now
  (es.length - kept.length, kept)

end Operations

end Entries

end Tenancy
