import Tenancy.Gateway.Basic
import Tenancy.Proofs.Store.Open

/-!
# What a call does

A refused call leaves the store alone. An admitted call of an open store answers, and leaves the
store, as `perform` does: one equation for each request, which says what became of the entries, the
hub and the feed.
-/

namespace Tenancy

/-- Answer, store and feed, without the effects. -/
def Reply.outcome (r : Reply) : Except GatewayError Response × Store × Option Feed :=
  (r.answer, r.store, r.feed)

theorem Reply.outcome_eq_iff {r : Reply} {a : Except GatewayError Response} {s : Store}
    {f : Option Feed} : r.outcome = (a, s, f) ↔ r.answer = a ∧ r.store = s ∧ r.feed = f := by
  simp [outcome]

namespace Gateway

variable {g : Gateway} {clock : Clock} {fresh : String} {t : Tenant} {r : Request} {s : Store}

/-! ## Admission -/

/-- The call reaches the store. -/
def Admits (g : Gateway) (t : Tenant) (r : Request) : Prop := (g.admission t r).1 = .ok ()

theorem admits_or_refused (g : Gateway) (t : Tenant) (r : Request) :
    g.Admits t r ∨ ∃ e, (g.admission t r).1 = .error e := by
  unfold Admits
  cases (g.admission t r).1 with
  | ok u => exact .inl rfl
  | error e => exact .inr ⟨e, rfl⟩

theorem call_of_refused (clock : Clock) (fresh : String) (s : Store) {e : GatewayError}
    (h : (g.admission t r).1 = .error e) :
    (g.call clock fresh t r s).outcome = (.error e, s, none) := by
  unfold call
  split
  · rename_i e' log he
    rw [he] at h
    cases h
    rfl
  · rename_i log he
    rw [he] at h
    cases h

theorem call_of_admits (clock : Clock) (fresh : String) (s : Store) (h : g.Admits t r) :
    (g.call clock fresh t r s).outcome = (perform clock fresh t r s).outcome := by
  unfold call
  split
  · rename_i e log he
    rw [Admits, he] at h
    cases h
  · rfl

/-! ## Work -/

section

variable (ho : s.available = .ok ())

include ho

theorem perform_acquire (key : String) (ttl : Span) :
    (perform clock fresh t (.acquire key ttl) s).outcome =
      (.ok (.acquired (Lease.grant
        (s.entries.setIfAbsent clock.now (t.isolate key) fresh (some ttl)).1 fresh clock.wall ttl)),
       { s with entries := (s.entries.setIfAbsent clock.now (t.isolate key) fresh (some ttl)).2 },
       none) := by
  simp only [perform, acquire, Lock.acquire, Store.setIfAbsent, Store.onEntries_of_available ho,
    Key.ofLogical]
  cases (s.entries.setIfAbsent clock.now (t.isolate key) fresh (some ttl)).1 <;> rfl

theorem perform_release (key token : String) :
    (perform clock fresh t (.release key token) s).outcome =
      (.ok (.released (s.entries.compareAndDelete clock.now (t.isolate key) token).1),
       { s with entries := (s.entries.compareAndDelete clock.now (t.isolate key) token).2 },
       none) := by
  simp only [perform, release, Lock.release, Store.compareAndDelete,
    Store.onEntries_of_available ho, Key.ofLogical]
  cases (s.entries.compareAndDelete clock.now (t.isolate key) token).1 <;> rfl

theorem perform_renew (key token : String) (ttl : Span) :
    (perform clock fresh t (.renew key token ttl) s).outcome =
      (.ok (.renewed (Lease.renewal
        (s.entries.compareAndExpire clock.now (t.isolate key) token ttl).1 clock.wall ttl)),
       { s with entries := (s.entries.compareAndExpire clock.now (t.isolate key) token ttl).2 },
       none) := by
  simp only [perform, renew, Lock.renew, Store.compareAndExpire, Store.onEntries_of_available ho,
    Key.ofLogical]
  cases (s.entries.compareAndExpire clock.now (t.isolate key) token ttl).1 <;> rfl

theorem perform_publish (channel payload : String) :
    (perform clock fresh t (.publish channel payload) s).outcome =
      (.ok (.published (s.hub.listeners (t.isolate channel))),
       { s with hub := (s.hub.publish (t.isolate channel) payload).2 }, none) := by
  simp only [perform, publish, Store.publish_of_available ho]
  rfl

theorem perform_subscribe (names : List String) :
    (perform clock fresh t (.subscribe names) s).outcome =
      (.ok .subscribed,
       { s with
         hub := (s.hub.subscribe (t.channels names)).2
         faults := s.faults.map fun f => { f with lines := f.lines ++ [{ id := s.hub.nextId }] } },
       some ⟨t, t.channels names, s.hub.nextId⟩) := by
  simp only [perform, subscribe, Feed.subscribe, Store.subscribe_of_available ho]
  rfl

end

/-- A store that does not answer is left alone, and the caller is told its error. -/
theorem perform_of_unavailable {e : StoreError} (h : s.available = .error e) :
    (perform clock fresh t r s).outcome = (.error (.ofStore e), s, none) := by
  cases r <;>
    simp [perform, acquire, release, renew, publish, subscribe, Lock.acquire, Lock.release,
      Lock.renew, Store.setIfAbsent, Store.compareAndDelete, Store.compareAndExpire,
      Store.onEntries, Store.publish, Feed.subscribe, Store.subscribe, h, failed, Reply.outcome]

end Gateway

end Tenancy
