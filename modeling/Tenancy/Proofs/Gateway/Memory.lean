import Tenancy.Gateway.Basic
import Tenancy.Proofs.Store.Memory

/-!
# Calls over twins

A call over one of two twins is answered as over the other, but for the number of subscribers that a
publish reaches, and opens the same feed.
-/

namespace Tenancy

/-- Replies over twins: the answers are the same, or tell of a publish that reached no more on the
left than on the right. -/
structure Reply.Twins (D : List Nat) (r r' : Reply) : Prop where
  answer : r.answer = r'.answer ∨
    ∃ m n, m ≤ n ∧ r.answer = .ok (.published m) ∧ r'.answer = .ok (.published n)
  store : r.store.Twins D r'.store
  feed : r'.feed = r.feed

namespace Gateway

variable {D : List Nat} {s s' : Store} (h : s.Twins D s') (clock : Clock) (t : Tenant)

include h

theorem twins_acquire (token key : String) (ttl : Span) :
    (acquire clock token t s key ttl).Twins D (acquire clock token t s' key ttl) := by
  obtain ⟨hanswer, htwins⟩ := h.acquire (.ofLogical t key) token clock.now ttl
  unfold acquire
  generalize Lock.acquire (.ofLogical t key) token clock.now s ttl = r,
    Lock.acquire (.ofLogical t key) token clock.now s' ttl = r' at hanswer htwins
  obtain ⟨a, s⟩ := r
  obtain ⟨a', s'⟩ := r'
  cases hanswer
  rcases a with e | _ | _
  · exact ⟨.inl rfl, htwins, rfl⟩
  · exact ⟨.inl rfl, htwins, rfl⟩
  · exact ⟨.inl rfl, htwins, rfl⟩

theorem twins_release (token key : String) :
    (release clock token t s key).Twins D (release clock token t s' key) := by
  obtain ⟨hanswer, htwins⟩ := h.release (.ofLogical t key) token clock.now
  unfold release
  generalize Lock.release (.ofLogical t key) token clock.now s = r,
    Lock.release (.ofLogical t key) token clock.now s' = r' at hanswer htwins
  obtain ⟨a, s⟩ := r
  obtain ⟨a', s'⟩ := r'
  cases hanswer
  rcases a with e | _ | _
  · exact ⟨.inl rfl, htwins, rfl⟩
  · exact ⟨.inl rfl, htwins, rfl⟩
  · exact ⟨.inl rfl, htwins, rfl⟩

theorem twins_renew (token key : String) (ttl : Span) :
    (renew clock token t s key ttl).Twins D (renew clock token t s' key ttl) := by
  obtain ⟨hanswer, htwins⟩ := h.renew (.ofLogical t key) token clock.now ttl
  unfold renew
  generalize Lock.renew (.ofLogical t key) token clock.now s ttl = r,
    Lock.renew (.ofLogical t key) token clock.now s' ttl = r' at hanswer htwins
  obtain ⟨a, s⟩ := r
  obtain ⟨a', s'⟩ := r'
  cases hanswer
  rcases a with e | _ | _
  · exact ⟨.inl rfl, htwins, rfl⟩
  · exact ⟨.inl rfl, htwins, rfl⟩
  · exact ⟨.inl rfl, htwins, rfl⟩

theorem twins_publish (hle : s.closed = false → ∀ c, s.hub.listeners c ≤ s'.hub.listeners c)
    (channel payload : String) :
    (publish clock t s channel payload).Twins D (publish clock t s' channel payload) := by
  obtain ⟨hfewer, htwins⟩ := h.publish hle (t.isolate channel) payload
  unfold publish
  generalize s.publish (t.isolate channel) payload = r,
    s'.publish (t.isolate channel) payload = r' at hfewer htwins
  obtain ⟨a, s⟩ := r
  obtain ⟨a', s'⟩ := r'
  cases hfewer with
  | error e => exact ⟨.inl rfl, htwins, rfl⟩
  | ok hmn => exact ⟨.inr ⟨_, _, hmn, rfl, rfl⟩, htwins, rfl⟩

omit clock in
theorem twins_subscribe (names : List String) :
    (subscribe t s names).Twins D (subscribe t s' names) := by
  obtain ⟨hanswer, htwins⟩ := h.feed t names
  unfold subscribe
  generalize Feed.subscribe t names s = r, Feed.subscribe t names s' = r' at hanswer htwins
  obtain ⟨a, s⟩ := r
  obtain ⟨a', s'⟩ := r'
  cases hanswer
  cases a with
  | error e => exact ⟨.inl rfl, htwins, rfl⟩
  | ok f => exact ⟨.inl rfl, htwins, rfl⟩

theorem twins_perform (hle : s.closed = false → ∀ c, s.hub.listeners c ≤ s'.hub.listeners c)
    (fresh : String) (r : Request) :
    (perform clock fresh t r s).Twins D (perform clock fresh t r s') := by
  cases r with
  | acquire key ttl => exact twins_acquire h clock t fresh key ttl
  | release key token => exact twins_release h clock t token key
  | renew key token ttl => exact twins_renew h clock t token key ttl
  | publish channel payload => exact twins_publish h clock t hle channel payload
  | subscribe names => exact twins_subscribe h t names

theorem twins_call (hle : s.closed = false → ∀ c, s.hub.listeners c ≤ s'.hub.listeners c)
    (fresh : String) (g : Gateway) (r : Request) :
    (g.call clock fresh t r s).Twins D (g.call clock fresh t r s') := by
  unfold call
  split
  · exact ⟨.inl rfl, h, rfl⟩
  · obtain ⟨hanswer, hstore, hfeed⟩ := twins_perform h clock t hle fresh r
    exact ⟨hanswer, hstore, hfeed⟩

end Gateway

end Tenancy
