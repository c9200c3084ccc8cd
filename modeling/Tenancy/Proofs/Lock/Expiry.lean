import Tenancy.Proofs.Lock.Holder

/-!
# When a lease is said to end

The deadline of a lock is set by a reading of the line of instants, and the end that the caller is
told by a later reading of the wall clock. Here both lines are one: `origin` is the wall-clock time
of the first instant, in nanoseconds, and `Clock.lag` the time between the two readings. The end
that is told is late by that time at most, and `lease_end_law` says when it is not late at all.
-/

namespace Tenancy

namespace Timestamp

theorem ns_ofNs (n : Int) : (ofNs n).ns = n := by
  show n / 1000000000 * 1000000000 + ((n % 1000000000).toNat : Int) = n
  omega

theorem ns_shiftCapped (t : Timestamp) (d : Span) :
    (t.shiftCapped d).ns = min (t.ns + d.ns) last.ns := by
  unfold shiftCapped
  split
  · rename_i hle
    rw [shift, ns_ofNs, min_eq_left hle]
  · rename_i hgt
    rw [min_eq_right (Int.le_of_not_le hgt)]

end Timestamp

/-- How long after its instant the wall clock was read. -/
def Clock.lag (origin : Int) (c : Clock) : Int := c.wall.ns - (origin + c.now.ns)

/-- The key and the length of the lease that a request asks for. -/
def Request.lease? : Request → Option (String × Span)
  | .acquire key ttl => some (key, ttl)
  | .renew key _ ttl => some (key, ttl)
  | _ => none

/-- The end of a lease that an answer tells. -/
def Response.leaseEnd? : Except GatewayError Response → Option Timestamp
  | .ok (.acquired g) => g.expiresAt
  | .ok (.renewed r) => r.expiresAt
  | _ => none

/-! ## The two ends of a lease -/

section Ends

variable {clock : Clock} {ttl : Span} {origin : Int}

theorem isExpired_after_iff {s i : Instant} {v : String} :
    (Entry.mk v (s.after? ttl)).isExpired i = true ↔
      s.ns + ttl.ns ≤ Instant.last.ns ∧ s.ns + ttl.ns ≤ i.ns := by
  unfold Entry.isExpired Instant.after?
  by_cases hle : s.ns + ttl.ns ≤ Instant.last.ns
  · simp only [hle, if_true, true_and, decide_eq_true_eq]
    rfl
  · simp [hle]

/-- The told end is late by the time between the readings at most. -/
theorem expiry_le_add_lag {i : Instant} {v : String}
    (hx : (Entry.mk v (clock.now.after? ttl)).isExpired i = true) :
    (Lease.expiry clock.wall ttl).ns ≤ origin + i.ns + clock.lag origin := by
  obtain ⟨-, hend⟩ := isExpired_after_iff.1 hx
  rw [Lease.expiry, Timestamp.ns_shiftCapped, Clock.lag]
  omega

theorem expiry_le_iff (hread : origin + clock.now.ns ≤ clock.wall.ns) (v : String) :
    (∀ i, (Entry.mk v (clock.now.after? ttl)).isExpired i = true →
      (Lease.expiry clock.wall ttl).ns ≤ origin + i.ns) ↔
    clock.now.after? ttl = none ∨ clock.lag origin = 0 ∨
      Timestamp.last.ns ≤ origin + clock.now.ns + ttl.ns := by
  rw [Lease.expiry, Timestamp.ns_shiftCapped, Clock.lag]
  by_cases hle : clock.now.ns + ttl.ns ≤ Instant.last.ns
  · have hsome : clock.now.after? ttl ≠ none := by simp [Instant.after?, hle]
    constructor
    · intro hall
      -- the deadline is the first instant at which the entry is expired
      have hend := hall ⟨clock.now.ns + ttl.ns⟩ (isExpired_after_iff.2 ⟨hle, Nat.le_refl _⟩)
      right
      simp only at hend
      omega
    · intro hcases i hx
      obtain ⟨-, hend⟩ := isExpired_after_iff.1 hx
      rcases hcases with hnone | hlag | hlast
      · exact absurd hnone hsome
      · omega
      · omega
  · refine ⟨fun _ => .inl (if_neg hle), fun _ i hx => ?_⟩
    exact absurd (isExpired_after_iff.1 hx).1 hle

end Ends

/-! ## Calls -/

section Calls

variable {g : Gateway} {clock : Clock} {fresh : String} {t : Tenant} {r : Request} {s : Store}

theorem Gateway.admits_of_succeeded
    (hs : Response.succeeded (g.call clock fresh t r s).answer = true) : g.Admits t r := by
  rcases g.admits_or_refused t r with ha | ⟨e, he⟩
  · exact ha
  · obtain ⟨hans, -, -⟩ := Reply.outcome_eq_iff.1 (Gateway.call_of_refused clock fresh s he)
    rw [hans] at hs
    cases hs

theorem Gateway.available_of_succeeded {key : String} {ttl : Span}
    (hr : r.lease? = some (key, ttl))
    (hs : Response.succeeded (g.call clock fresh t r s).answer = true) : s.available = .ok () := by
  obtain ⟨hans, -, -⟩ := Reply.outcome_eq_iff.1
    (Gateway.call_of_admits clock fresh s (Gateway.admits_of_succeeded hs))
  cases hopen : s.available with
  | ok => rfl
  | error e =>
    rw [hans] at hs
    cases r with
    | acquire | renew =>
      simp only [perform, acquire, renew, Lock.acquire, Lock.renew, Store.setIfAbsent,
        Store.compareAndExpire, Store.onEntries, hopen, failed] at hs
      cases hs
    | release | publish | subscribe => cases hr

/-- A lock that was taken or extended has the deadline of its lease, and its caller is told the
end by the wall clock. -/
theorem Gateway.leased_of_succeeded {key : String} {ttl : Span} (hr : r.lease? = some (key, ttl))
    (hs : Response.succeeded (g.call clock fresh t r s).answer = true) :
    Response.leaseEnd? (g.call clock fresh t r s).answer = some (Lease.expiry clock.wall ttl) ∧
      ∃ v, (g.call clock fresh t r s).store.entries.find? (t.isolate key) =
        some ⟨v, clock.now.after? ttl⟩ := by
  have ha := Gateway.admits_of_succeeded hs
  have ho := Gateway.available_of_succeeded hr hs
  cases r with
  | acquire key' ttl' =>
    cases hr
    obtain ⟨hans, hst, -⟩ := Reply.outcome_eq_iff.1
      ((Gateway.call_of_admits clock fresh s ha).trans (Gateway.perform_acquire ho key ttl))
    rw [hans] at hs
    rw [hans, hst]
    unfold Entries.setIfAbsent at hs ⊢
    cases hl : s.entries.live? (t.isolate key) clock.now with
    | some e =>
      rw [hl] at hs
      cases hs
    | none => exact ⟨rfl, fresh, (Entries.find?_insert ..).trans (if_pos rfl)⟩
  | renew key' token ttl' =>
    cases hr
    obtain ⟨hans, hst, -⟩ := Reply.outcome_eq_iff.1
      ((Gateway.call_of_admits clock fresh s ha).trans (Gateway.perform_renew ho key token ttl))
    rw [hans] at hs
    rw [hans, hst]
    unfold Entries.compareAndExpire at hs ⊢
    cases hl : s.entries.live? (t.isolate key) clock.now with
    | none =>
      rw [hl] at hs
      cases hs
    | some e =>
      simp only [hl] at hs ⊢
      by_cases hv : e.value = token
      · rw [if_pos hv]
        exact ⟨rfl, e.value, (Entries.find?_insert ..).trans (if_pos rfl)⟩
      · rw [if_neg hv] at hs
        cases hs
  | release | publish | subscribe => cases hr

/-- Nobody takes a lock whose entry is live. -/
theorem Gateway.not_succeeded_of_live {key : String} {ttl : Span} {e : Entry}
    (hl : s.entries.live? (t.isolate key) clock.now = some e) :
    Response.succeeded (g.call clock fresh t (.acquire key ttl) s).answer = false := by
  refine Bool.eq_false_iff.2 fun hs => ?_
  have ha := Gateway.admits_of_succeeded hs
  have ho := Gateway.available_of_succeeded rfl hs
  obtain ⟨hans, -, -⟩ := Reply.outcome_eq_iff.1
    ((Gateway.call_of_admits clock fresh s ha).trans (Gateway.perform_acquire ho key ttl))
  rw [hans, Entries.setIfAbsent_fst, hl] at hs
  cases hs

end Calls

/-- A caller that took or extended a lock is told an end of its lease that is late by the time
between the two readings at most: that long before it, no other call takes the lock. It is not late
at all just if the entry never expires, the two readings are of the same time, or the lease passes
the last wall-clock time. -/
theorem lease_end_law (origin : Int) {g : Gateway} {clock : Clock} {fresh : String} {t : Tenant}
    {r : Request} {s : Store} {key : String} {ttl : Span}
    (hread : origin + clock.now.ns ≤ clock.wall.ns) (hr : r.lease? = some (key, ttl))
    (hs : Response.succeeded (g.call clock fresh t r s).answer = true) :
    let reply := g.call clock fresh t r s
    ∃ e entry, Response.leaseEnd? reply.answer = some e ∧
      reply.store.entries.find? (t.isolate key) = some entry ∧
      (∀ i, entry.isExpired i = true → e.ns ≤ origin + i.ns + clock.lag origin) ∧
      (∀ i : Instant, origin + i.ns + clock.lag origin < e.ns →
        ∀ (g' : Gateway) wall fresh' (t' : Tenant) key' ttl', t'.isolate key' = t.isolate key →
          Response.succeeded
            (g'.call ⟨i, wall⟩ fresh' t' (.acquire key' ttl') reply.store).answer = false) ∧
      ((∀ i, entry.isExpired i = true → e.ns ≤ origin + i.ns) ↔
        entry.deadline = none ∨ clock.lag origin = 0 ∨
          Timestamp.last.ns ≤ origin + clock.now.ns + ttl.ns) := by
  obtain ⟨hend, v, hfind⟩ := Gateway.leased_of_succeeded hr hs
  have hlate : ∀ i, (Entry.mk v (clock.now.after? ttl)).isExpired i = true →
      (Lease.expiry clock.wall ttl).ns ≤ origin + i.ns + clock.lag origin :=
    fun i hx => expiry_le_add_lag hx
  refine ⟨_, _, hend, hfind, hlate, fun i hi g' wall fresh' t' key' ttl' hkey => ?_,
    expiry_le_iff hread v⟩
  refine Gateway.not_succeeded_of_live (e := ⟨v, clock.now.after? ttl⟩) ?_
  rw [hkey, Entries.live?_eq_some_iff]
  refine ⟨hfind, Bool.eq_false_iff.2 fun hx => ?_⟩
  exact Int.not_le.2 hi (hlate i hx)

/-- The wall clock is read a microsecond after the deadline was set: nobody else takes the lock until
a microsecond before the end that its holder was told. -/
theorem lease_end_law_microsecond :
    let g : Gateway := {}
    let t : Tenant := ⟨"u", none⟩
    let r : Request := .acquire "job" (.ofMillis 1000)
    let reply := g.call ⟨⟨0⟩, ⟨0, 1000⟩⟩ "T" t r (.ofCapacity 4)
    r.lease? = some ("job", .ofMillis 1000) ∧ Response.succeeded reply.answer = true ∧
      ∃ e, Response.leaseEnd? reply.answer = some e ∧ ∀ i : Instant, (i.ns : Int) + 1000 < e.ns →
        Response.succeeded (g.call ⟨i, e⟩ "V" t r reply.store).answer = false := by
  intro g t r reply
  have hr : r.lease? = some ("job", .ofMillis 1000) := rfl
  have hs : Response.succeeded reply.answer = true := by decide +kernel
  obtain ⟨e, entry, hend, -, -, hfree, -⟩ := lease_end_law 0 (by decide) hr hs
  refine ⟨hr, hs, e, hend, fun i hi => hfree i ?_ g e "V" t "job" (.ofMillis 1000) rfl⟩
  rw [Int.zero_add]
  exact hi

/-- In the last microsecond of the lease that its holder was told, somebody else takes the lock. -/
theorem lease_end_told_late :
    let g : Gateway := {}
    let t : Tenant := ⟨"u", none⟩
    let r : Request := .acquire "job" (.ofMillis 1000)
    let reply := g.call ⟨⟨0⟩, ⟨0, 1000⟩⟩ "T" t r (.ofCapacity 4)
    ∃ e ∈ Response.leaseEnd? reply.answer, (1000000000 : Int) < e.ns ∧
      Response.succeeded (g.call ⟨⟨1000000000⟩, ⟨1, 0⟩⟩ "V" t r reply.store).answer = true := by
  decide +kernel

end Tenancy
