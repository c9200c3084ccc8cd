import Tenancy.Proofs.Lock.Expiry
import Tenancy.Proofs.Rpc.Refinement

/-!
# The end of a lease saturates

The end of a lease is the sum of a time and a span, or the last time of the calendar. The guarded
steps of `Lease.guardedEnd` come to the same end for every time of the calendar and every span
(`expiry_eq_guardedEnd`), and that end is rounded down to a number of milliseconds that fits a signed
word (`toInt_millisOfTime`). The deadline of the entry has a guard of its own: it is not there at all
where the line of instants ends too early. So it is never before the end that is told
(`expiry_saturates`).
-/

namespace Tenancy

/-! ## Times of the calendar -/

namespace Timestamp

/-- A time of the calendar that is not in a leap second. -/
structure IsRegular (t : Timestamp) : Prop where
  first_le : first.secs ≤ t.secs
  le_last : t.secs ≤ last.secs
  nanos_lt : t.nanos < 1000000000

variable {t : Timestamp} {d : Span}

theorem ns_last : last.ns = last.secs * 1000000000 + 999999999 := rfl

theorem IsRegular.ns_bounds (h : t.IsRegular) : first.ns ≤ t.ns ∧ t.ns ≤ last.ns := by
  have hfirst : first.ns = first.secs * 1000000000 := rfl
  obtain ⟨hlo, hhi, hnanos⟩ := h
  rw [hfirst, ns_last, ns]
  omega

theorem isRegular_last : last.IsRegular := ⟨by decide, by decide, by decide⟩

theorem isRegular_ofNs {n : Int} (hlo : first.ns ≤ n) (hhi : n ≤ last.ns) : (ofNs n).IsRegular := by
  have hfirst : first.ns = first.secs * 1000000000 := rfl
  rw [hfirst] at hlo
  rw [ns_last] at hhi
  refine ⟨?_, ?_, ?_⟩
  · show first.secs ≤ n / 1000000000
    omega
  · show n / 1000000000 ≤ last.secs
    omega
  · show (n % 1000000000).toNat < 1000000000
    omega

theorem IsRegular.shiftCapped (h : t.IsRegular) (d : Span) : (t.shiftCapped d).IsRegular := by
  unfold Timestamp.shiftCapped
  split
  · rename_i hle
    have hlo := h.ns_bounds.1
    exact isRegular_ofNs (by omega) hle
  · exact isRegular_last

theorem add?_eq (t : Timestamp) (d : Span) :
    t.add? d = if t.ns + d.ns ≤ last.ns then some (t.shift d) else none := by
  have hsecs : t.secs + d.secs + ((t.nanos + d.subsec) / 1000000000 : Nat) =
      (t.ns + d.ns) / 1000000000 := by
    unfold ns Span.secs Span.subsec
    omega
  have hnanos : (t.nanos + d.subsec) % 1000000000 = ((t.ns + d.ns) % 1000000000).toNat := by
    unfold ns Span.subsec
    omega
  have hfits : (t.ns + d.ns) / 1000000000 ≤ last.secs ↔ t.ns + d.ns ≤ last.ns := by
    rw [ns_last]
    omega
  simp only [add?, hsecs, hnanos, hfits]
  rfl

end Timestamp

/-! ## Guards -/

namespace Lease

variable {now : Timestamp}

/-- A span that is too long for the first guard passes the calendar from every time in it. -/
theorem last_lt_of_signedLimit_lt (h : now.IsRegular) {ttl : Span} (httl : Span.signedLimit < ttl) :
    Timestamp.last.ns < now.ns + ttl.ns := by
  have hspan : Timestamp.last.ns - Timestamp.first.ns < Span.signedLimit.ns := by decide
  have hlo := h.ns_bounds.1
  rw [Span.lt_def] at httl
  omega

theorem expiry_eq_guardedEnd (h : now.IsRegular) (ttl : Span) :
    expiry now ttl = guardedEnd now ttl := by
  unfold expiry guardedEnd Span.signed?
  by_cases httl : ttl ≤ Span.signedLimit
  · rw [if_pos httl, Option.bind_some, Timestamp.add?_eq, Timestamp.shiftCapped]
    split <;> rfl
  · have hlast := last_lt_of_signedLimit_lt h (Nat.lt_of_not_le httl)
    rw [if_neg httl, Timestamp.shiftCapped, if_neg (Int.not_le.2 hlast)]
    rfl

theorem ns_expiry (now : Timestamp) (ttl : Span) :
    (expiry now ttl).ns = min (now.ns + ttl.ns) Timestamp.last.ns := now.ns_shiftCapped ttl

end Lease

/-! ## On the wire -/

namespace Rpc

/-- Every time of the calendar has a number of milliseconds that fits. -/
theorem toInt_millisOfTime {t : Timestamp} (h : t.IsRegular) :
    (millisOfTime t).toInt = t.ns / 1000000 := by
  have hlast : Timestamp.last.ns / 1000000 < 2 ^ 63 := by decide
  have hfirst : -2 ^ 63 ≤ Timestamp.first.ns / 1000000 := by decide
  obtain ⟨hlo, hhi⟩ := h.ns_bounds
  rw [millisOfTime, Timestamp.millis_eq]
  exact Int64.toInt_ofInt_of_le (by omega) (by omega)

/-- The end of a lease that an answer tells a remote caller. -/
def leaseEnd? : Except Status Result → Option Int64
  | .ok (.acquireLock m) => m.expiresAt
  | .ok (.renewLock m) => m.expiresAt
  | _ => none

/-- Remote callers are told the end of a lease whenever others would be, and in milliseconds. -/
theorem leaseEnd?_replyTo (a : Except GatewayError Response) :
    leaseEnd? (replyTo a) = (Response.leaseEnd? a).map millisOfTime := by
  rcases a with e | response
  · rfl
  · cases response <;> rfl

end Rpc

/-- The end of a lease that starts at a time of the calendar is a time of the calendar: the sum in
unbounded nanoseconds, or the last time if that is earlier, as the guarded steps have it. A longer
lease and a later start end no earlier. In milliseconds, rounded down, the end fits a signed word.
Whoever is granted the lease is told this end, directly or, in milliseconds, as a remote caller, and
the deadline of the entry, if it has one, is no earlier. -/
theorem expiry_saturates {now : Timestamp} (hnow : now.IsRegular) (ttl : Span) :
    let e := Lease.expiry now ttl
    e.IsRegular ∧ e.ns = min (now.ns + ttl.ns) Timestamp.last.ns ∧ e = Lease.guardedEnd now ttl ∧
      (∀ ttl', ttl ≤ ttl' → e.ns ≤ (Lease.expiry now ttl').ns) ∧
      (∀ now' : Timestamp, now.ns ≤ now'.ns → e.ns ≤ (Lease.expiry now' ttl).ns) ∧
      (Rpc.millisOfTime e).toInt = e.ns / 1000000 ∧
      ∀ (g : Gateway) (i : Instant) fresh (t : Tenant) (r : Request) (s : Store) key,
        r.lease? = some (key, ttl) →
        Response.succeeded (g.call ⟨i, now⟩ fresh t r s).answer = true →
        let reply := g.call ⟨i, now⟩ fresh t r s
        Response.leaseEnd? reply.answer = some e ∧
          Rpc.leaseEnd? (Rpc.replyTo reply.answer) = some (Rpc.millisOfTime e) ∧
          ∃ entry, reply.store.entries.find? (t.isolate key) = some entry ∧
            ∀ d, entry.deadline = some d → e.ns ≤ now.ns + (d.ns - i.ns) := by
  intro e
  have hregular : e.IsRegular := hnow.shiftCapped ttl
  have hsum : e.ns = min (now.ns + ttl.ns) Timestamp.last.ns := Lease.ns_expiry now ttl
  refine ⟨hregular, hsum, Lease.expiry_eq_guardedEnd hnow ttl, fun ttl' hle => ?_,
    fun now' hle => ?_, Rpc.toInt_millisOfTime hregular, fun g i fresh t r s key hr hs => ?_⟩
  · rw [Span.le_def] at hle
    rw [hsum, Lease.ns_expiry]
    omega
  · rw [hsum, Lease.ns_expiry]
    omega
  · obtain ⟨hend, v, hfind⟩ := Gateway.leased_of_succeeded hr hs
    refine ⟨hend, ?_, _, hfind, fun d hd => ?_⟩
    · rw [Rpc.leaseEnd?_replyTo, hend]
      rfl
    · -- a deadline that is there is the sum itself
      cases (Instant.after?_eq_some_iff.1 hd).2
      rw [hsum]
      simp only [Int.natCast_add]
      omega

/-- A lease of two seconds that starts in the last second of the calendar ends with the calendar; the
deadline of its entry is two seconds away all the same. -/
theorem expiry_saturates_last_second :
    let now : Timestamp := ⟨Timestamp.last.secs, 1000000⟩
    let g : Gateway := {}
    let t : Tenant := ⟨"u", none⟩
    let reply := g.call ⟨⟨5⟩, now⟩ "T" t (.acquire "job" (.ofSecs 2)) (.ofCapacity 1)
    now.IsRegular ∧ Response.leaseEnd? reply.answer = some .last ∧
      Rpc.leaseEnd? (Rpc.replyTo reply.answer) = some (Rpc.millisOfTime .last) ∧
      (Rpc.millisOfTime .last).toInt = 8210266876799999 ∧
      reply.store.entries.find? (t.isolate "job") = some ⟨"T", some ⟨2000000005⟩⟩ := by
  intro now g t reply
  have hnow : now.IsRegular := ⟨by decide, by decide, by decide⟩
  have hlast : Lease.expiry now (.ofSecs 2) = .last := by decide
  have hs : Response.succeeded reply.answer = true := by decide +kernel
  obtain ⟨-, -, -, -, -, hmillis, hcalls⟩ := expiry_saturates hnow (.ofSecs 2)
  obtain ⟨htold, hremote, -⟩ :=
    hcalls g ⟨5⟩ "T" t (.acquire "job" (.ofSecs 2)) (.ofCapacity 1) "job" rfl hs
  rw [hlast] at hmillis htold hremote
  exact ⟨hnow, htold, hremote, hmillis.trans (by decide), by decide +kernel⟩

end Tenancy
