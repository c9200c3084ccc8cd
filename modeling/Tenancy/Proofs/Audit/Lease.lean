import Tenancy.Proofs.Audit.Record
import Tenancy.Proofs.Lock.Expiry
import Tenancy.Proofs.Lock.Lifetime

/-!
# What is recorded of a lease

The record of a lease that was taken or renewed says how many milliseconds it is long, as a word of
64 bits: longer leases leave only the remainder. `Recorded M ttl n` are all the records that gateways
make which allow leases of at most `M`; each lease that is allowed has one (`recorded_of_allowed`).
So the records tell leases exactly, apart, and in their order just if `M` is below `2 ^ 64`
milliseconds (`recorded_lease_law`).
-/

namespace Tenancy.Audit

/-- The length of a lease that a record gives, in milliseconds. -/
def Record.ttlMs? (r : Record) : Option Int :=
  match r.metadata.member? "ttl_ms" with
  | some (.int n) => some n
  | _ => none

/-! ## Calls -/

section Calls

variable {g : Gateway} {clock : Clock} {fresh : String} {t : Tenant} {r : Request} {s : Store}
  {key : String} {ttl : Span}

theorem ttlMs?_of_describes (hr : r.lease? = some (key, ttl)) {record : Record}
    (h : r.Describes record.operation record.metadata) :
    record.ttlMs? = some ((ttl.millis % 2 ^ 64 : Nat) : Int) := by
  obtain ⟨user, organization, operation, metadata, recordedAt⟩ := record
  cases h with
  | acquire | renew =>
    cases hr
    rfl
  | release | publish => cases hr

theorem change?_of_succeeded {a : Except GatewayError Response} (hs : Response.succeeded a = true)
    (now : Timestamp) : r.change? t now a = some ⟨t, r, now⟩ := by
  rcases a with e | response
  · cases hs
  · cases response with
    | acquired g => exact if_pos hs
    | released success => exact if_pos hs
    | renewed r => exact if_pos hs
    | published n => cases hs
    | subscribed => cases hs

/-- A lease that was taken or renewed has one record, with its milliseconds as a word. -/
theorem records_of_succeeded (hr : r.lease? = some (key, ttl))
    (hs : Response.succeeded (g.call clock fresh t r s).answer = true) :
    ∃ record, (g.call clock fresh t r s).effects.records = [record] ∧
      record.ttlMs? = some ((ttl.millis % 2 ^ 64 : Nat) : Int) := by
  have haudited := (Gateway.audited_call clock fresh t s g r).records
  rw [change?_of_succeeded hs, Option.toList_some] at haudited
  obtain ⟨record, rest, hrecorded, hrest, hrecords⟩ := List.forall₂_cons_left_iff.1 haudited
  cases List.forall₂_nil_left_iff.1 hrest
  exact ⟨record, hrecords, ttlMs?_of_describes hr hrecorded.describes⟩

end Calls

/-! ## Records of leases -/

/-- A gateway that allows leases of at most `M` gave or renewed one of length `ttl`, and `n` is the
length in a record of that call. -/
def Recorded (M ttl : Span) (n : Option Int) : Prop :=
  ∃ (g : Gateway) (clock : Clock) (fresh : String) (t : Tenant) (r : Request) (s : Store)
    (key : String), g.settings.maxLockTtl = M ∧ r.lease? = some (key, ttl) ∧
      Response.succeeded (g.call clock fresh t r s).answer = true ∧
      ∃ record ∈ (g.call clock fresh t r s).effects.records, record.ttlMs? = n

variable {M ttl : Span} {n : Option Int}

theorem Recorded.eq (h : Recorded M ttl n) : n = some ((ttl.millis % 2 ^ 64 : Nat) : Int) := by
  obtain ⟨g, clock, fresh, t, r, s, key, -, hr, hs, record, hmem, rfl⟩ := h
  obtain ⟨record', hrecords, hms⟩ := records_of_succeeded hr hs
  rw [hrecords, List.mem_singleton] at hmem
  rw [hmem, hms]

/-- An empty store gives a new lease to whoever asks for one that is allowed. -/
theorem recorded_of_allowed (hpos : 0 < ttl.ns) (hle : ttl ≤ M) :
    Recorded M ttl (some ((ttl.millis % 2 ^ 64 : Nat) : Int)) := by
  let g : Gateway := { settings := { maxLockTtl := M } }
  have ha : g.Admits ⟨"u", none⟩ (.acquire "job" ttl) := by
    show (checkTtl ttl M).mapError GatewayError.ofValidation = .ok ()
    rw [checkTtl_eq_ok_iff.2 ⟨hpos, hle⟩]
    rfl
  have hs : Response.succeeded
      (g.call default "" ⟨"u", none⟩ (.acquire "job" ttl) (.ofCapacity 1)).answer = true := by
    obtain ⟨hanswer, -, -⟩ := Reply.outcome_eq_iff.1
      ((Gateway.call_of_admits default "" (.ofCapacity 1) ha).trans
        (Gateway.perform_acquire rfl "job" ttl))
    rw [hanswer]
    rfl
  obtain ⟨record, hrecords, hms⟩ := records_of_succeeded rfl hs
  exact ⟨g, default, "", ⟨"u", none⟩, _, _, "job", rfl, rfl, hs, record,
    hrecords ▸ List.mem_singleton_self record, hms⟩

theorem Recorded.le (h : Recorded M ttl n) : ttl ≤ M := by
  obtain ⟨g, clock, fresh, t, r, s, key, rfl, hr, hs, -⟩ := h
  refine Gateway.ttl_le_of_admits (Gateway.admits_of_succeeded hs) ?_
  cases r with
  | acquire | renew =>
    cases hr
    rfl
  | release | publish | subscribe => cases hr

/-! ## What records tell -/

/-- The recorded lengths are the lengths of the leases in whole milliseconds. -/
def TellsExactly (M : Span) : Prop := ∀ ttl n, Recorded M ttl n → n = some (ttl.millis : Int)

/-- Leases with the same recorded length differ by less than a millisecond. -/
def TellsApart (M : Span) : Prop :=
  ∀ ttl ttl' n, Recorded M ttl n → Recorded M ttl' n → ttl'.ns < ttl.ns + 1000000

/-- Of two leases the longer one is not recorded as shorter. -/
def TellsInOrder (M : Span) : Prop :=
  ∀ ttl ttl' n n', ttl ≤ ttl' → Recorded M ttl (some n) → Recorded M ttl' (some n') → n ≤ n'

/-- Below the first length that does not fit, the word is the number itself. -/
theorem Recorded.eq_millis (h : Recorded M ttl n) (hM : M.millis < 2 ^ 64) :
    n = some (ttl.millis : Int) := by
  have hle : ttl.millis ≤ M.millis := Nat.div_le_div_right h.le
  rw [h.eq, Nat.mod_eq_of_lt (Nat.lt_of_le_of_lt hle hM)]

/-- The first length that does not fit is recorded as nothing at all. -/
theorem recorded_remainder (hM : 2 ^ 64 ≤ M.millis) : Recorded M (.ofMillis (2 ^ 64)) (some 0) :=
  recorded_of_allowed (by decide) (Span.ofMillis_le_iff.2 hM)

theorem recorded_short (hM : 2 ^ 64 ≤ M.millis) (ns : Nat) (hpos : 0 < ns) (hns : ns ≤ 1000000) :
    Recorded M ⟨ns⟩ (some ((ns / 1000000 % 2 ^ 64 : Nat) : Int)) := by
  refine recorded_of_allowed hpos (Nat.le_trans ?_ (Span.ofMillis_le_iff.2 hM))
  exact Nat.le_trans hns (by decide)

theorem tellsExactly_iff : TellsExactly M ↔ M.millis < 2 ^ 64 := by
  refine ⟨fun h => ?_, fun hM ttl n hn => hn.eq_millis hM⟩
  by_contra hM
  have heq := h _ _ (recorded_remainder (Nat.le_of_not_lt hM))
  exact absurd heq (by decide)

theorem tellsApart_iff : TellsApart M ↔ M.millis < 2 ^ 64 := by
  refine ⟨fun h => ?_, fun hM ttl ttl' n hn hn' => ?_⟩
  · by_contra hM
    have hM := Nat.le_of_not_lt hM
    -- a nanosecond is recorded as nothing too
    have hlt := h _ _ _ (recorded_short hM 1 (by decide) (by decide)) (recorded_remainder hM)
    exact absurd hlt (by decide)
  · have heq : (ttl.millis : Int) = ttl'.millis :=
      Option.some.inj ((hn.eq_millis hM).symm.trans (hn'.eq_millis hM))
    unfold Span.millis at heq
    omega

theorem tellsInOrder_iff : TellsInOrder M ↔ M.millis < 2 ^ 64 := by
  refine ⟨fun h => ?_, fun hM ttl ttl' n n' hle hn hn' => ?_⟩
  · by_contra hM
    have hM := Nat.le_of_not_lt hM
    have hle := h _ _ _ _ (by decide)
      (recorded_short hM 1000000 (by decide) (by decide)) (recorded_remainder hM)
    exact absurd hle (by decide)
  · have hmillis : ttl.millis ≤ ttl'.millis := Nat.div_le_div_right hle
    have heq := Option.some.inj (hn.eq_millis hM)
    have heq' := Option.some.inj (hn'.eq_millis hM)
    omega

/-- Every lease that is given or renewed has one record, with its whole milliseconds as a word of 64
bits. The records of a gateway tell the lengths of its leases just if the longest lease has less
than `2 ^ 64` of them; otherwise they do not even tell leases apart, or in their order. -/
theorem recorded_lease_law (M : Span) :
    (∀ (g : Gateway) clock fresh (t : Tenant) (r : Request) s key ttl, g.settings.maxLockTtl = M →
      r.lease? = some (key, ttl) → Response.succeeded (g.call clock fresh t r s).answer = true →
      ∃ record, (g.call clock fresh t r s).effects.records = [record] ∧
        record.ttlMs? = some ((ttl.millis % 2 ^ 64 : Nat) : Int)) ∧
    (TellsExactly M ↔ M.millis < 2 ^ 64) ∧ (TellsApart M ↔ M.millis < 2 ^ 64) ∧
    (TellsInOrder M ↔ M.millis < 2 ^ 64) :=
  ⟨fun _ _ _ _ _ _ _ _ _ hr hs => records_of_succeeded hr hs, tellsExactly_iff, tellsApart_iff,
    tellsInOrder_iff⟩

/-- With the longest lease of all allowed, one of `2 ^ 64` milliseconds is recorded as shorter than
one of a millisecond. -/
theorem longest_leases_recorded_short :
    let g : Gateway := { settings := { maxLockTtl := .longest } }
    let lengths (ttl : Span) :=
      (g.call default "T" ⟨"u1", none⟩ (.acquire "k" ttl) (.ofCapacity 1)).effects.records.map
        Record.ttlMs?
    lengths (.ofMillis (2 ^ 64)) = [some 0] ∧ lengths (.ofMillis 1) = [some 1] := by
  decide +kernel

end Tenancy.Audit
