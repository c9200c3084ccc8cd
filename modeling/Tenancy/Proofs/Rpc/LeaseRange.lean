import Tenancy.Proofs.Gateway.Admission
import Tenancy.Proofs.Rpc.Refinement

/-!
# Which leases remote callers may ask for

A remote caller asks for a lease of a signed number of milliseconds, and the longest lease of the
gateway need not be a whole number of them. All the same the numbers that pass are those from 1 to
the bound that a refusal quotes, which is the longest lease in whole milliseconds
(`ttl_range_law`).
-/

namespace Tenancy

namespace Gateway

variable {g : Gateway} {t : Tenant} {r : Request}

/-- Nothing but the length of its lease can be wrong with the request. -/
def ValidButLease (g : Gateway) (t : Tenant) (r : Request) : Prop :=
  ∀ check, check ≠ .lease → Check.complaint? g t r check = none

theorem ValidButLease.complaint?_eq (h : g.ValidButLease t r) :
    g.complaint? t r = Check.complaint? g t r .lease := by
  have hothers : (Check.inOrder.take 8).findSome? (Check.complaint? g t r) = none := by
    refine List.findSome?_eq_none_iff.2 fun check hcheck => h check ?_
    rintro rfl
    exact absurd hcheck (by decide)
  have hsplit : Check.inOrder = Check.inOrder.take 8 ++ [.lease] := rfl
  rw [complaint?, hsplit, List.findSome?_append, hothers, findSome?_cons_eq_or]
  exact Option.or_none

/-- The errors of an admitted call are those of the store. -/
theorem code_of_admits (h : g.Admits t r) {clock : Clock} {fresh : String} {s : Store}
    {e : GatewayError} (he : (g.call clock fresh t r s).answer = .error e) :
    e.code = .storeError := by
  obtain ⟨told, hconcluded, hwork⟩ := oneCall_call (admits_iff.1 h) clock fresh
  have htold : (g.call clock fresh t r s).answer =
      (told (s.call clock.now (r.storeCall t fresh)).1).1 := congrArg Prod.fst (hwork s).1
  have hc := hconcluded (s.call clock.now (r.storeCall t fresh)).1
  rw [← htold, he] at hc
  cases ha : (s.call clock.now (r.storeCall t fresh)).1 with
  | error err =>
    rw [ha] at hc
    cases hc
    rfl
  | ok a =>
    rw [ha] at hc
    obtain ⟨response, hresponse⟩ := hc
    cases hresponse

end Gateway

namespace Rpc

/-- The milliseconds that a call asks for as the length of a lease. -/
def Call.ttlMs? : Call → Option Int64
  | .acquireLock m => some m.ttlMs
  | .renewLock m => some m.ttlMs
  | .releaseLock _ | .publish _ | .subscribe _ => none

theorem Call.ttl?_request {c : Call} {ms : Int64} (h : c.ttlMs? = some ms) :
    c.request.ttl? = some (leaseOfMillis ms) := by
  cases c with
  | acquireLock m | renewLock m =>
    cases h
    rfl
  | releaseLock | publish | subscribe => cases h

/-- A negative number of milliseconds is a lease of none, which is too short. -/
theorem leaseOfMillis_fits_iff {ms : Int64} {max : Span} :
    0 < (leaseOfMillis ms).ns ∧ leaseOfMillis ms ≤ max ↔ 1 ≤ ms.toInt ∧ ms.toInt ≤ max.millis := by
  have hns : (leaseOfMillis ms).ns = ms.toInt.toNat * 1000000 := rfl
  have hle : leaseOfMillis ms ≤ max ↔ ms.toInt.toNat ≤ max.millis := Span.ofMillis_le_iff
  rw [hle, hns]
  omega

theorem leaseComplaint_eq {g : Gateway} {t : Tenant} {c : Call} {ms : Int64}
    (hms : c.ttlMs? = some ms) :
    Check.complaint? g t c.request .lease =
      if 1 ≤ ms.toInt ∧ ms.toInt ≤ g.settings.maxLockTtl.millis then none
      else some (.invalidRange "ttl_ms" "1" (toString g.settings.maxLockTtl.millis)) := by
  have htext : String.ofList (Text.decimal g.settings.maxLockTtl.millis) =
      toString g.settings.maxLockTtl.millis := rfl
  rw [Check.complaint?, Call.ttl?_request hms, Option.any_some, htext]
  simp only [leaseOfMillis_fits_iff, decide_eq_true_eq, ite_not]

theorem answer_perform {g : Gateway} {caller : Caller} {t : Tenant}
    (hcaller : caller.Identifies (.ok t)) (clock : Clock) (fresh : String) (c : Call) (s : Store) :
    (perform g clock fresh caller c s).answer =
        replyTo (g.call clock fresh t c.request s).answer ∧
      (perform g clock fresh caller c s).store = (g.call clock fresh t c.request s).store := by
  unfold perform
  rw [hcaller.tenant_eq]
  exact ⟨rfl, rfl⟩

/-- A remote call that asks for a lease, with nothing else wrong about it, is let in just if it asks
for 1 to `max` milliseconds, where `max` is the longest lease in whole milliseconds. What it is
answered then does not blame its arguments. Otherwise it is told that they are wrong and that the
range is 1 to `max`, whatever the store is like, and the store is left alone. -/
theorem ttl_range_law {g : Gateway} {caller : Caller} {t : Tenant} {c : Call} {ms : Int64}
    (hcaller : caller.Identifies (.ok t)) (hms : c.ttlMs? = some ms)
    (hvalid : g.ValidButLease t c.request) :
    let max := g.settings.maxLockTtl.millis
    (g.Admits t c.request ↔ 1 ≤ ms.toInt ∧ ms.toInt ≤ max) ∧
    ∀ clock fresh s,
      let outcome := perform g clock fresh caller c s
      (1 ≤ ms.toInt ∧ ms.toInt ≤ max →
        ∀ status, outcome.answer = .error status → status.code = .internal) ∧
      (¬ (1 ≤ ms.toInt ∧ ms.toInt ≤ max) →
        outcome.answer = .error ⟨.invalidArgument,
          "Field 'ttl_ms' must be between 1 and " ++ toString max⟩ ∧ outcome.store = s) := by
  intro max
  have hcomplaint : g.complaint? t c.request = if 1 ≤ ms.toInt ∧ ms.toInt ≤ max then none
      else some (.invalidRange "ttl_ms" "1" (toString max)) :=
    hvalid.complaint?_eq.trans (leaseComplaint_eq hms)
  have hadmits : g.Admits t c.request ↔ 1 ≤ ms.toInt ∧ ms.toInt ≤ max := by
    rw [Gateway.admits_iff, hcomplaint]
    split <;> simp_all
  refine ⟨hadmits, fun clock fresh s => ?_⟩
  obtain ⟨hanswer, hstore⟩ := answer_perform hcaller clock fresh c s
  refine ⟨fun hin status hstatus => ?_, fun hout => ?_⟩
  · rw [hanswer] at hstatus
    cases ha : (g.call clock fresh t c.request s).answer with
    | ok response =>
      rw [ha] at hstatus
      cases hstatus
    | error e =>
      rw [ha] at hstatus
      cases hstatus
      show StatusCode.ofCode e.code = .internal
      rw [Gateway.code_of_admits (hadmits.2 hin) ha]
      rfl
  · rw [if_neg hout] at hcomplaint
    rw [hanswer, hstore, Gateway.call_of_complaint hcomplaint]
    exact ⟨rfl, rfl⟩

/-- The longest lease is just below 2 ms: a lease of 1 ms is let in, and somebody who has asked for
1 ms less than nothing, or for 2 ms, is told that the range is 1 to 1. -/
theorem ttl_range_law_fraction :
    let ann : Tenant := ⟨"ann", none⟩
    let caller : Caller := { attached := some ann }
    let g : Gateway := { settings := { maxLockTtl := ⟨1999999⟩ } }
    let refused : Except Status Result :=
      .error ⟨.invalidArgument, "Field 'ttl_ms' must be between 1 and 1"⟩
    let s := Store.ofCapacity 1
    g.Admits ann (Call.request (.acquireLock ⟨"job", 1⟩)) ∧
      (perform g default "T" caller (.renewLock ⟨"job", "T", -1⟩) s).answer = refused ∧
      (perform g default "T" caller (.acquireLock ⟨"job", 2⟩) s).answer = refused := by
  intro ann caller g refused s
  have hcaller : caller.Identifies (.ok ann) := .attached rfl rfl
  have hacquire : ∀ ms, g.ValidButLease ann (Call.request (.acquireLock ⟨"job", ms⟩)) := by
    intro ms check hcheck
    cases check with
    | lease => exact absurd rfl hcheck
    | _ => rfl
  have hrenew : g.ValidButLease ann (Call.request (.renewLock ⟨"job", "T", -1⟩)) := by
    intro check hcheck
    cases check with
    | lease => exact absurd rfl hcheck
    | _ => rfl
  obtain ⟨hone, -⟩ := ttl_range_law hcaller (c := .acquireLock ⟨"job", 1⟩) rfl (hacquire 1)
  obtain ⟨-, hnegative⟩ := ttl_range_law hcaller (c := .renewLock ⟨"job", "T", -1⟩) rfl hrenew
  obtain ⟨-, htwo⟩ := ttl_range_law hcaller (c := .acquireLock ⟨"job", 2⟩) rfl (hacquire 2)
  have hrange : "Field 'ttl_ms' must be between 1 and " ++ toString g.settings.maxLockTtl.millis =
      "Field 'ttl_ms' must be between 1 and 1" := by decide
  rw [hrange] at hnegative htwo
  exact ⟨hone.2 (by decide), ((hnegative default "T" s).2 (by decide)).1,
    ((htwo default "T" s).2 (by decide)).1⟩

end Rpc

end Tenancy
