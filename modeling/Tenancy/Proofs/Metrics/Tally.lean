import Mathlib.Algebra.BigOperators.Group.Finset.Basic
import Tenancy.Proofs.Audit.Record

/-!
# What the metrics say of calls

A call is counted in one series, by its operation and its outcome, and its duration once more by
the operation alone (`Metrics.Sample.call?`). Summed up, the samples of calls are those series with
their numbers (`total_call`, `total_durationCount`), and the outcomes of an operation add up to its
calls (`sum_outcomes`). The samples that a call of the gateway leaves are the series that its
answer asks for, if it was let in, and none otherwise (`Gateway.counted_call`).
-/

namespace Tenancy

namespace Metrics

/-! ## Samples of calls -/

/-- The operation of the calls that a series counts. -/
def Series.operation? : Series → Option String
  | .lockOperations operation _ => some operation
  | .publishes _ => some "publish"
  | _ => none

/-- The series that counts the call of a sample. -/
def Sample.call? : Sample → Option Series
  | .lock operation outcome _ => some (.lockOperations operation outcome)
  | .publish success _ => some (.publishes (if success then "success" else "error"))
  | _ => none

/-- The series of the calls of samples. -/
def calls (samples : List Sample) : List Series := samples.filterMap Sample.call?

theorem calls_append (a b : List Sample) : calls (a ++ b) = calls a ++ calls b :=
  List.filterMap_append

/-- The amount by which changes move a series. -/
def amount (changes : List (Series × Int)) (σ : Series) : Int :=
  (changes.filterMap fun c => if c.1 = σ then some c.2 else none).sum

theorem amount_cons (c : Series × Int) (changes : List (Series × Int)) (σ : Series) :
    amount (c :: changes) σ = (if c.1 = σ then c.2 else 0) + amount changes σ := by
  by_cases h : c.1 = σ <;> simp [amount, h]

theorem total_singleton (x : Sample) (σ : Series) : total [x] σ = amount x.changes σ := by
  rw [total, List.flatMap_singleton]
  rfl

/-- A duration counts once, beside its buckets. -/
theorem amount_durationSeries (operation : String) (seconds : Decimal) {σ : Series}
    (hσ : ∀ o bound, Series.durationBucket o bound ≠ σ) :
    amount ((durationSeries operation seconds).map (·, 1)) σ =
      if Series.durationCount operation = σ then 1 else 0 := by
  have hbuckets : ∀ bs : List (String × Decimal),
      amount ((bs.map fun b => Series.durationBucket operation b.1).map (·, 1)) σ = 0 := by
    intro bs
    induction bs with
    | nil => rfl
    | cons b bs ih =>
      rw [List.map_cons, List.map_cons, amount_cons, ih, if_neg (hσ operation b.1)]
      rfl
  rw [durationSeries, List.map_cons, List.map_cons, amount_cons, amount_cons, hbuckets,
    if_neg (hσ operation "+Inf")]
  simp only [Int.add_zero]

/-- A sample of a call moves the series of the call and the durations of the operation. -/
theorem total_of_call {x : Sample} {call : Series} {operation : String} (hx : x.call? = some call)
    (ho : call.operation? = some operation) {σ : Series}
    (hσ : ∀ o bound, Series.durationBucket o bound ≠ σ) :
    total [x] σ =
      (if call = σ then 1 else 0) + if Series.durationCount operation = σ then 1 else 0 := by
  rw [total_singleton]
  cases x with
  | lock o outcome seconds =>
    cases hx
    cases ho
    rw [Sample.changes, List.map_cons, amount_cons, amount_durationSeries _ _ hσ]
  | publish success seconds =>
    cases hx
    cases ho
    rw [Sample.changes, List.map_cons, amount_cons, amount_durationSeries _ _ hσ]
  | _ => cases hx

/-- Other samples move no series of calls or durations. -/
theorem total_of_no_call {x : Sample} (hx : x.call? = none) {σ : Series}
    (hσ : σ.operation?.isSome ∨ ∃ operation, σ = .durationCount operation) : total [x] σ = 0 := by
  have hfree : ∀ τ n, τ ≠ σ → amount [(τ, n)] σ = 0 := fun τ n h => by
    rw [amount_cons, if_neg h]
    rfl
  rw [total_singleton]
  cases x with
  | lock | publish => cases hx
  | _ =>
    refine hfree _ _ ?_
    rintro rfl
    rcases hσ with h | ⟨operation, h⟩ <;> cases h

theorem calls_cons (x : Sample) (samples : List Sample) :
    calls (x :: samples) = x.call?.toList ++ calls samples := by
  unfold calls
  rw [List.filterMap_cons]
  cases x.call? <;> rfl

theorem exists_operation {x : Sample} {call : Series} (hx : x.call? = some call) :
    ∃ operation, call.operation? = some operation := by
  cases x with
  | lock o outcome seconds =>
    cases hx
    exact ⟨o, rfl⟩
  | publish success seconds =>
    cases hx
    exact ⟨"publish", rfl⟩
  | _ => cases hx

/-- The series of calls hold the numbers of the calls. -/
theorem total_call (samples : List Sample) {σ : Series} (hσ : σ.operation?.isSome) :
    total samples σ = (calls samples).count σ := by
  induction samples with
  | nil => rfl
  | cons x samples ih =>
    have hcons : total (x :: samples) σ = total [x] σ + total samples σ :=
      total_append [x] samples σ
    rw [hcons, ih, calls_cons, List.count_append, Nat.cast_add]
    congr 1
    cases hx : x.call? with
    | none => exact total_of_no_call hx (.inl hσ)
    | some call =>
      obtain ⟨operation, ho⟩ := exists_operation hx
      have hbucket : ∀ o bound, Series.durationBucket o bound ≠ σ := by
        rintro o bound rfl
        cases hσ
      have hcount : Series.durationCount operation ≠ σ := by
        rintro rfl
        cases hσ
      rw [total_of_call hx ho hbucket, if_neg hcount, Int.add_zero, Option.toList_some,
        List.count_singleton]
      by_cases h : call = σ <;> simp [h]

theorem total_durationCount (samples : List Sample) (operation : String) :
    total samples (.durationCount operation) =
      (calls samples).countP (·.operation? = some operation) := by
  induction samples with
  | nil => rfl
  | cons x samples ih =>
    have hcons : total (x :: samples) (.durationCount operation) =
        total [x] (.durationCount operation) + total samples (.durationCount operation) :=
      total_append [x] samples _
    rw [hcons, ih, calls_cons, List.countP_append, Nat.cast_add]
    congr 1
    cases hx : x.call? with
    | none => exact total_of_no_call hx (.inr ⟨operation, rfl⟩)
    | some call =>
      obtain ⟨o, ho⟩ := exists_operation hx
      have hcall : call ≠ .durationCount operation := by
        rintro rfl
        cases ho
      rw [total_of_call hx ho (by simp), if_neg hcall, Int.zero_add, Option.toList_some,
        List.countP_singleton, ho]
      by_cases h : o = operation <;> simp [h]

theorem total_relayMessages_singleton (x : Sample) (delivered : Bool) :
    total [x] (.relayMessages (if delivered then "delivered" else "dropped")) =
      if x = .relayMessage delivered then 1 else 0 := by
  cases x with
  | lock operation outcome seconds =>
    rw [total_of_call rfl rfl (by simp)]
    simp
  | publish success seconds =>
    rw [total_of_call rfl rfl (by simp)]
    simp
  | relayMessage b => cases b <;> cases delivered <;> decide
  | _ => cases delivered <;> rfl

/-- The messages that relays handed over, or lost, by their samples. -/
theorem total_relayMessages (samples : List Sample) (delivered : Bool) :
    total samples (.relayMessages (if delivered then "delivered" else "dropped")) =
      samples.count (.relayMessage delivered) := by
  induction samples with
  | nil => rfl
  | cons x samples ih =>
    have hcons := total_append [x] samples
      (.relayMessages (if delivered then "delivered" else "dropped"))
    rw [List.singleton_append, ih, total_relayMessages_singleton] at hcons
    rw [hcons, List.count_cons, Nat.cast_add, add_comm]
    by_cases h : x = .relayMessage delivered <;> simp [h]

/-! ## Outcomes -/

/-- The series that count the calls of an operation, one for each outcome. -/
def outcomes : String → Finset Series
  | "acquire" =>
    {.lockOperations "acquire" "acquired", .lockOperations "acquire" "contended",
      .lockOperations "acquire" "error"}
  | "release" =>
    {.lockOperations "release" "released", .lockOperations "release" "not_owner",
      .lockOperations "release" "error"}
  | "renew" =>
    {.lockOperations "renew" "renewed", .lockOperations "renew" "not_owner",
      .lockOperations "renew" "error"}
  | "publish" => {.publishes "success", .publishes "error"}
  | _ => ∅

theorem operation?_of_mem_outcomes {operation : String} {σ : Series} (h : σ ∈ outcomes operation) :
    σ.operation? = some operation := by
  unfold outcomes at h
  split at h <;> simp only [Finset.mem_insert, Finset.mem_singleton, Finset.notMem_empty] at h
  · rcases h with rfl | rfl | rfl <;> rfl
  · rcases h with rfl | rfl | rfl <;> rfl
  · rcases h with rfl | rfl | rfl <;> rfl
  · rcases h with rfl | rfl <;> rfl

/-- Every call of the operation has one of its outcomes, so these add up to the calls. -/
theorem sum_outcomes {called : List Series} {operation : String}
    (h : ∀ σ ∈ called, σ.operation? = some operation → σ ∈ outcomes operation) :
    ∑ σ ∈ outcomes operation, called.count σ = called.countP (·.operation? = some operation) := by
  let own := called.filter (·.operation? = some operation)
  have hcount : ∀ σ ∈ outcomes operation, called.count σ = (own : Multiset Series).count σ := by
    intro σ hσ
    rw [Multiset.coe_count]
    exact (List.count_filter (by simpa using operation?_of_mem_outcomes hσ)).symm
  have hown : ∀ σ ∈ (own : Multiset Series), σ ∈ outcomes operation := fun σ hσ => by
    obtain ⟨hmem, ho⟩ := List.mem_filter.1 (Multiset.mem_coe.1 hσ)
    exact h σ hmem (of_decide_eq_true ho)
  calc ∑ σ ∈ outcomes operation, called.count σ
      = ∑ σ ∈ outcomes operation, (own : Multiset Series).count σ := Finset.sum_congr rfl hcount
    _ = own.length := Multiset.sum_count_eq_card hown
    _ = called.countP (·.operation? = some operation) := List.countP_eq_length_filter.symm

end Metrics

open Metrics

/-! ## Calls of the gateway -/

/-- The series in which an admitted call is counted, by what became of it: whether the store did
what was asked for, or failed. Subscriptions are not counted. -/
def Request.series? {ε : Type} (r : Request) (done : Except ε Bool) : Option Series :=
  match r, done with
  | .acquire _ _, .ok done => some (.lockOperations "acquire" (if done then "acquired" else "contended"))
  | .release _ _, .ok done => some (.lockOperations "release" (if done then "released" else "not_owner"))
  | .renew _ _ _, .ok done => some (.lockOperations "renew" (if done then "renewed" else "not_owner"))
  | .publish _ _, .ok _ => some (.publishes "success")
  | .acquire _ _, .error _ => some (.lockOperations "acquire" "error")
  | .release _ _, .error _ => some (.lockOperations "release" "error")
  | .renew _ _ _, .error _ => some (.lockOperations "renew" "error")
  | .publish _ _, .error _ => some (.publishes "error")
  | .subscribe _, _ => none

theorem Request.mem_outcomes {ε : Type} {r : Request} {done : Except ε Bool} {σ : Series}
    (h : r.series? done = some σ) {operation : String} (ho : σ.operation? = some operation) :
    σ ∈ outcomes operation := by
  cases r with
  | acquire key ttl => rcases done with e | _ | _ <;> cases h <;> cases ho <;> decide
  | release key token => rcases done with e | _ | _ <;> cases h <;> cases ho <;> decide
  | renew key token ttl => rcases done with e | _ | _ <;> cases h <;> cases ho <;> decide
  | publish channel payload => rcases done with e | _ <;> cases h <;> cases ho <;> decide
  | subscribe names => cases h

instance (g : Gateway) (t : Tenant) (r : Request) : Decidable (g.Admits t r) :=
  match h : (g.admission t r).1 with
  | .ok () => .isTrue h
  | .error _ => .isFalse fun ha => by cases h.symm.trans ha

/-- The effects count one call, or none, and no message. -/
structure Effects.Counted (e : Effects) (call? : Option Series) : Prop where
  calls : calls e.samples = call?.toList
  messages : ∀ delivered, Sample.relayMessage delivered ∉ e.samples

theorem Effects.Counted.of_nil {e : Effects} (h : e.samples = []) : e.Counted Option.none :=
  ⟨by rw [h]; rfl, fun _ => by rw [h]; exact List.not_mem_nil⟩

theorem Effects.counted_ofLog (log : List LogEvent) : (Effects.ofLog log).Counted Option.none :=
  .of_nil rfl

namespace Gateway

variable (clock : Clock) (fresh : String) (t : Tenant) (s : Store)

/-- The work of a call is counted by its answer. -/
theorem counted_perform (r : Request) :
    (perform clock fresh t r s).effects.Counted
      (r.series? ((perform clock fresh t r s).answer.map Response.isChange)) := by
  cases r with
  | acquire key ttl =>
    rw [perform, acquire]
    split <;> exact ⟨rfl, fun _ => by simp [failed, lockSample, audited, Effects.ofSamples]⟩
  | release key token =>
    rw [perform, release]
    split <;> exact ⟨rfl, fun _ => by simp [failed, lockSample, audited, Effects.ofSamples]⟩
  | renew key token ttl =>
    rw [perform, renew]
    split <;> exact ⟨rfl, fun _ => by simp [failed, lockSample, audited, Effects.ofSamples]⟩
  | publish channel payload =>
    rw [perform, publish]
    split <;> exact ⟨rfl, fun _ => by simp [failed, audited, Effects.ofSamples]⟩
  | subscribe names =>
    rw [perform, subscribe]
    split <;> exact .of_nil rfl

/-- An admitted call is counted once, and a refused one is not. -/
theorem counted_call (g : Gateway) (r : Request) :
    (g.call clock fresh t r s).effects.Counted
      (if g.Admits t r then r.series? ((g.call clock fresh t r s).answer.map Response.isChange)
        else none) := by
  rcases g.admits_or_refused t r with ha | ⟨e, he⟩
  · have hwork := counted_perform clock fresh t s r
    have hadmits : (g.admission t r).1 = .ok () := ha
    rw [if_pos ha]
    unfold call
    split
    · rename_i e log he
      rw [he] at hadmits
      cases hadmits
    · exact ⟨hwork.calls, hwork.messages⟩
  · have hrefused : ¬ g.Admits t r := fun ha => by cases he.symm.trans ha
    rw [if_neg hrefused]
    unfold call
    split
    · exact .of_nil rfl
    · rename_i log hok
      rw [hok] at he
      cases he

end Gateway

/-- A remote caller is told the same of what became of its call. -/
theorem Rpc.Call.series?_told (c : Rpc.Call) (a : Except GatewayError Response) :
    c.request.series? (((a.mapError Rpc.Status.ofError).map Rpc.Result.ofResponse).map
      Rpc.Result.isChange) = c.request.series? (a.map Response.isChange) := by
  rcases a with e | response
  · cases c <;> rfl
  · cases c <;> cases response <;> rfl

end Tenancy
