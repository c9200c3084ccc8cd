import Tenancy.Proofs.Gateway.Call
import Tenancy.Proofs.Store.DeadlineMap

/-!
# Who holds a lock

Any number of gateways share one store. A run is a list of `SharedEvent`s, and what callers know
after it is its history: who asked for what and when, and what was answered. `lease?` reads off the
history which token was granted a key and until when, `Holds` says that this lease is running.

`Tied` is the invariant: the live entry under a key is the running lease of the history. It holds
before anything happened, a step keeps it (`Tied.step`), time keeps it (`Tied.later`), so it holds
after every run, and the answer to the next call is what the history says (`locks_exclusive`).
-/

namespace Tenancy

/-- What happens to a store that gateways share: a call of one of them, a sweep, or a call of the
store by somebody else. -/
inductive SharedEvent where
  | call (g : Gateway) (clock : Clock) (fresh : String) (t : Tenant) (r : Request)
  | sweep (now : Instant)
  | direct (now : Instant) (c : KeyCall)

namespace SharedEvent

def time : SharedEvent → Instant
  | call _ clock _ _ _ => clock.now
  | sweep now => now
  | direct now _ => now

/-- The event touches the key through calls of gateways only. -/
def Spares (k : String) : SharedEvent → Prop
  | direct _ c => c.key ≠ k
  | _ => True

/-- The token that an attempt to take a lock generates, if it gets that far. -/
def token? : SharedEvent → Option String
  | call g _ fresh t (.acquire key ttl) =>
    match (g.admission t (.acquire key ttl)).1 with
    | .ok () => some fresh
    | .error _ => none
  | _ => none

end SharedEvent

/-! ## History -/

/-- A call that was made, and its answer. -/
structure PastCall where
  now : Instant
  tenant : Tenant
  request : Request
  answer : Except GatewayError Response

/-- What a call did to a lock. -/
inductive LockDeed where
  | granted (k token : String) (deadline : Option Instant)
  | freed (k token : String)
  | extended (k token : String) (deadline : Option Instant)
  | nothing

/-- What a call did to a lock, by its answer. -/
def PastCall.deed (p : PastCall) : LockDeed :=
  match p.request, p.answer with
  | .acquire key ttl, .ok (.acquired ⟨true, some token, _⟩) =>
    .granted (p.tenant.isolate key) token (Entry.deadlineAfter p.now (some ttl))
  | .release key token, .ok (.released true) => .freed (p.tenant.isolate key) token
  | .renew key token ttl, .ok (.renewed ⟨true, _⟩) =>
    .extended (p.tenant.isolate key) token (Entry.deadlineAfter p.now (some ttl))
  | _, _ => .nothing

/-- A lease with this deadline runs at `now`; without a deadline it always does. -/
def Running (now : Instant) (deadline : Option Instant) : Prop := ∀ t, deadline = some t → now < t

instance (now : Instant) (d : Option Instant) : Decidable (Running now d) :=
  match d with
  | none => .isTrue fun _ h => by cases h
  | some t => decidable_of_iff (now < t) ⟨fun h _ e => by cases e; exact h, fun h => h t rfl⟩

/-- The lease of a token on a key: the deadline of its last grant, which is the acquire or the
latest renewal while it ran, unless the token freed the key since. The last call comes first. -/
def lease? (k token : String) : List PastCall → Option (Option Instant)
  | [] => none
  | p :: earlier =>
    match p.deed with
    | .granted k' token' d => if k' = k ∧ token' = token then some d else lease? k token earlier
    | .freed k' token' => if k' = k ∧ token' = token then none else lease? k token earlier
    | .extended k' token' d =>
      if k' = k ∧ token' = token then
        (lease? k token earlier).map fun old => if Running p.now old then d else old
      else lease? k token earlier
    | .nothing => lease? k token earlier

/-- The token holds the key at `now`. -/
def Holds (history : List PastCall) (k token : String) (now : Instant) : Prop :=
  ∃ d, lease? k token history = some d ∧ Running now d

/-! ## Runs -/

/-- A shared store, and what callers know of it. -/
structure Shared where
  store : Store
  history : List PastCall := []

namespace Shared

def step (x : Shared) : SharedEvent → Shared
  | .call g clock fresh t r =>
    let reply := g.call clock fresh t r x.store
    ⟨reply.store, ⟨clock.now, t, r, reply.answer⟩ :: x.history⟩
  | .sweep now => { x with store := (x.store.purge now).2 }
  | .direct now c => { x with store := (x.store.answer now c).2 }

def run (x : Shared) (es : List SharedEvent) : Shared := es.foldl step x

end Shared

/-- Whether an answer says that a lock was taken, freed or extended. -/
def Response.succeeded : Except GatewayError Response → Bool
  | .ok (.acquired g) => g.acquired
  | .ok (.released success) => success
  | .ok (.renewed r) => r.renewed
  | _ => false

/-! ## The invariant -/

theorem running_iff {now : Instant} {v : String} {d : Option Instant} :
    Running now d ↔ (Entry.mk v d).isExpired now = false := by
  unfold Running Entry.isExpired
  cases d with
  | none => exact ⟨fun _ => rfl, fun _ t ht => by cases ht⟩
  | some t =>
    constructor
    · intro h
      exact decide_eq_false (Nat.not_le_of_lt (h t rfl))
    · intro h t' ht
      cases ht
      exact Nat.lt_of_not_le (of_decide_eq_false h)

theorem Running.earlier {now later : Instant} {d : Option Instant} (h : Running later d)
    (hle : now ≤ later) : Running now d := fun t ht => Nat.lt_of_le_of_lt hle (h t ht)

/-- The running lease of the history on `k` is the live entry under it. -/
structure Tied (k : String) (x : Shared) (now : Instant) : Prop where
  available : x.store.available = .ok ()
  distinct : x.store.entries.Distinct
  lease_iff : ∀ token d, lease? k token x.history = some d ∧ Running now d ↔
    x.store.entries.live? k now = some ⟨token, d⟩

namespace Tied

variable {k : String} {x : Shared} {now : Instant}

theorem holds_iff (h : Tied k x now) (token : String) :
    Holds x.history k token now ↔ (x.store.entries.live? k now).map (·.value) = some token := by
  constructor
  · rintro ⟨d, hd⟩
    rw [(h.lease_iff token d).1 hd]
    rfl
  · intro hv
    obtain ⟨⟨v, d⟩, he, rfl⟩ := Option.map_eq_some_iff.1 hv
    exact ⟨d, (h.lease_iff v d).2 he⟩

theorem free_iff (h : Tied k x now) :
    (∀ token, ¬ Holds x.history k token now) ↔ x.store.entries.live? k now = none := by
  constructor
  · intro hn
    cases hl : x.store.entries.live? k now with
    | none => rfl
    | some e => exact absurd ((h.holds_iff e.value).2 (by rw [hl]; rfl)) (hn e.value)
  · intro hl token ht
    rw [h.holds_iff, hl] at ht
    cases ht

/-- Time ends the same leases and entries. -/
theorem later {t : Instant} (h : Tied k x now) (hle : now ≤ t) : Tied k x t where
  available := h.available
  distinct := h.distinct
  lease_iff token d := by
    rw [Entries.live?_later hle, Option.bind_eq_some_iff]
    constructor
    · rintro ⟨hd, hr⟩
      refine ⟨⟨token, d⟩, (h.lease_iff token d).1 ⟨hd, hr.earlier hle⟩, ?_⟩
      exact Entries.ifLive_eq_some_iff.2 ⟨rfl, running_iff.1 hr⟩
    · rintro ⟨e, he, hx⟩
      obtain ⟨rfl, hx⟩ := Entries.ifLive_eq_some_iff.1 hx
      exact ⟨((h.lease_iff token d).2 he).1, running_iff.2 hx⟩

/-- What leaves the live entry and the leases alone keeps the invariant. -/
theorem congr {y : Shared} (h : Tied k x now) (ho : y.store.available = .ok ())
    (hd : y.store.entries.Distinct)
    (hlive : y.store.entries.live? k now = x.store.entries.live? k now)
    (hlease : ∀ token, lease? k token y.history = lease? k token x.history) : Tied k y now where
  available := ho
  distinct := hd
  lease_iff token d := by rw [hlease, hlive, h.lease_iff]

/-- A new live entry under `k` takes the place of the old one, as its lease does in the history. -/
theorem replace {y : Shared} (token : String) (d : Option Instant)
    (ho : y.store.available = .ok ()) (hd : y.store.entries.Distinct)
    (hlive : y.store.entries.live? k now = Entries.ifLive now ⟨token, d⟩)
    (hself : lease? k token y.history = some d)
    (hother : ∀ other, other ≠ token → ¬ Holds y.history k other now) : Tied k y now where
  available := ho
  distinct := hd
  lease_iff token' d' := by
    rw [hlive, Entries.ifLive_eq_some_iff]
    constructor
    · rintro ⟨hl, hr⟩
      by_cases he : token' = token
      · subst he
        cases hself.symm.trans hl
        exact ⟨rfl, running_iff.1 hr⟩
      · exact absurd ⟨d', hl, hr⟩ (hother token' he)
    · rintro ⟨he, hx⟩
      cases he
      exact ⟨hself, running_iff.2 hx⟩

theorem vacate {y : Shared} (ho : y.store.available = .ok ()) (hd : y.store.entries.Distinct)
    (hlive : y.store.entries.live? k now = none)
    (hnone : ∀ token, ¬ Holds y.history k token now) : Tied k y now where
  available := ho
  distinct := hd
  lease_iff token d := by
    rw [hlive]
    exact ⟨fun hl => absurd ⟨d, hl⟩ (hnone token), fun he => by cases he⟩

/-! ## Steps -/

section Steps

variable {clock : Clock} {t : Tenant} {key token : String} {ttl : Span}

theorem acquire (h : Tied k x clock.now) (fresh : String) :
    let r := x.store.entries.setIfAbsent clock.now (t.isolate key) fresh (some ttl)
    Tied k ⟨{ x.store with entries := r.2 },
      ⟨clock.now, t, .acquire key ttl, .ok (.acquired (Lease.grant r.1 fresh clock.wall ttl))⟩
        :: x.history⟩ clock.now := by
  intro r
  have hr : r.1 = (x.store.entries.live? (t.isolate key) clock.now).isNone :=
    Entries.setIfAbsent_fst ..
  have hlive := Entries.live?_setIfAbsent x.store.entries clock.now (t.isolate key) fresh (some ttl)
  rw [hr]
  cases hl : x.store.entries.live? (t.isolate key) clock.now with
  | some e =>
    refine h.congr h.available (h.distinct.setIfAbsent ..) ?_ fun _ => rfl
    simpa [hl] using hlive k
  | none =>
    by_cases hk : t.isolate key = k
    · subst hk
      have hfree := h.free_iff.2 hl
      refine replace fresh (Entry.deadlineAfter clock.now (some ttl)) h.available
        (h.distinct.setIfAbsent ..) ?_ ?_ fun other hne ⟨d, hd, hrun⟩ => ?_
      · simpa [hl] using hlive (t.isolate key)
      · simp [lease?, PastCall.deed, Lease.grant]
      · simp only [lease?, PastCall.deed, Lease.grant, Option.isNone_none, if_true, true_and,
          if_neg hne.symm] at hd
        exact hfree other ⟨d, hd, hrun⟩
    · refine h.congr h.available (h.distinct.setIfAbsent ..) ?_ fun other => ?_
      · simpa [hk] using hlive k
      · simp [lease?, PastCall.deed, Lease.grant, hk]

theorem release (h : Tied k x clock.now) :
    let r := x.store.entries.compareAndDelete clock.now (t.isolate key) token
    Tied k ⟨{ x.store with entries := r.2 },
      ⟨clock.now, t, .release key token, .ok (.released r.1)⟩ :: x.history⟩ clock.now := by
  intro r
  have hr : r.1 =
      decide ((x.store.entries.live? (t.isolate key) clock.now).map (·.value) = some token) :=
    Entries.compareAndDelete_fst ..
  have hlive := Entries.live?_compareAndDelete x.store.entries clock.now (t.isolate key) token
  rw [hr]
  by_cases hv : (x.store.entries.live? (t.isolate key) clock.now).map (·.value) = some token
  · rw [decide_eq_true hv]
    by_cases hk : t.isolate key = k
    · subst hk
      refine vacate h.available (h.distinct.compareAndDelete ..) ?_ fun other ⟨d, hd, hrun⟩ => ?_
      · simpa [hv] using hlive (t.isolate key)
      · by_cases he : token = other
        · simp [lease?, PastCall.deed, he] at hd
        · simp only [lease?, PastCall.deed, true_and, if_neg he] at hd
          have hother := (h.holds_iff other).1 ⟨d, hd, hrun⟩
          exact he (Option.some.inj (hv.symm.trans hother))
    · refine h.congr h.available (h.distinct.compareAndDelete ..) ?_ fun other => ?_
      · simpa [hk] using hlive k
      · simp [lease?, PastCall.deed, hk]
  · rw [decide_eq_false hv]
    refine h.congr h.available (h.distinct.compareAndDelete ..) ?_ fun _ => rfl
    simpa [hv] using hlive k

theorem renew (h : Tied k x clock.now) :
    let r := x.store.entries.compareAndExpire clock.now (t.isolate key) token ttl
    Tied k ⟨{ x.store with entries := r.2 },
      ⟨clock.now, t, .renew key token ttl, .ok (.renewed (Lease.renewal r.1 clock.wall ttl))⟩
        :: x.history⟩ clock.now := by
  intro r
  have hr : r.1 =
      decide ((x.store.entries.live? (t.isolate key) clock.now).map (·.value) = some token) :=
    Entries.compareAndExpire_fst ..
  have hlive := Entries.live?_compareAndExpire x.store.entries clock.now (t.isolate key) token ttl
  rw [hr]
  by_cases hv : (x.store.entries.live? (t.isolate key) clock.now).map (·.value) = some token
  · rw [decide_eq_true hv]
    by_cases hk : t.isolate key = k
    · subst hk
      obtain ⟨d₀, hd₀, hrun₀⟩ := (h.holds_iff token).2 hv
      refine replace token (Entry.deadlineAfter clock.now (some ttl)) h.available
        (h.distinct.compareAndExpire ..) ?_ ?_ fun other hne ⟨d, hd, hrun⟩ => ?_
      · simpa [hv] using hlive (t.isolate key)
      · simp [lease?, PastCall.deed, Lease.renewal, hd₀, hrun₀]
      · simp only [lease?, PastCall.deed, Lease.renewal, true_and, if_neg hne.symm] at hd
        have hother := (h.holds_iff other).1 ⟨d, hd, hrun⟩
        exact hne (Option.some.inj (hother.symm.trans hv))
    · refine h.congr h.available (h.distinct.compareAndExpire ..) ?_ fun other => ?_
      · simpa [hk] using hlive k
      · simp [lease?, PastCall.deed, Lease.renewal, hk]
  · rw [decide_eq_false hv]
    refine h.congr h.available (h.distinct.compareAndExpire ..) ?_ fun _ => rfl
    simpa [hv] using hlive k

end Steps

theorem call (g : Gateway) (clock : Clock) (fresh : String) (t : Tenant) (r : Request)
    (h : Tied k x clock.now) : Tied k (x.step (.call g clock fresh t r)) clock.now := by
  rcases g.admits_or_refused t r with ha | ⟨e, he⟩
  · have hcall := Gateway.call_of_admits clock fresh x.store ha
    cases r with
    | acquire key ttl =>
      obtain ⟨hans, hst, -⟩ :=
        Reply.outcome_eq_iff.1 (hcall.trans (Gateway.perform_acquire h.available key ttl))
      simp only [Shared.step, hans, hst]
      exact h.acquire fresh
    | release key token =>
      obtain ⟨hans, hst, -⟩ :=
        Reply.outcome_eq_iff.1 (hcall.trans (Gateway.perform_release h.available key token))
      simp only [Shared.step, hans, hst]
      exact h.release
    | renew key token ttl =>
      obtain ⟨hans, hst, -⟩ :=
        Reply.outcome_eq_iff.1 (hcall.trans (Gateway.perform_renew h.available key token ttl))
      simp only [Shared.step, hans, hst]
      exact h.renew
    | publish channel payload =>
      obtain ⟨hans, hst, -⟩ :=
        Reply.outcome_eq_iff.1 (hcall.trans (Gateway.perform_publish h.available channel payload))
      simp only [Shared.step, hans, hst]
      exact h.congr h.available h.distinct rfl fun _ => rfl
    | subscribe names =>
      obtain ⟨hans, hst, -⟩ :=
        Reply.outcome_eq_iff.1 (hcall.trans (Gateway.perform_subscribe h.available names))
      simp only [Shared.step, hans, hst]
      exact h.congr
        (Store.available_subscribed h.available _ (· ++ [{ id := x.store.hub.nextId }]))
        h.distinct rfl fun _ => rfl
  · obtain ⟨hans, hst, -⟩ := Reply.outcome_eq_iff.1
      (Gateway.call_of_refused clock fresh x.store he)
    simp only [Shared.step, hans, hst]
    exact h.congr h.available h.distinct rfl fun _ => by cases r <;> rfl

/-- The step lemma. -/
theorem step {e : SharedEvent} (h : Tied k x e.time) (hs : e.Spares k) :
    Tied k (x.step e) e.time := by
  cases e with
  | call g clock fresh t r => exact h.call g clock fresh t r
  | sweep now =>
    exact h.congr h.available h.distinct.purge (Entries.live?_purge h.distinct k) fun _ => rfl
  | direct now c =>
    rw [Shared.step, Store.answer_of_available h.available]
    exact h.congr h.available (h.distinct.answer c) (Entries.live?_answer_of_ne hs) fun _ => rfl

/-- The run lemma. -/
theorem run {es : List SharedEvent} : ∀ {x : Shared} {start now : Instant}, Tied k x start →
    (∀ e ∈ es, start ≤ e.time) → (es.Pairwise fun a b => a.time ≤ b.time) →
    (∀ e ∈ es, e.Spares k) → start ≤ now → (∀ e ∈ es, e.time ≤ now) → Tied k (x.run es) now := by
  induction es with
  | nil => exact fun h _ _ _ hle _ => h.later hle
  | cons e es ih =>
    intro x start now h hstart ht hs _ hlast
    obtain ⟨hhead, htail⟩ := List.pairwise_cons.1 ht
    have he : Tied k (x.step e) e.time :=
      (h.later (hstart e List.mem_cons_self)).step (hs e List.mem_cons_self)
    exact ih he hhead htail (fun a ha => hs a (List.mem_cons_of_mem _ ha))
      (hlast e List.mem_cons_self) (fun a ha => hlast a (List.mem_cons_of_mem _ ha))

end Tied

/-! ## Answers -/

section Answers

variable {k : String} {x : Shared} (clock : Clock) {g : Gateway} {fresh : String} {t : Tenant}
  {key : String}

theorem acquire_succeeds_iff (h : Tied k x clock.now) {ttl : Span} (hk : t.isolate key = k)
    (ha : g.Admits t (.acquire key ttl)) :
    Response.succeeded (g.call clock fresh t (.acquire key ttl) x.store).answer = true ↔
      ∀ token, ¬ Holds x.history k token clock.now := by
  have hcall := (Gateway.call_of_admits clock fresh x.store ha).trans
    (Gateway.perform_acquire h.available key ttl)
  obtain ⟨hans, -, -⟩ := Reply.outcome_eq_iff.1 hcall
  rw [hans, h.free_iff, Entries.setIfAbsent_fst, hk]
  cases x.store.entries.live? k clock.now <;> simp [Response.succeeded, Lease.grant]

theorem release_succeeds_iff (h : Tied k x clock.now) {token : String} (hk : t.isolate key = k)
    (ha : g.Admits t (.release key token)) :
    Response.succeeded (g.call clock fresh t (.release key token) x.store).answer = true ↔
      Holds x.history k token clock.now := by
  have hcall := (Gateway.call_of_admits clock fresh x.store ha).trans
    (Gateway.perform_release h.available key token)
  obtain ⟨hans, -, -⟩ := Reply.outcome_eq_iff.1 hcall
  rw [hans, h.holds_iff, Entries.compareAndDelete_fst, hk]
  exact decide_eq_true_iff

theorem renew_succeeds_iff (h : Tied k x clock.now) {token : String} {ttl : Span}
    (hk : t.isolate key = k) (ha : g.Admits t (.renew key token ttl)) :
    Response.succeeded (g.call clock fresh t (.renew key token ttl) x.store).answer = true ↔
      Holds x.history k token clock.now := by
  have hcall := (Gateway.call_of_admits clock fresh x.store ha).trans
    (Gateway.perform_renew h.available key token ttl)
  obtain ⟨hans, -, -⟩ := Reply.outcome_eq_iff.1 hcall
  rw [hans, h.holds_iff, Entries.compareAndExpire_fst, hk]
  exact decide_eq_true_iff

end Answers

/-! ## Changes -/

def Request.lockKey? : Request → Option String
  | .acquire key _ | .release key _ | .renew key _ _ => some key
  | _ => none

/-- The event is a lock call on `k` that succeeds. -/
def Shared.Serves (x : Shared) (k : String) : SharedEvent → Prop
  | .call g clock fresh t r =>
    r.lockKey?.map t.isolate = some k ∧
      Response.succeeded (g.call clock fresh t r x.store).answer = true
  | _ => False

def LockDeed.key? : LockDeed → Option String
  | .granted k _ _ | .freed k _ | .extended k _ _ => some k
  | .nothing => none

/-- What did something to a lock was a lock call on it that succeeded. -/
theorem PastCall.served_of_deed {p : PastCall} {k : String} (h : p.deed.key? = some k) :
    p.request.lockKey?.map p.tenant.isolate = some k ∧ Response.succeeded p.answer = true := by
  unfold PastCall.deed at h
  split at h
  · rename_i hr ha
    rw [hr, ha]
    exact ⟨h, rfl⟩
  · rename_i hr ha
    rw [hr, ha]
    exact ⟨h, rfl⟩
  · rename_i hr ha
    rw [hr, ha]
    exact ⟨h, rfl⟩
  · cases h

theorem lease?_cons_of_key_ne {k : String} {p : PastCall} (h : p.deed.key? ≠ some k)
    (token : String) (history : List PastCall) :
    lease? k token (p :: history) = lease? k token history := by
  rw [lease?]
  cases hd : p.deed with
  | nothing => rfl
  | granted k' _ _ | freed k' _ | extended k' _ _ =>
    have hne : k' ≠ k := fun e => h (by rw [hd, LockDeed.key?, e])
    exact if_neg fun ⟨e, _⟩ => hne e

theorem Tied.unchanged {k : String} {x : Shared} {e : SharedEvent} (h : Tied k x e.time)
    (hs : e.Spares k) (hn : ¬ x.Serves k e) :
    (∀ token, lease? k token (x.step e).history = lease? k token x.history) ∧
      (x.step e).store.entries.live? k e.time = x.store.entries.live? k e.time := by
  have hlease : ∀ token, lease? k token (x.step e).history = lease? k token x.history := by
    cases e with
    | call g clock fresh t r =>
      let p : PastCall := ⟨clock.now, t, r, (g.call clock fresh t r x.store).answer⟩
      have hkey : p.deed.key? ≠ some k := fun hd => hn (p.served_of_deed hd)
      exact fun token => lease?_cons_of_key_ne hkey token x.history
    | sweep now => exact fun _ => rfl
    | direct now c => exact fun _ => rfl
  refine ⟨hlease, Option.ext fun ⟨token, d⟩ => ?_⟩
  rw [← (h.step hs).lease_iff, hlease, h.lease_iff]

/-! ## Dead tokens -/

/-- A call after which a token holds a key found it holding the key, or granted it. -/
theorem holds_of_cons {k token : String} {p : PastCall} {history : List PastCall}
    (h : Holds (p :: history) k token p.now) :
    Holds history k token p.now ∨ ∃ k' d, p.deed = .granted k' token d := by
  obtain ⟨d, hl, hr⟩ := h
  rw [lease?] at hl
  cases hd : p.deed with
  | nothing =>
    rw [hd] at hl
    exact .inl ⟨d, hl, hr⟩
  | granted k' token' d' =>
    rw [hd] at hl
    by_cases hsame : k' = k ∧ token' = token
    · exact .inr ⟨k', d', by rw [hsame.2]⟩
    · exact .inl ⟨d, (if_neg hsame).symm.trans hl, hr⟩
  | freed k' token' =>
    rw [hd] at hl
    by_cases hsame : k' = k ∧ token' = token
    · cases (if_pos hsame).symm.trans hl
    · exact .inl ⟨d, (if_neg hsame).symm.trans hl, hr⟩
  | extended k' token' d' =>
    rw [hd] at hl
    by_cases hsame : k' = k ∧ token' = token
    · obtain ⟨old, hold, hmap⟩ := Option.map_eq_some_iff.1 ((if_pos hsame).symm.trans hl)
      by_cases hrun : Running p.now old
      · exact .inl ⟨old, hold, hrun⟩
      · rw [if_neg hrun] at hmap
        exact absurd (hmap ▸ hr) hrun
    · exact .inl ⟨d, (if_neg hsame).symm.trans hl, hr⟩

/-- A token that is granted was generated by the call that grants it. -/
theorem token?_of_granted {g : Gateway} {clock : Clock} {fresh : String} {t : Tenant} {r : Request}
    {s : Store} (ho : s.available = .ok ()) {k token : String} {d : Option Instant}
    (h : (PastCall.mk clock.now t r (g.call clock fresh t r s).answer).deed = .granted k token d) :
    (SharedEvent.call g clock fresh t r).token? = some token := by
  cases r with
  | acquire key ttl =>
    rcases g.admits_or_refused t (.acquire key ttl) with ha | ⟨e, he⟩
    · have hcall := (Gateway.call_of_admits clock fresh s ha).trans
        (Gateway.perform_acquire ho key ttl)
      obtain ⟨hans, -, -⟩ := Reply.outcome_eq_iff.1 hcall
      rw [hans] at h
      rw [SharedEvent.token?, ha]
      cases hb : (s.entries.setIfAbsent clock.now (t.isolate key) fresh (some ttl)).1 with
      | true =>
        rw [hb] at h
        cases h
        rfl
      | false =>
        rw [hb] at h
        cases h
    · obtain ⟨hans, -, -⟩ := Reply.outcome_eq_iff.1
        (Gateway.call_of_refused clock fresh s he)
      rw [hans] at h
      cases h
  | _ =>
    unfold PastCall.deed at h
    split at h <;> simp_all

/-- A token that holds nothing on `k`, and is not generated again, never holds it again. -/
theorem Tied.stays_dead {k token : String} {es : List SharedEvent} :
    ∀ {x : Shared} {start now : Instant}, Tied k x start → ¬ Holds x.history k token start →
      (∀ e ∈ es, start ≤ e.time) → (es.Pairwise fun a b => a.time ≤ b.time) →
      (∀ e ∈ es, e.Spares k) → token ∉ es.filterMap SharedEvent.token? → start ≤ now →
      (∀ e ∈ es, e.time ≤ now) → ¬ Holds (x.run es).history k token now := by
  induction es with
  | nil => exact fun _ hn _ _ _ _ hle _ ⟨d, hd, hr⟩ => hn ⟨d, hd, hr.earlier hle⟩
  | cons e es ih =>
    intro x start now h hn hstart ht hs hfresh _ hlast
    obtain ⟨hhead, htail⟩ := List.pairwise_cons.1 ht
    have he := h.later (hstart e List.mem_cons_self)
    have hne : ¬ Holds x.history k token e.time :=
      fun ⟨d, hd, hr⟩ => hn ⟨d, hd, hr.earlier (hstart e List.mem_cons_self)⟩
    have hdead : ¬ Holds (x.step e).history k token e.time := by
      cases e with
      | call g clock fresh t r =>
        intro hh
        rcases holds_of_cons (p := ⟨clock.now, t, r, (g.call clock fresh t r x.store).answer⟩) hh with
          hh | ⟨k', d, hd⟩
        · exact hne hh
        · exact hfresh (List.mem_filterMap.2
            ⟨_, List.mem_cons_self, token?_of_granted he.available hd⟩)
      | sweep now => exact hne
      | direct now c => exact hne
    refine ih (he.step (hs e List.mem_cons_self)) hdead hhead htail
      (fun a ha => hs a (List.mem_cons_of_mem _ ha)) (fun hm => hfresh ?_)
      (hlast e List.mem_cons_self) (fun a ha => hlast a (List.mem_cons_of_mem _ ha))
    obtain ⟨a, ha, hta⟩ := List.mem_filterMap.1 hm
    exact List.mem_filterMap.2 ⟨a, List.mem_cons_of_mem _ ha, hta⟩

/-! ## Exclusion -/

/-- Locks exclude each other, over every run of gateways that share an open store and leave the
key of the lock to lock calls. At every instant from the last event on: the live entry under the key
is the running lease; at most one token holds the key; a lock call that reaches the store succeeds
just when nobody holds it, or when its token does; no other event changes who holds it or until
when. And where generated tokens differ, a token that held no more never holds again. -/
theorem locks_exclusive {s : Store} (ho : s.available = .ok ()) (hd : s.entries.Distinct)
    {k : String} (hk : s.entries.find? k = none) {es : List SharedEvent}
    (ht : es.Pairwise fun a b => a.time ≤ b.time) (hs : ∀ e ∈ es, e.Spares k) {now : Instant}
    (hnow : ∀ e ∈ es, e.time ≤ now) :
    let x := Shared.run ⟨s, []⟩ es
    (∀ token d, lease? k token x.history = some d ∧ Running now d ↔
      x.store.entries.live? k now = some ⟨token, d⟩) ∧
    (∀ token other, Holds x.history k token now → Holds x.history k other now → token = other) ∧
    (∀ (g : Gateway) (wall : Timestamp) (fresh : String) (t : Tenant) (key : String) (ttl : Span),
      t.isolate key = k → g.Admits t (.acquire key ttl) →
      (Response.succeeded (g.call ⟨now, wall⟩ fresh t (.acquire key ttl) x.store).answer = true ↔
        ∀ token, ¬ Holds x.history k token now)) ∧
    (∀ (g : Gateway) (wall : Timestamp) (fresh : String) (t : Tenant) (key token : String),
      t.isolate key = k → g.Admits t (.release key token) →
      (Response.succeeded (g.call ⟨now, wall⟩ fresh t (.release key token) x.store).answer = true ↔
        Holds x.history k token now)) ∧
    (∀ (g : Gateway) (wall : Timestamp) (fresh : String) (t : Tenant) (key token : String)
      (ttl : Span), t.isolate key = k → g.Admits t (.renew key token ttl) →
      (Response.succeeded (g.call ⟨now, wall⟩ fresh t (.renew key token ttl) x.store).answer = true ↔
        Holds x.history k token now)) ∧
    (∀ e : SharedEvent, e.time = now → e.Spares k → ¬ x.Serves k e →
      (∀ token, lease? k token (x.step e).history = lease? k token x.history) ∧
        (x.step e).store.entries.live? k now = x.store.entries.live? k now) ∧
    ((es.filterMap SharedEvent.token?).Nodup → ∀ ys zs, es = ys ++ zs → ∀ token mid,
      (∀ y ∈ ys, y.time ≤ mid) → (∀ z ∈ zs, mid ≤ z.time) → mid ≤ now →
      token ∈ ys.filterMap SharedEvent.token? →
      ¬ Holds (Shared.run ⟨s, []⟩ ys).history k token mid → ¬ Holds x.history k token now) := by
  have hzero : ∀ t : Instant, (⟨0⟩ : Instant) ≤ t := fun t => Nat.zero_le t.ns
  have hstart : Tied k ⟨s, []⟩ ⟨0⟩ :=
    .vacate ho hd (by rw [Entries.live?_eq_bind, hk]; rfl) fun _ ⟨_, hl, _⟩ => by cases hl
  have h : Tied k (Shared.run ⟨s, []⟩ es) now :=
    hstart.run (fun e _ => hzero e.time) ht hs (hzero now) hnow
  refine ⟨h.lease_iff, fun token other h₁ h₂ => ?_, ?_, ?_, ?_, ?_, ?_⟩
  · exact Option.some.inj (((h.holds_iff token).1 h₁).symm.trans ((h.holds_iff other).1 h₂))
  · exact fun g wall fresh t key ttl hkey ha =>
      acquire_succeeds_iff ⟨now, wall⟩ h hkey ha
  · exact fun g wall fresh t key token hkey ha =>
      release_succeeds_iff ⟨now, wall⟩ h hkey ha
  · exact fun g wall fresh t key token ttl hkey ha =>
      renew_succeeds_iff ⟨now, wall⟩ h hkey ha
  · rintro e rfl hspare hn
    exact h.unchanged hspare hn
  · rintro hnodup ys zs rfl token mid hys hzs hmid hmem hdead
    rw [List.filterMap_append] at hnodup
    have hys' : Tied k (Shared.run ⟨s, []⟩ ys) mid :=
      hstart.run (fun e _ => hzero e.time) (List.pairwise_append.1 ht).1
        (fun e he => hs e (List.mem_append_left _ he)) (hzero mid) hys
    rw [Shared.run, List.foldl_append]
    exact hys'.stays_dead hdead hzs (List.pairwise_append.1 ht).2.1
      (fun e he => hs e (List.mem_append_right _ he))
      (fun hz => (List.nodup_append.1 hnodup).2.2 token hmem token hz rfl) hmid
      (fun e he => hnow e (List.mem_append_right _ he))

/-- A lease of 10 ns that is renewed after 5: its token holds the lock at 14, and at 15 the lock can
be taken. -/
theorem locks_exclusive_renewed :
    let g : Gateway := {}
    let t : Tenant := ⟨"u", none⟩
    let es : List SharedEvent :=
      [.call g ⟨⟨0⟩, default⟩ "T" t (.acquire "job" ⟨10⟩), .sweep ⟨3⟩,
        .call g ⟨⟨5⟩, default⟩ "" t (.renew "job" "T" ⟨10⟩)]
    let x := Shared.run ⟨.ofCapacity 4, []⟩ es
    (∀ other, Holds x.history "user-u:job" other ⟨14⟩ → other = "T") ∧
      Holds x.history "user-u:job" "T" ⟨14⟩ ∧
      Response.succeeded (g.call ⟨⟨15⟩, default⟩ "V" t (.acquire "job" ⟨10⟩) x.store).answer = true := by
  intro g t es x
  have ho : (Store.ofCapacity 4).available = .ok () := rfl
  have hd : (Store.ofCapacity 4).entries.Distinct := .nil
  have ht : es.Pairwise fun a b => a.time ≤ b.time := by decide
  have hs : ∀ e ∈ es, e.Spares "user-u:job" := by simp [es, SharedEvent.Spares]
  have hfree : (Store.ofCapacity 4).entries.find? "user-u:job" = none := rfl
  have hkey : t.isolate "job" = "user-u:job" := by decide
  have hbefore : ∀ e ∈ es, e.time ≤ ⟨14⟩ := by decide
  have hafter : ∀ e ∈ es, e.time ≤ ⟨15⟩ := by decide
  have hrunning := locks_exclusive ho hd hfree ht hs hbefore
  have hover := locks_exclusive ho hd hfree ht hs hafter
  have hT : Holds x.history "user-u:job" "T" ⟨14⟩ := ⟨some ⟨15⟩, by decide, by decide⟩
  refine ⟨fun other h => hrunning.2.1 other "T" h hT, hT, ?_⟩
  refine (hover.2.2.1 g default "V" t "job" ⟨10⟩ hkey rfl).2 fun token ⟨d, h⟩ => ?_
  have hnone : x.store.entries.live? "user-u:job" ⟨15⟩ = none := by decide
  cases hnone.symm.trans ((hover.1 token d).1 h)

end Tenancy
