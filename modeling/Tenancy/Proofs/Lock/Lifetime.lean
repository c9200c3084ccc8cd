import Tenancy.Proofs.Gateway.Admission
import Tenancy.Proofs.Lock.Holder
import Tenancy.Proofs.Store.Written

/-!
# No lease is longer than the longest

Gateways that allow leases of at most `M` share a store, and nobody else writes its entries.
`Reached` are the states that such a store comes to, with the calls that were made and the time.
Every entry then held was leased by one of these calls, no more than `M` before its deadline
(`Shared.Leased`): what writes an entry is such a call, and whatever else happens only removes
entries. As long as `M` from now can be represented there is no other deadline to set, so nothing is
held for ever (`leases_run_out`).
-/

namespace Tenancy

variable {M : Span} {x y : Shared} {now later : Instant} {k : String} {e : Entry}

/-- Where a long lease ends at a time, so does a shorter one. -/
theorem Instant.after?_of_le {ttl : Span} (hroom : (now.after? M).isSome) (httl : ttl ≤ M) :
    now.after? ttl = some ⟨now.ns + ttl.ns⟩ := by
  obtain ⟨latest, hlatest⟩ := Option.isSome_iff_exists.1 hroom
  have hlast := (after?_eq_some_iff.1 hlatest).1
  exact after?_eq_some_iff.2 ⟨Nat.le_trans (Nat.add_le_add_left httl _) hlast, rfl⟩

/-! ## Runs -/

/-- The call can set a deadline, or leave one out. -/
def KeyCall.writes : KeyCall → Bool
  | .set _ _ _ | .setIfAbsent _ _ _ | .compareAndExpire _ _ _ | .expire _ _ => true
  | .get _ | .delete _ | .compareAndDelete _ _ | .ttl _ => false

theorem Store.answer_subset {s : Store} {c : KeyCall} (hc : c.writes = false) :
    (s.answer now c).2.entries ⊆ s.entries := by
  have hworks : ∀ {α : Type} (f : Entries → α × Entries), (f s.entries).2 ⊆ s.entries →
      (s.onEntries f).2.entries ⊆ s.entries := by
    intro α f hf
    unfold Store.onEntries
    split
    · exact List.Subset.refl _
    · exact hf
  cases c with
  | get k => exact hworks (·.get now k) (s.entries.get_subset now k)
  | delete k => exact hworks (·.delete now k) (s.entries.delete_subset now k)
  | compareAndDelete k v =>
    exact hworks (·.compareAndDelete now k v) (s.entries.compareAndDelete_subset now k v)
  | ttl k => exact List.Subset.refl _
  | set | setIfAbsent | compareAndExpire | expire => cases hc

/-- The lease that an admitted request asks for is not longer than the longest. -/
theorem Gateway.ttl_le_of_admits {g : Gateway} {t : Tenant} {r : Request} {ttl : Span}
    (ha : g.Admits t r) (hr : r.ttl? = some ttl) : ttl ≤ g.settings.maxLockTtl := by
  have hlease := List.findSome?_eq_none_iff.1 (admits_iff.1 ha) .lease (by decide)
  rw [Check.complaint?, hr] at hlease
  simp only [Option.any_some, decide_eq_true_eq, ite_eq_right_iff, reduceCtorEq, imp_false,
    not_not] at hlease
  exact hlease.2

/-- Entries are written through gateways alone, and these allow leases of at most `M`. -/
def SharedEvent.Within (M : Span) : SharedEvent → Prop
  | .call g _ _ _ _ => g.settings.maxLockTtl = M
  | .sweep _ => True
  | .direct _ c => c.writes = false

/-- What a shared store comes to, with the calls that were made of it, and when. The store has no
entries at first. A lease of length `M` could be represented at all times. -/
inductive Reached (M : Span) : Shared → Instant → Prop
  | start (s : Store) (now : Instant) (hempty : s.entries = []) (hroom : (now.after? M).isSome) :
    Reached M ⟨s, []⟩ now
  | event {x : Shared} {now : Instant} (e : SharedEvent) (hx : Reached M x now)
    (hle : now ≤ e.time) (hwithin : e.Within M) (hroom : (e.time.after? M).isSome) :
    Reached M (x.step e) e.time
  | wait {x : Shared} {now : Instant} (later : Instant) (hx : Reached M x now) (hle : now ≤ later)
    (hroom : (later.after? M).isSome) : Reached M x later
  /-- The store is closed, its connection fails, something happens to its hub. -/
  | aside {x : Shared} {now : Instant} (s : Store) (hx : Reached M x now)
    (hkept : s.entries = x.store.entries) : Reached M { x with store := s } now

/-- The call was a successful acquire or renew of the key by the owner of the token. -/
def PastCall.Leases (p : PastCall) (k token : String) : Prop :=
  ∃ d, p.deed = .granted k token d ∨ p.deed = .extended k token d

/-! ## The invariant -/

/-- A past call leased the entry, for `M` at most. -/
def Shared.Leased (M : Span) (x : Shared) (now : Instant) (k : String) (e : Entry) : Prop :=
  ∃ p ∈ x.history, p.Leases k e.value ∧ p.now ≤ now ∧
    ∃ d, e.deadline = some d ∧ d.ns ≤ p.now.ns + M.ns

/-- All held entries were leased. -/
def Shared.Bounded (M : Span) (x : Shared) (now : Instant) : Prop :=
  ∀ k e, (k, e) ∈ x.store.entries → x.Leased M now k e

theorem Shared.Leased.mono (h : x.Leased M now k e) (hhistory : x.history ⊆ y.history)
    (hle : now ≤ later) : y.Leased M later k e := by
  obtain ⟨p, hp, hleases, hpast, hd⟩ := h
  exact ⟨p, hhistory hp, hleases, Instant.le_trans hpast hle, hd⟩

namespace Shared.Bounded

/-- What writes no entry keeps the bound. -/
theorem mono (h : x.Bounded M now) (hentries : y.store.entries ⊆ x.store.entries)
    (hhistory : x.history ⊆ y.history) (hle : now ≤ later) : y.Bounded M later :=
  fun k e he => (h k e (hentries he)).mono hhistory hle

/-- A new call that leases a key for `M` at most, on top of what was there. -/
theorem lease {p : PastCall} {ttl : Span} (h : x.Bounded M now) (token : String)
    (hle : now ≤ p.now) (hroom : (p.now.after? M).isSome) (httl : ttl ≤ M)
    (hhistory : y.history = p :: x.history)
    (hentries : ∀ k' e, (k', e) ∈ y.store.entries → (k', e) ∈ x.store.entries ∨
      p.Leases k token ∧ k' = k ∧ e = ⟨token, Entry.deadlineAfter p.now (some ttl)⟩) :
    y.Bounded M p.now := by
  intro k' e he
  rcases hentries k' e he with hold | ⟨hleases, rfl, rfl⟩
  · exact (h k' e hold).mono (hhistory ▸ List.subset_cons_self _ _) hle
  · have hend := Instant.after?_of_le hroom httl
    refine ⟨p, hhistory ▸ List.mem_cons_self, hleases, Instant.le_refl _, _, hend, ?_⟩
    exact Nat.add_le_add_left httl _

theorem call {g : Gateway} {clock : Clock} {fresh : String} {t : Tenant} {r : Request}
    (h : x.Bounded M now) (hg : g.settings.maxLockTtl = M) (hle : now ≤ clock.now)
    (hroom : (clock.now.after? M).isSome) :
    (x.step (.call g clock fresh t r)).Bounded M clock.now := by
  have hhistory := List.subset_cons_self
    (PastCall.mk clock.now t r (g.call clock fresh t r x.store).answer) x.history
  -- a call that leaves the entries as they are
  have hkept : ∀ {answer : Except GatewayError Response} {store : Store} {feed : Option Feed},
      (g.call clock fresh t r x.store).outcome = (answer, store, feed) →
      store.entries ⊆ x.store.entries →
      (x.step (.call g clock fresh t r)).Bounded M clock.now := by
    intro answer store feed houtcome hsub
    obtain ⟨-, hstore, -⟩ := Reply.outcome_eq_iff.1 houtcome
    refine h.mono ?_ hhistory hle
    rw [Shared.step, hstore]
    exact hsub
  rcases g.admits_or_refused t r with ha | ⟨e, he⟩
  case inr => exact hkept (Gateway.call_of_refused clock fresh x.store he) (List.Subset.refl _)
  have hcall := Gateway.call_of_admits clock fresh x.store ha
  cases ho : x.store.available with
  | error e =>
    exact hkept (hcall.trans (Gateway.perform_of_unavailable ho)) (List.Subset.refl _)
  | ok u =>
    cases r with
    | acquire key ttl =>
      obtain ⟨hanswer, hstore, -⟩ :=
        Reply.outcome_eq_iff.1 (hcall.trans (Gateway.perform_acquire ho key ttl))
      have httl : ttl ≤ M := hg ▸ Gateway.ttl_le_of_admits ha rfl
      have hnew : (x.step (.call g clock fresh t (.acquire key ttl))).history = _ :: x.history := rfl
      refine h.lease (k := t.isolate key) fresh hle hroom httl hnew fun k' e he => ?_
      rw [Shared.step, hstore] at he
      refine (Entries.mem_setIfAbsent he).imp_right fun hwritten =>
        ⟨⟨Entry.deadlineAfter clock.now (some ttl), .inl ?_⟩, hwritten.2⟩
      rw [hanswer, hwritten.1]
      rfl
    | release key token =>
      exact hkept (hcall.trans (Gateway.perform_release ho key token))
        (Entries.compareAndDelete_subset ..)
    | renew key token ttl =>
      obtain ⟨hanswer, hstore, -⟩ :=
        Reply.outcome_eq_iff.1 (hcall.trans (Gateway.perform_renew ho key token ttl))
      have httl : ttl ≤ M := hg ▸ Gateway.ttl_le_of_admits ha rfl
      have hnew : (x.step (.call g clock fresh t (.renew key token ttl))).history = _ :: x.history :=
        rfl
      refine h.lease (k := t.isolate key) token hle hroom httl hnew fun k' e he => ?_
      rw [Shared.step, hstore] at he
      refine (Entries.mem_compareAndExpire he).imp_right fun hwritten =>
        ⟨⟨Entry.deadlineAfter clock.now (some ttl), .inr ?_⟩, hwritten.2⟩
      rw [hanswer, hwritten.1]
      rfl
    | publish channel payload =>
      exact hkept (hcall.trans (Gateway.perform_publish ho channel payload)) (List.Subset.refl _)
    | subscribe names =>
      exact hkept (hcall.trans (Gateway.perform_subscribe ho names)) (List.Subset.refl _)

theorem step {e : SharedEvent} (h : x.Bounded M now) (hwithin : e.Within M) (hle : now ≤ e.time)
    (hroom : (e.time.after? M).isSome) : (x.step e).Bounded M e.time := by
  cases e with
  | call g clock fresh t r => exact h.call hwithin hle hroom
  | sweep swept => exact h.mono (Entries.purge_subset ..) (List.Subset.refl _) hle
  | direct at_ c => exact h.mono (Store.answer_subset hwithin) (List.Subset.refl _) hle

theorem reached (h : Reached M x now) : x.Bounded M now := by
  induction h with
  | start s now hempty hroom =>
    intro k e he
    rw [hempty] at he
    cases he
  | event e hx hle hwithin hroom ih => exact ih.step hwithin hle hroom
  | wait later hx hle hroom ih => exact ih.mono (List.Subset.refl _) (List.Subset.refl _) hle
  | aside s hx hkept ih =>
    exact ih.mono (hkept ▸ List.Subset.refl _) (List.Subset.refl _) (Instant.le_refl _)

/-- A live entry was leased less than `M` ago. -/
theorem leased_of_live (h : x.Bounded M now) (hl : x.store.entries.live? k now = some e) :
    ∃ p ∈ x.history, p.Leases k e.value ∧ now.ns < p.now.ns + M.ns := by
  obtain ⟨hfind, hlive⟩ := Entries.live?_eq_some_iff.1 hl
  obtain ⟨p, hp, hleases, -, d, hd, hend⟩ := h k e (Entries.mem_of_find? hfind)
  exact ⟨p, hp, hleases, Nat.lt_of_lt_of_le (Entry.deadline_gt_of_live hlive hd) hend⟩

end Shared.Bounded

/-- Nothing is held for ever. Whatever is held has a deadline, at most `M` away. So a token holds
its key for at most `M` after the last call that leased the key to it, and if no call leased the key
to anybody since then, it is free: the next one who may take it, does. -/
theorem leases_run_out (h : Reached M x now) :
    (∀ k e, (k, e) ∈ x.store.entries → ∃ d, e.deadline = some d ∧ now.spanTo d ≤ M) ∧
    (∀ k token, (∀ p ∈ x.history, p.Leases k token → p.now.ns + M.ns ≤ now.ns) →
      ∀ e, x.store.entries.live? k now = some e → e.value ≠ token) ∧
    (∀ k, (∀ p ∈ x.history, ∀ token, p.Leases k token → p.now.ns + M.ns ≤ now.ns) →
      x.store.entries.live? k now = none ∧
      ∀ (g : Gateway) (wall : Timestamp) (fresh : String) (t : Tenant) (key : String) (ttl : Span),
        t.isolate key = k → g.Admits t (.acquire key ttl) → x.store.available = .ok () →
        Response.succeeded
          (g.call ⟨now, wall⟩ fresh t (.acquire key ttl) x.store).answer = true) := by
  have hbounded := Shared.Bounded.reached h
  refine ⟨fun k e he => ?_, fun k token hstopped e hl hv => ?_, fun k hstopped => ?_⟩
  · obtain ⟨p, -, -, hpast, d, hd, hend⟩ := hbounded k e he
    refine ⟨d, hd, ?_⟩
    rw [Instant.le_def] at hpast
    show d.ns - now.ns ≤ M.ns
    omega
  · obtain ⟨p, hp, hleases, hrecent⟩ := hbounded.leased_of_live hl
    exact absurd hrecent (Nat.not_lt.2 (hstopped p hp (hv ▸ hleases)))
  · have hfree : x.store.entries.live? k now = none := by
      refine Option.eq_none_iff_forall_ne_some.2 fun e hl => ?_
      obtain ⟨p, hp, hleases, hrecent⟩ := hbounded.leased_of_live hl
      exact absurd hrecent (Nat.not_lt.2 (hstopped p hp e.value hleases))
    refine ⟨hfree, ?_⟩
    rintro g wall fresh t key ttl rfl ha ho
    obtain ⟨hanswer, -, -⟩ := Reply.outcome_eq_iff.1
      ((Gateway.call_of_admits ⟨now, wall⟩ fresh x.store ha).trans
        (Gateway.perform_acquire ho key ttl))
    rw [hanswer, Entries.setIfAbsent_fst, hfree]
    rfl

/-- Leases of at most 10 ns: one that is taken at 0 and renewed at 5 is over at 15, when somebody
else takes the lock. -/
theorem leases_run_out_renewed :
    let g : Gateway := { settings := { maxLockTtl := ⟨10⟩ } }
    let t : Tenant := ⟨"u", none⟩
    let x := Shared.run ⟨.ofCapacity 4, []⟩
      [.call g ⟨⟨0⟩, default⟩ "T" t (.acquire "job" ⟨10⟩), .sweep ⟨3⟩,
        .call g ⟨⟨5⟩, default⟩ "" t (.renew "job" "T" ⟨10⟩)]
    Reached ⟨10⟩ x ⟨5⟩ ∧ Reached ⟨10⟩ x ⟨15⟩ ∧
      (∃ d, x.store.entries = [("user-u:job", ⟨"T", some d⟩)] ∧ Instant.spanTo ⟨5⟩ d ≤ ⟨10⟩) ∧
      Response.succeeded (g.call ⟨⟨15⟩, default⟩ "V" t (.acquire "job" ⟨10⟩) x.store).answer = true := by
  intro g t x
  have hstart : Reached ⟨10⟩ ⟨.ofCapacity 4, []⟩ ⟨0⟩ := .start _ _ rfl (by decide)
  have hrenewed : Reached ⟨10⟩ x ⟨5⟩ :=
    ((hstart.event (.call g ⟨⟨0⟩, default⟩ "T" t (.acquire "job" ⟨10⟩)) (by decide) rfl
      (by decide)).event (.sweep ⟨3⟩) (by decide) trivial (by decide)).event
      (.call g ⟨⟨5⟩, default⟩ "" t (.renew "job" "T" ⟨10⟩)) (by decide) rfl (by decide)
  have hover : Reached ⟨10⟩ x ⟨15⟩ := hrenewed.wait ⟨15⟩ (by decide) (by decide)
  have hentries : x.store.entries = [("user-u:job", ⟨"T", some ⟨15⟩⟩)] := by decide
  refine ⟨hrenewed, hover, ⟨⟨15⟩, hentries, ?_⟩, ?_⟩
  · obtain ⟨d, hd, hle⟩ := (leases_run_out hrenewed).1 "user-u:job" ⟨"T", some ⟨15⟩⟩
      (hentries ▸ List.mem_singleton_self _)
    cases hd
    exact hle
  · refine ((leases_run_out hover).2.2 "user-u:job" ?_).2 g default "V" t "job" ⟨10⟩ (by decide) rfl
      rfl
    intro p hp token ⟨d, hd⟩
    rcases List.mem_cons.1 hp with rfl | hp
    · exact Nat.le_refl 15
    · cases List.mem_singleton.1 hp
      exact (by decide : (0 : Nat) + 10 ≤ 15)

end Tenancy
