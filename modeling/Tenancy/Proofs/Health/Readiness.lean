import Tenancy.Health.Route
import Tenancy.Proofs.Forms
import Tenancy.Proofs.Service.Deeds

/-!
# Readiness

The page under `/health/ready` is made of one ping, and says of all other calls what becomes of them
(`Health.readiness_true_closing_final`): a store that is ready answers each of them, and one that is
not refuses each of them and stays as it is. Once it was closed a store is never ready again.
-/

namespace Tenancy.Health

variable {s : Store} {latencyMs uptimeSeconds : Nat}

/-- The page has the status, and the health in its body. -/
def Page.Says (p : Page) (status : Nat) (health : HealthStatus) : Prop :=
  p.status = status ∧ ∃ j, p.body = .json j ∧ HealthStatus.form.get "status" j = some health

/-! ## The page -/

theorem status_of_available (h : s.available = .ok ()) :
    (ready s latencyMs uptimeSeconds).status = .healthy := by
  show (ofStore s latencyMs).status = .healthy
  rw [ofStore, Store.ping, h]

theorem status_of_unavailable {e : StoreError} (h : s.available = .error e) :
    (ready s latencyMs uptimeSeconds).status = .unhealthy := by
  show (ofStore s latencyMs).status = .unhealthy
  rw [ofStore, Store.ping, h]

theorem get_status (h : Health) : HealthStatus.form.get "status" (form.toJson h) = some h.status :=
  (HealthStatus.form_lawful 0).get_eq trivial (by simp [form])

theorem respond_ready (s : Store) (latencyMs uptimeSeconds : Nat) :
    respond "GET" "/health/ready" s latencyMs uptimeSeconds =
      page .ready s latencyMs uptimeSeconds := by
  have hroute : Route.ofTarget? "/health/ready" = some .ready := by decide
  rw [respond, hroute]
  rfl

theorem says_iff {status : Nat} {health : HealthStatus} :
    (respond "GET" "/health/ready" s latencyMs uptimeSeconds).Says status health ↔
      (ready s latencyMs uptimeSeconds).status = health ∧
        (if health = .healthy then 200 else 503) = status := by
  rw [respond_ready]
  constructor
  · rintro ⟨hstatus, j, hj, hget⟩
    cases hj
    rw [get_status] at hget
    cases hget
    exact ⟨rfl, hstatus⟩
  · rintro ⟨rfl, rfl⟩
    exact ⟨rfl, _, rfl, get_status _⟩

theorem says_healthy_iff :
    (respond "GET" "/health/ready" s latencyMs uptimeSeconds).Says 200 .healthy ↔
      s.available = .ok () := by
  rw [says_iff, if_pos rfl, and_iff_left rfl]
  refine ⟨fun h => ?_, status_of_available⟩
  cases ha : s.available with
  | ok u => rfl
  | error e => cases h.symm.trans (status_of_unavailable ha)

theorem says_unhealthy_iff :
    (respond "GET" "/health/ready" s latencyMs uptimeSeconds).Says 503 .unhealthy ↔
      ∃ e, s.available = .error e := by
  rw [says_iff, if_neg nofun, and_iff_left rfl]
  refine ⟨fun h => ?_, fun ⟨e, he⟩ => status_of_unavailable he⟩
  cases ha : s.available with
  | ok u => cases h.symm.trans (status_of_available ha)
  | error e => exact ⟨e, rfl⟩

/-! ## The other calls -/

/-- All calls but the ping agree with the ping. -/
theorem available_iff_answers :
    s.available = .ok () ↔ ∀ now c, c ≠ .ping → ∃ a, (s.call now c).1 = .ok a := by
  refine ⟨fun h now c _ => Store.call_of_available h now c, fun h => ?_⟩
  cases ha : s.available with
  | ok u => rfl
  | error e =>
    obtain ⟨a, hanswer⟩ := h ⟨0⟩ (.get "") nofun
    rw [Store.call_of_unavailable ha] at hanswer
    cases hanswer

theorem unavailable_iff_refuses :
    (∃ e, s.available = .error e) ↔
      ∀ now c, c ≠ .ping → ∃ e, (s.call now c).1 = .error e := by
  constructor
  · rintro ⟨e, he⟩ now c -
    exact ⟨e, by rw [Store.call_of_unavailable he]⟩
  · intro h
    cases ha : s.available with
    | error e => exact ⟨e, rfl⟩
    | ok u =>
      obtain ⟨e, hanswer⟩ := h ⟨0⟩ (.get "") nofun
      obtain ⟨a, hok⟩ := Store.call_of_available ha ⟨0⟩ (.get "")
      cases hok.symm.trans hanswer

/-- Whatever was done to a store, it reports itself ready just if no call but the ping would fail, and
not ready just if all would, which is as long as its switch is on and from its close on. A store that
was closed refuses all calls from then on and stays as it is, one without a switch because it is
closed. No entry comes into it, and one goes only by a sweep at or after its deadline; no subscription
is opened, and nothing more comes to those that are. All that a service does to its store are such
deeds. -/
theorem readiness_true_closing_final :
    (∀ (s : Store) (ds : List (Instant × Store.Deed)) (latencyMs uptimeSeconds : Nat),
      let s' := s.undergo ds
      let page := respond "GET" "/health/ready" s' latencyMs uptimeSeconds
      (page.Says 200 .healthy ↔ ∀ now c, c ≠ .ping → ∃ a, (s'.call now c).1 = .ok a) ∧
      (page.Says 503 .unhealthy ↔ ∀ now c, c ≠ .ping → ∃ e, (s'.call now c).1 = .error e) ∧
      (page.Says 200 .healthy ∨ page.Says 503 .unhealthy) ∧
      (page.Says 503 .unhealthy ↔
        (∃ on, s.failing? = some on ∧ (Store.lastSwitch? ds).getD on = true) ∨
          s.closed = true ∨ ∃ d ∈ ds, d.2 = .close)) ∧
    (∀ (s : Store) (ds : List (Instant × Store.Deed)),
      let s' := s.close.undergo ds
      (∀ now c, ∃ e, s'.call now c = (.error e, s')) ∧
      (s.faults = none → ∀ now c, s'.call now c = (.error .closed, s')) ∧
      s'.entries.Sublist s.entries ∧
      (∀ x ∈ s.entries, x ∉ s'.entries ↔
        ∃ d ∈ ds, d.2 = .sweep ∧ ∃ deadline, x.2.deadline = some deadline ∧ deadline ≤ d.1) ∧
      (s'.hub.subscriptions.map (·.id)).Sublist (s.hub.subscriptions.map (·.id)) ∧
      s'.hub.Frozen) ∧
    ∀ (s : Service) (xs : List Step), ∃ ds, (s.run xs).2.store = s.store.undergo ds ∧
      ∀ d ∈ ds, s.clock.now ≤ d.1 ∧ d.1 ≤ (s.run xs).2.clock.now := by
  refine ⟨fun s ds latencyMs uptimeSeconds => ?_, fun s ds => ?_, fun s xs => (s.undergo_of_run xs).2⟩
  · intro s' page
    refine ⟨says_healthy_iff.trans available_iff_answers,
      says_unhealthy_iff.trans unavailable_iff_refuses, ?_, ?_⟩
    · cases h : s'.available with
      | ok u => exact .inl (says_healthy_iff.2 h)
      | error e => exact .inr (says_unhealthy_iff.2 ⟨e, h⟩)
    · rw [says_unhealthy_iff, Store.unavailable_iff, Store.failing?_undergo, Store.closed_undergo,
        Option.map_eq_some_iff]
  · intro s'
    have hwanes : s.close.Wanes ds s' := Store.wanes_undergo rfl s.hub.frozen_close ds
    obtain ⟨e, he⟩ := Store.unavailable_iff.2 (.inr hwanes.closed)
    refine ⟨fun now c => ⟨e, Store.call_of_unavailable he now c⟩, fun hplain => ?_, hwanes.held,
      fun x hx => ?_, ?_, hwanes.frozen⟩
    · exact Store.call_of_unavailable (Store.available_undergo_of_closed (s := s.close) hplain rfl ds)
    · rw [hwanes.gone_iff x hx]
      simp only [Entry.isExpired_iff]
    · rw [← Hub.ids_close s.hub]
      exact hwanes.ids

/-- Behind a switch a store is not ready while that is on, and again once it is off. In a closed store
in memory, an entry that ends at 2 ms outlives a sweep at 1 ms, cannot be renewed then, and is removed
by the sweep at 2 ms. -/
theorem readiness_true_closing_final_entry :
    let behind := (Store.ofCapacity 1).behindSwitch
    let cut : List (Instant × Store.Deed) := [(⟨0⟩, .setFailing true)]
    let mended : List (Instant × Store.Deed) := [(⟨0⟩, .setFailing true), (⟨1⟩, .setFailing false)]
    let s := (Store.ofCapacity 1).undergo [(⟨0⟩, .call (.set "k" "v" (some (.ofMillis 2))))]
    let entry : String × Entry := ("k", ⟨"v", some ⟨2000000⟩⟩)
    let early : List (Instant × Store.Deed) :=
      [(⟨1000000⟩, .sweep), (⟨1000000⟩, .call (.expire "k" (.ofMillis 9)))]
    let late := early ++ [(⟨2000000⟩, .sweep)]
    (respond "GET" "/health/ready" (behind.undergo cut) 0 0).Says 503 .unhealthy ∧
      (respond "GET" "/health/ready" (behind.undergo mended) 0 0).Says 200 .healthy ∧
      s.faults = none ∧ entry ∈ s.entries ∧ entry ∈ (s.close.undergo early).entries ∧
      entry ∉ (s.close.undergo late).entries ∧
      ∀ now c, (s.close.undergo late).call now c = (.error .closed, s.close.undergo late) := by
  intro behind cut mended s entry early late
  obtain ⟨hready, hclosed, -⟩ := readiness_true_closing_final
  obtain ⟨-, -, -, hcut⟩ := hready behind cut 0 0
  obtain ⟨-, -, hmended, hfails⟩ := hready behind mended 0 0
  obtain ⟨-, -, -, hearly, -⟩ := hclosed s early
  obtain ⟨-, hrefused, -, hlate, -⟩ := hclosed s late
  have hplain : s.faults = none := rfl
  have hmem : entry ∈ s.entries := by decide
  refine ⟨hcut.2 (.inl ⟨false, rfl, rfl⟩), hmended.resolve_right fun h => ?_, hplain, hmem, ?_, ?_,
    hrefused hplain⟩
  · rcases hfails.1 h with ⟨on, -, hon⟩ | hclosed | ⟨d, hd, hclose⟩
    · cases hon
    · cases hclosed
    · have hnone : ∀ d ∈ mended, d.2 ≠ .close := by decide
      exact hnone d hd hclose
  · by_contra hgone
    obtain ⟨d, hd, hsweep, deadline, hends, hle⟩ := (hearly entry hmem).1 hgone
    cases hends
    have hbefore : ∀ d ∈ early, ¬ (⟨2000000⟩ : Instant) ≤ d.1 := by decide
    exact hbefore d hd hle
  · exact (hlate entry hmem).2 ⟨(⟨2000000⟩, .sweep), by decide, rfl, ⟨2000000⟩, rfl, by decide⟩

end Tenancy.Health
