import Tenancy.Metrics
import Tenancy.Proofs.Relay.Move
import Tenancy.Proofs.Store.Books

/-!
# Running relays

A relay runs from its start until it has ended; one that could not open its subscription never
runs. While it runs it holds its subscription, and a move of the relay moves the books of the store
(`Store.InOrder.moves`) and the gauge of running relays (`Relay.gauge_move?`) by exactly what it
changes of that.
-/

namespace Tenancy

namespace Metrics

theorem total_append (a b : List Sample) (x : Series) :
    total (a ++ b) x = total a x + total b x := by
  have hsum : ∀ ns : List Int, ns.foldr (· + ·) 0 = ns.sum := fun _ => rfl
  unfold total
  rw [List.flatMap_append, List.filterMap_append, hsum, hsum, hsum, List.sum_append]

/-- What samples make of the number of running relays. -/
def gauge (samples : List Sample) : Int := total samples .activeRelays

theorem gauge_append (a b : List Sample) : gauge (a ++ b) = gauge a + gauge b := total_append a b _

end Metrics

open Metrics

namespace Relay

/-- It has started to read its subscription, and has not returned. -/
def isRunning (r : Relay) : Bool := r.source.isSome && !r.isEnded

/-- The subscription that it holds. -/
def holding? (r : Relay) : Option (Nat × List String) :=
  if r.isEnded then none else r.source.map fun id => (id, distinct r.channels)

theorem isSome_holding? (r : Relay) : r.holding?.isSome = r.isRunning := by
  unfold holding? isRunning
  cases r.isEnded <;> cases r.source <;> rfl

/-- The channels that it holds are its own ones while it runs. -/
theorem holds_iff (r : Relay) (c : String) :
    ((r.holding?.map fun p => decide (c ∈ p.2)).getD false = true) ↔
      (r.isRunning && decide (c ∈ r.channels)) = true := by
  unfold holding? isRunning
  cases r.isEnded with
  | true => simp
  | false =>
    cases r.source with
    | none => simp
    | some id =>
      have hc : c ∈ distinct r.channels ↔ c ∈ r.channels := mem_distinct
      simp [hc]

/-- The relay as the gauge counts it. -/
def weigh (r : Relay) : Int := if r.isRunning then 1 else 0

/-- What tells whether a relay runs, and on which channels. -/
theorem holding?_congr {r r' : Relay} (hs : r'.source = r.source) (hc : r'.channels = r.channels)
    (he : r'.isEnded = r.isEnded) : r'.holding? = r.holding? := by
  unfold holding?
  rw [hs, hc, he]

theorem weigh_congr {r r' : Relay} (hs : r'.source = r.source) (he : r'.isEnded = r.isEnded) :
    r'.weigh = r.weigh := by
  unfold weigh isRunning
  rw [hs, he]

/-! ## The gauge -/

/-- Ending takes off the gauge what runs. -/
theorem gauge_finish {r : Relay} (hr : r.isEnded = false) (o : RelayOutcome) :
    gauge (r.finish o).2.samples + r.weigh = (r.finish o).1.weigh := by
  unfold finish weigh isRunning
  rw [hr]
  cases r.source <;> rfl

theorem isEnded_accept (r : Relay) (a : Arrival) (now : Timestamp) :
    (r.accept a now).1.isEnded = false := by
  cases a <;> rfl

theorem gauge_accept {r : Relay} (hr : r.isEnded = false) (a : Arrival) (now : Timestamp) :
    gauge (r.accept a now).2.samples + r.weigh = (r.accept a now).1.weigh := by
  have hsource : (r.accept a now).1.source = r.source := by cases a <;> rfl
  have hsamples : (r.accept a now).2.samples = [] := by cases a <;> rfl
  rw [hsamples, weigh_congr hsource ((r.isEnded_accept a now).trans hr.symm)]
  exact Int.zero_add _

variable {r r' : Relay} {e : Effects}

theorem gauge_heed (hr : r.isEnded = false) (h : r.heed = some (r', e)) :
    gauge e.samples + r.weigh = r'.weigh := by
  obtain ⟨o, -, ho⟩ := Option.map_eq_some_iff.1 h
  have hgauge := gauge_finish hr o
  rw [ho] at hgauge
  exact hgauge

theorem gauge_handOver (h : r.handOver = some (r', e)) : gauge e.samples + r.weigh = r'.weigh := by
  unfold handOver at h
  split at h
  · rename_i m hp
    have hr : r.isEnded = false := by
      unfold isEnded
      rw [hp]
    split at h
    · rename_i o ho
      cases h
      exact gauge_finish hr o
    · split at h
      · cases h
        have hsame : ({ r with mailbox := r.mailbox.put (.message m), phase := .asking } :
            Relay).weigh = r.weigh := weigh_congr rfl hr.symm
        rw [hsame]
        exact Int.zero_add _
      · cases h
  · rename_i err o hp
    have hr : r.isEnded = false := by
      unfold isEnded
      rw [hp]
    split at h
    · cases h
      exact gauge_finish hr o
    · split at h
      · cases h
        have hput : ({ r with mailbox := r.mailbox.put (.failure (.ofStore err)) } :
            Relay).isEnded = false := hr
        exact gauge_finish hput o
      · cases h
  · cases h

theorem gauge_move? {s s' : Store} {now : Timestamp} (h : r.move? s now = some (r', s', e)) :
    gauge e.samples + r.weigh = r'.weigh := by
  have hask : r.isEnded = false → r.ask? s now = some (r', s', e) →
      gauge e.samples + r.weigh = r'.weigh := by
    intro hr ha
    unfold ask? at ha
    split at ha
    · rename_i r₁ e₁ hheed
      cases ha
      exact gauge_heed hr hheed
    · cases ha
    · rename_i id hheed hsource
      split at ha
      · cases ha
      · cases ha
        exact gauge_accept hr _ now
  have hgive : r.give? s = some (r', s', e) → gauge e.samples + r.weigh = r'.weigh := by
    intro hg
    obtain ⟨⟨r₁, e₁⟩, hover, heq⟩ := Option.map_eq_some_iff.1 hg
    cases heq
    exact gauge_handOver hover
  unfold move? at h
  split at h
  · rename_i hp
    exact hask (by unfold isEnded; rw [hp]) h
  · rename_i hp
    exact hask (by unfold isEnded; rw [hp]) h
  · exact hgive h
  · exact hgive h
  · cases h

end Relay

/-! ## The books -/

/-- A relay that ends drops what it holds; another move leaves the subscriptions alone. -/
theorem Store.InOrder.moves {shut : Bool} {r r' : Relay} {s s' : Store} {now : Timestamp}
    {pre post : Holdings}
    (h : s.InOrder shut (pre ++ (r.holding?.toList ++ post))) (hm : r.Moves s now r' s') :
    s'.InOrder shut (pre ++ (r'.holding?.toList ++ post)) := by
  have hrun := hm.unended
  cases hm with
  | stop o mailbox hr =>
    have hended : ({ r with mailbox, phase := .ended o } : Relay).holding? = none := rfl
    rw [hended]
    unfold Relay.holding? at h
    rw [hrun] at h
    unfold Relay.release
    cases hsource : r.source with
    | none =>
      rw [hsource] at h
      exact h
    | some id =>
      rw [hsource] at h
      exact h.drop
  | take id hr hphase =>
    have hsame : (r.accept (s.receive id r.turn).1 now).1.holding? = r.holding? := by
      refine Relay.holding?_congr ?_ ?_ ((r.isEnded_accept _ now).trans hrun.symm)
      · cases (s.receive id r.turn).1 <;> rfl
      · cases (s.receive id r.turn).1 <;> rfl
    rw [hsame]
    exact h.receive id r.turn
  | give m hr =>
    have hsame : ({ r with mailbox := r.mailbox.put (.message m), phase := .asking } :
        Relay).holding? = r.holding? := Relay.holding?_congr rfl rfl hrun.symm
    rw [hsame]
    exact h

end Tenancy
