import Tenancy.Proofs.Store.Written

/-!
# The rhythm of a sweeper

When the next sweep comes does not depend on what is in the store: `turn?` is the sweeper after its
turn. Once a sweeper has ticked, it is `InRhythm`: nothing is due, and what is planned is at most an
interval after the last tick. So that tick is less than an interval and a step ago, whenever the
sweeper is asked (`InRhythm.recent`). A sweeper stops by itself only near the end of time
(`turn?_isSome`), where it sweeps whenever it is asked.
-/

namespace Tenancy.Sweeper

variable {w w' : Sweeper} {now later u : Instant}

/-! ## Steps of the timer -/

theorem stepAt_le (t : Instant) : stepAt t ≤ lastStep := Nat.min_le_right _ _

theorem stepAt_mono (h : now ≤ later) : stepAt now ≤ stepAt later := by
  rw [Instant.le_def] at h
  have hdiv := Nat.div_le_div_right (c := step) h
  unfold stepAt
  omega

/-- Before the last step, instants are compared with the last whole step. -/
theorem stepFor_le_iff (t : Instant) (h : stepAt now < lastStep) :
    stepFor t ≤ stepAt now ↔ t.ns ≤ stepAt now * step := by
  unfold stepFor stepAt step at *
  omega

theorem stepAt_mul_le (t : Instant) : stepAt t * step ≤ t.ns := by
  unfold stepAt step
  omega

/-- A plan on a step is due when its time has come, any other less than a step later. -/
theorem stepFor_le_of_le {t : Instant} (hle : t ≤ now)
    (h : step ∣ t.ns ∨ t.ns + step ≤ now.ns) : stepFor t ≤ stepAt now := by
  rw [Instant.le_def] at hle
  unfold stepFor stepAt step at *
  omega

theorem isDue_iff : w.isDue now = true ↔ stepFor w.next ≤ stepAt now := by
  unfold isDue
  exact decide_eq_true_iff

/-- At the last step every sweep is due. -/
theorem lt_lastStep_of_waits (h : w.isDue now = false) : stepAt now < lastStep := by
  have hle : stepFor w.next ≤ lastStep := Nat.min_le_right _ _
  have hnot : ¬ stepFor w.next ≤ stepAt now := fun hdue => by
    rw [isDue_iff.2 hdue] at h
    cases h
  omega

/-- A sweeper waits until less than a step after its plan. -/
theorem lt_of_waits (h : w.isDue now = false) : now.ns < w.next.ns + step := by
  have hlast := lt_lastStep_of_waits h
  have hnot : ¬ w.next.ns ≤ stepAt now * step := fun hle => by
    rw [isDue_iff.2 ((stepFor_le_iff w.next hlast).2 hle)] at h
    cases h
  unfold stepAt step at *
  omega

/-! ## Turns -/

/-- The sweeper after its turn at `now`, unless it had to stop. -/
def turn? (w : Sweeper) (now : Instant) : Option Sweeper :=
  if w.isDue now then
    (w.plan? now).bind fun next =>
      (next.after? ⟨w.repeats now next * w.interval.ns⟩).map fun next => { w with next }
  else some w

theorem run_fst (w : Sweeper) (now : Instant) (s : Store) : (w.run now s).1 = w.turn? now := by
  unfold run turn?
  cases w.isDue now with
  | false => rfl
  | true =>
    cases w.plan? now with
    | none => rfl
    | some next => rfl

theorem runAll_fst (now : Instant) (ws : List Sweeper) (s : Store) :
    (runAll now ws s).1 = ws.filterMap (·.turn? now) := by
  induction ws generalizing s with
  | nil => rfl
  | cons w ws ih =>
    have hfst := w.run_fst now s
    rw [runAll]
    generalize w.run now s = ran at hfst ⊢
    cases hturn : w.turn? now with
    | none =>
      rw [List.filterMap_cons_none (f := fun v : Sweeper => v.turn? now) hturn, ← ih ran.2, hfst, hturn]
      rfl
    | some w' =>
      rw [List.filterMap_cons_some (f := fun v : Sweeper => v.turn? now) hturn, ← ih ran.2, hfst, hturn]
      rfl

/-- A turn at which nothing is due changes nothing. -/
theorem turn?_of_waits (h : w.isDue now = false) : w.turn? now = some w := by
  unfold turn?
  rw [h]
  rfl

/-- The inversion of a turn at which a sweep is due. -/
theorem eq_of_ticks (hdue : w.isDue now = true) (h : w.turn? now = some w') :
    ∃ next, w.plan? now = some next ∧
      w' = { w with next := ⟨next.ns + w.repeats now next * w.interval.ns⟩ } := by
  unfold turn? at h
  rw [if_pos hdue] at h
  obtain ⟨next, hplan, h⟩ := Option.bind_eq_some_iff.1 h
  obtain ⟨next', hnext', rfl⟩ := Option.map_eq_some_iff.1 h
  cases (Instant.after?_eq_some_iff.1 hnext').2
  exact ⟨next, hplan, rfl⟩

theorem interval_turn? (h : w.turn? now = some w') : w'.interval = w.interval := by
  cases hdue : w.isDue now with
  | false =>
    rw [turn?_of_waits hdue] at h
    cases h
    rfl
  | true =>
    obtain ⟨next, -, rfl⟩ := eq_of_ticks hdue h
    rfl

/-- A sweep before the last step is not due before its plan. -/
theorem next_le_of_due (hdue : w.isDue now = true) (hlast : stepAt now < lastStep) :
    w.next.ns ≤ now.ns :=
  Nat.le_trans ((stepFor_le_iff w.next hlast).1 (isDue_iff.1 hdue)) (stepAt_mul_le now)

/-- The second of two sweeps is planned at most an interval from now. -/
theorem plan?_le {next : Instant} (hdue : w.isDue now = true) (hlast : stepAt now < lastStep)
    (h : w.plan? now = some next) : next.ns ≤ now.ns + w.interval.ns := by
  have hpast := next_le_of_due hdue hlast
  unfold plan? at h
  split at h
  · cases (Instant.after?_eq_some_iff.1 h).2
    exact Nat.le_refl _
  · cases (Instant.after?_eq_some_iff.1 h).2
    exact Nat.add_le_add_right hpast _

/-- The sweeps after the first one bring the plan past the last whole step, but not further than an
interval from now. -/
theorem repeats_bounds {next : Instant} (hpos : 0 < w.interval.ns) (hlast : stepAt now < lastStep)
    (hnext : next.ns ≤ now.ns + w.interval.ns) :
    stepAt now * step < next.ns + w.repeats now next * w.interval.ns ∧
      next.ns + w.repeats now next * w.interval.ns ≤ now.ns + w.interval.ns := by
  have hstep := stepAt_mul_le now
  unfold repeats
  rw [if_neg (Nat.ne_of_lt hlast)]
  by_cases hmore : stepFor next ≤ stepAt now
  · have hlate := (stepFor_le_iff next hlast).1 hmore
    have hdiv := Nat.div_add_mod (stepAt now * step - next.ns) w.interval.ns
    have hmod := Nat.mod_lt (stepAt now * step - next.ns) hpos
    rw [if_pos hmore, Nat.succ_mul, Nat.mul_comm (_ / _)]
    omega
  · have hahead : stepAt now * step < next.ns :=
      Nat.lt_of_not_le fun hle => hmore ((stepFor_le_iff next hlast).2 hle)
    rw [if_neg hmore, Nat.zero_mul]
    exact ⟨hahead, hnext⟩

/-- After a tick before the last step nothing is due, and the next tick is planned at most an
interval from now. -/
theorem bounds_of_ticks (hpos : 0 < w.interval.ns) (hdue : w.isDue now = true)
    (hlast : stepAt now < lastStep) (h : w.turn? now = some w') :
    w'.isDue now = false ∧ w'.next.ns ≤ now.ns + w.interval.ns := by
  obtain ⟨next, hplan, rfl⟩ := eq_of_ticks hdue h
  obtain ⟨hahead, hle⟩ := repeats_bounds hpos hlast (plan?_le hdue hlast hplan)
  refine ⟨decide_eq_false fun hnow => ?_, hle⟩
  exact absurd ((stepFor_le_iff _ hlast).1 hnow) (Nat.not_le.2 hahead)

/-- Only near the end of time a sweeper has to stop. -/
theorem turn?_isSome (hpos : 0 < w.interval.ns) (hmax : w.interval.ns ≤ maxInterval.ns)
    (hlast : stepAt now < lastStep) : ∃ w', w.turn? now = some w' := by
  cases hdue : w.isDue now with
  | false => exact ⟨w, turn?_of_waits hdue⟩
  | true =>
    have hpast := next_le_of_due hdue hlast
    have hroom : now.ns + w.interval.ns ≤ Instant.last.ns := by
      have hend : lastStep * step + maxInterval.ns ≤ Instant.last.ns := by decide
      unfold stepAt step at *
      omega
    have hplan : ∃ next, w.plan? now = some next := by
      unfold plan?
      split
      · exact ⟨_, Instant.after?_eq_some_iff.2 ⟨hroom, rfl⟩⟩
      · exact ⟨_, Instant.after?_eq_some_iff.2 ⟨by omega, rfl⟩⟩
    obtain ⟨next, hnext⟩ := hplan
    have hle := (repeats_bounds hpos hlast (plan?_le hdue hlast hnext)).2
    have hmore : next.after? ⟨w.repeats now next * w.interval.ns⟩ =
        some ⟨next.ns + w.repeats now next * w.interval.ns⟩ :=
      Instant.after?_eq_some_iff.2 ⟨Nat.le_trans hle hroom, rfl⟩
    unfold turn?
    rw [if_pos hdue, hnext, Option.bind_some, hmore]
    exact ⟨_, rfl⟩

/-! ## Rhythm -/

/-- The sweeper between its ticks, of which `u` is the last. -/
inductive InRhythm (w : Sweeper) (now : Instant) : Instant → Prop where
  | waits (u : Instant) (hpast : u ≤ now) (hwaits : w.isDue now = false)
    (hnext : w.next.ns ≤ u.ns + w.interval.ns) : InRhythm w now u
  /-- At the last step it ticks whenever it is asked. -/
  | atEnd (hlast : stepAt now = lastStep) : InRhythm w now now

theorem InRhythm.past (h : w.InRhythm now u) : u ≤ now := by
  cases h with
  | waits u hpast => exact hpast
  | atEnd => exact Instant.le_refl now

/-- The last tick is less than an interval and a step ago. -/
theorem InRhythm.recent (h : w.InRhythm now u) : now.ns < u.ns + w.interval.ns + step := by
  cases h with
  | waits u hpast hwaits hnext =>
    have hlt := lt_of_waits hwaits
    omega
  | atEnd =>
    have hstep : 0 < step := by decide
    omega

theorem inRhythm_of_ticks (hpos : 0 < w.interval.ns) (hdue : w.isDue now = true)
    (h : w.turn? now = some w') : w'.InRhythm now now := by
  by_cases hlast : stepAt now = lastStep
  · exact .atEnd hlast
  · have hbefore := Nat.lt_of_le_of_ne (stepAt_le now) hlast
    obtain ⟨hwaits, hnext⟩ := bounds_of_ticks hpos hdue hbefore h
    exact .waits now (Instant.le_refl now) hwaits (interval_turn? h ▸ hnext)

theorem InRhythm.mono (h : w.InRhythm now u) (hle : now ≤ later) (hwaits : w.isDue later = false) :
    w.InRhythm later u := by
  cases h with
  | waits u hpast _ hnext => exact .waits u (Instant.le_trans hpast hle) hwaits hnext
  | atEnd hlast =>
    -- what is asked at the last step once never waits again
    have hbefore := Nat.lt_of_le_of_lt (stepAt_mono hle) (lt_lastStep_of_waits hwaits)
    exact absurd hlast (Nat.ne_of_lt hbefore)

/-! ## What a round of sweepers does to the store -/

theorem runAll_subset (now : Instant) (ws : List Sweeper) (s : Store) :
    (runAll now ws s).2.entries ⊆ s.entries :=
  runAll_keeps (p := fun s' => s'.entries ⊆ s.entries)
    (fun h => List.Subset.trans (Entries.purge_subset _ now) h) ws (List.Subset.refl _)

/-- A round removes nothing but what is expired. -/
theorem mem_runAll_of_live {x : String × Entry} (hx : x.2.isExpired now = false) (ws : List Sweeper)
    {s : Store} (h : x ∈ s.entries) : x ∈ (runAll now ws s).2.entries :=
  runAll_keeps (p := fun s' => x ∈ s'.entries) (fun h => Entries.mem_purge.2 ⟨h, hx⟩) ws h

/-- A round with a tick removes all that is expired. -/
theorem live_of_mem_runAll {x : String × Entry} {ws : List Sweeper} (hw : w ∈ ws)
    (hdue : w.isDue now = true) (hturn : w.turn? now = some w') {s : Store}
    (h : x ∈ (runAll now ws s).2.entries) : x.2.isExpired now = false := by
  induction ws generalizing s with
  | nil => cases hw
  | cons v ws ih =>
    rw [runAll] at h
    rcases List.mem_cons.1 hw with rfl | hw
    · have hran := runAll_subset now ws _ h
      obtain ⟨next, hplan, -⟩ := eq_of_ticks hdue hturn
      unfold run at hran
      rw [if_pos hdue, hplan] at hran
      exact (Entries.mem_purge.1 hran).2
    · exact ih hw h

end Tenancy.Sweeper
