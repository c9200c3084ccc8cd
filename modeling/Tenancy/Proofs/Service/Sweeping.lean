import Tenancy.Proofs.Service.Alike
import Tenancy.Proofs.Service.Setup
import Tenancy.Proofs.Store.Sweeper

/-!
# What sweepers leave

`Sweeps` are the states of a sweeper in a service, from its start on. What a step writes does not end
before that step (`Service.Works`), and a round with a tick removes all that has ended by then, and
nothing else. So of what is held between two ticks nothing ended before the first of them
(`Sweeper.Watches`). The ticks are less than an interval and a step apart, and so no entry is held
that long after its end (`sweeps_dead_keeps_live`).
-/

namespace Tenancy

variable {now later : Instant}

/-! ## Deeds and relays -/

theorem Store.addsFrom_after (s : Store) (now : Instant) (d : Deed) : s.AddsFrom now (s.after now d) := by
  cases d with
  | call c => exact s.addsFrom_call now c
  | sweep => exact Entries.addsFrom_of_subset (s.entries.purge_subset now)
  | receive id turn => exact addsFrom_of_eq (s.entries_receive id turn)
  | passTurn id => exact addsFrom_of_eq (s.entries_passTurn id)
  | _ => exact addsFrom_of_eq rfl

theorem Store.Becomes.addsFrom {s s' : Store} (h : s.Becomes now s') : s.AddsFrom now s' :=
  h.keeps (p := s.AddsFrom now) (fun {s'} d hs => hs.trans (s'.addsFrom_after now d))
    (addsFrom_of_eq rfl)

theorem Relay.Moves.entries_eq {r r' : Relay} {s s' : Store} {now : Timestamp}
    (h : r.Moves s now r' s') : s'.entries = s.entries := by
  cases h with
  | stop o mailbox hr =>
    unfold release
    split <;> rfl
  | take id hr hphase => exact s.entries_receive id r.turn
  | give m hr => rfl

/-! ## What a step does -/

namespace Service

/-- Relays that move leave the clock, the sweepers and the entries alone. -/
theorem settle_leaves (s : Service) : s.settle.clock = s.clock ∧ s.settle.sweepers = s.sweepers ∧
    s.settle.store.entries = s.store.entries := by
  let p (s' : Service) : Prop := s'.clock = s.clock ∧ s'.sweepers = s.sweepers ∧
    s'.store.entries = s.store.entries
  have hmoved : p (settleIn s.reach s) := by
    refine settleIn_keeps (p := p) (fun h hmove => ?_) s.reach ⟨rfl, rfl, rfl⟩
    obtain ⟨l₁, t, l₂, t', hm, -⟩ := movesAt_of_move? hmove
    exact ⟨hm.alike.clock.trans h.1, hm.alike.sweepers.trans h.2.1,
      hm.relay_moves.entries_eq.trans h.2.2⟩
  have hdelivered := alike_deliver (settleIn s.reach s)
  rw [settle, hdelivered.clock, hdelivered.sweepers, hdelivered.store]
  exact hmoved

/-- Neither time nor the sweepers go on, and what is written does not end before now. -/
structure Works (s s' : Service) : Prop where
  clock : s'.clock = s.clock
  sweepers : s'.sweepers = s.sweepers
  adds : s.store.AddsFrom s.clock.now s'.store

theorem Undergoes.works {s s' : Service} (h : s.Undergoes s') : s.Works s' :=
  ⟨h.clock, h.sweepers, h.store.addsFrom⟩

/-- What a step does at once, as far as sweepers see it. -/
inductive Stirs (s : Service) : Step → Service → Prop where
  | advance (d : Span) : Stirs s (.advance d) { s with clock := s.clock.advance d }
  | startSweeper (interval : Span) (s' : Service) (hclock : s'.clock = s.clock)
    (hstore : s'.store = s.store)
    (hsweepers : s'.sweepers = s.sweepers ++ (Sweeper.start? interval s.clock.now).toList) :
    Stirs s (.startSweeper interval) s'
  | stopSweepers (s' : Service) (hclock : s'.clock = s.clock) (hstore : s'.store = s.store)
    (hsweepers : s'.sweepers = []) : Stirs s .stopSweepers s'
  | works {x : Step} {s' : Service} (hx : x ≠ .stopSweepers) (h : s.Works s') : Stirs s x s'

theorem stirs_act (s : Service) (x : Step) : s.Stirs x (s.act x).2 := by
  have hworks (h : s.Undergoes (s.act x).2) (hx : x ≠ .stopSweepers) : s.Stirs x (s.act x).2 :=
    .works hx h.works
  cases x with
  | advance d => exact .advance d
  | startSweeper interval => exact .startSweeper interval _ rfl rfl rfl
  | stopSweepers => exact .stopSweepers _ rfl rfl rfl
  | _ => exact hworks (.act s _ nofun nofun nofun) nofun

namespace Stirs

variable {s s' : Service} {x : Step} {w : Sweeper}

theorem now_le (h : s.Stirs x s') : s.clock.now ≤ s'.clock.now := by
  cases h with
  | advance d => exact Nat.le_add_right _ _
  | startSweeper interval s' hclock | stopSweepers s' hclock =>
    exact hclock ▸ Instant.le_refl _
  | works hx h => exact h.clock ▸ Instant.le_refl _

theorem adds (h : s.Stirs x s') : s.store.AddsFrom s.clock.now s'.store := by
  cases h with
  | advance d => exact Store.addsFrom_of_eq rfl
  | startSweeper interval s' _ hstore | stopSweepers s' _ hstore =>
    exact hstore ▸ Store.addsFrom_of_eq rfl
  | works hx h => exact h.adds

theorem mem_sweepers (h : s.Stirs x s') (hx : x ≠ .stopSweepers) (hw : w ∈ s.sweepers) :
    w ∈ s'.sweepers := by
  cases h with
  | advance d => exact hw
  | startSweeper interval s' _ _ hsweepers => exact hsweepers ▸ List.mem_append_left _ hw
  | stopSweepers => exact absurd rfl hx
  | works _ h => exact h.sweepers ▸ hw

end Stirs

section Round

variable {w w' : Sweeper} {y : String × Entry}

theorem clock_step (s : Service) (x : Step) : (s.step x).2.clock = (s.act x).2.clock :=
  (settle_leaves (s.act x).2).1

/-- The round of the sweepers that ends a step finds the entries that the step left at first. -/
theorem store_step (s : Service) (x : Step) : ∃ store : Store,
    store.entries = (s.act x).2.store.entries ∧ (s.step x).2.store =
      (Sweeper.runAll (s.step x).2.clock.now (s.act x).2.sweepers store).2 := by
  obtain ⟨-, hsweepers, hentries⟩ := settle_leaves (s.act x).2
  exact ⟨(s.act x).2.settle.store, hentries, hsweepers ▸ rfl⟩

theorem mem_sweepers_step {s : Service} {x : Step} : w' ∈ (s.step x).2.sweepers ↔
    ∃ w ∈ (s.act x).2.sweepers, w.turn? (s.step x).2.clock.now = some w' := by
  have hround : (s.step x).2.sweepers =
      (s.act x).2.sweepers.filterMap (·.turn? (s.step x).2.clock.now) := by
    rw [← (settle_leaves (s.act x).2).2.1]
    exact Sweeper.runAll_fst _ _ _
  rw [hround]
  exact List.mem_filterMap

theorem step_subset (s : Service) (x : Step) :
    (s.step x).2.store.entries ⊆ (s.act x).2.store.entries := by
  obtain ⟨store, hentries, hstore⟩ := s.store_step x
  rw [hstore, ← hentries]
  exact Sweeper.runAll_subset _ _ store

theorem mem_step_of_live {s : Service} {x : Step} (hy : y ∈ (s.act x).2.store.entries)
    (hlive : y.2.isExpired (s.step x).2.clock.now = false) : y ∈ (s.step x).2.store.entries := by
  obtain ⟨store, hentries, hstore⟩ := s.store_step x
  rw [hstore]
  exact Sweeper.mem_runAll_of_live hlive _ (hentries ▸ hy)

theorem live_of_mem_step {s : Service} {x : Step} (hw : w ∈ (s.act x).2.sweepers)
    (hdue : w.isDue (s.step x).2.clock.now = true)
    (hturn : w.turn? (s.step x).2.clock.now = some w') (hy : y ∈ (s.step x).2.store.entries) :
    y.2.isExpired (s.step x).2.clock.now = false := by
  obtain ⟨store, -, hstore⟩ := s.store_step x
  rw [hstore] at hy
  exact Sweeper.live_of_mem_runAll hw hdue hturn hy

end Round

end Service

/-! ## Sweepers at work -/

/-- A sweeper that started at `start`, over what is held now: it waits for its first tick, or nothing
that is held ended before its last one. -/
inductive Sweeper.Watches (w : Sweeper) (start now : Instant) (es : Entries) : Prop where
  | before (hnext : w.next = start) (hwaits : w.isDue now = false)
  | since (u : Instant) (hrhythm : w.InRhythm now u)
    (hes : ∀ k e d, (k, e) ∈ es → e.deadline = some d → u ≤ d)

namespace Sweeper.Watches

variable {w w' : Sweeper} {start : Instant} {es es' : Entries}

theorem of_ticks (hpos : 0 < w.interval.ns) (hdue : w.isDue now = true)
    (hturn : w.turn? now = some w') (hlive : ∀ x ∈ es, x.2.isExpired now = false) :
    w'.Watches start now es := by
  refine .since now (inRhythm_of_ticks hpos hdue hturn) fun k e d he hd => ?_
  exact Nat.le_of_lt (Entry.deadline_gt_of_live (hlive (k, e) he) hd)

/-- At its start a sweeper ticks at once, or waits for its first tick. -/
theorem first (hnext : w.next = start) (hpos : 0 < w.interval.ns) (hturn : w.turn? now = some w')
    (hlive : w.isDue now = true → ∀ x ∈ es, x.2.isExpired now = false) :
    w'.Watches start now es := by
  cases hdue : w.isDue now with
  | true => exact of_ticks hpos hdue hturn (hlive hdue)
  | false =>
    rw [turn?_of_waits hdue] at hturn
    cases hturn
    exact .before hnext hdue

/-- What was written since the last turn did not end before it, and a tick leaves nothing that has
ended. -/
theorem turn (h : w.Watches start now es) (hpos : 0 < w.interval.ns) (hle : now ≤ later)
    (hadds : es.AddsFrom now es') (hturn : w.turn? later = some w')
    (hlive : w.isDue later = true → ∀ x ∈ es', x.2.isExpired later = false) :
    w'.Watches start later es' := by
  cases hdue : w.isDue later with
  | true => exact of_ticks hpos hdue hturn (hlive hdue)
  | false =>
    rw [turn?_of_waits hdue] at hturn
    cases hturn
    cases h with
    | before hnext _ => exact .before hnext hdue
    | since u hrhythm hes =>
      -- what is new was written after the last turn, so after the last tick
      refine .since u (hrhythm.mono hle hdue) fun k e d he hd => ?_
      rcases hadds k e he with hold | hnew
      · exact hes k e d hold hd
      · exact Instant.le_trans hrhythm.past (hnew d hd)

/-- Once the first tick has come, nothing is held for an interval and a step after its end. -/
theorem lt (h : w.Watches start now es) (hticked : stepFor start ≤ stepAt now) {k : String}
    {e : Entry} {d : Instant} (he : (k, e) ∈ es) (hd : e.deadline = some d) :
    now.ns < d.ns + w.interval.ns + step := by
  cases h with
  | before hnext hwaits =>
    rw [isDue_iff.2 (hnext ▸ hticked)] at hwaits
    cases hwaits
  | since u hrhythm hes =>
    have hlast := hrhythm.recent
    have hend : u.ns ≤ d.ns := hes k e d he hd
    omega

end Sweeper.Watches

/-- A sweeper that was started at `start`, as it stands in a service after some steps. It may find any
entries at its start, and other sweepers may run beside it. -/
inductive Sweeps (interval : Span) : Instant → Sweeper → Service → Prop where
  | start (s : Service) {w w' : Sweeper} (hstart : Sweeper.start? interval s.clock.now = some w)
    (hturn : w.turn? s.clock.now = some w') :
    Sweeps interval s.clock.now w' (s.step (.startSweeper interval)).2
  | step {start : Instant} {w w' : Sweeper} {s : Service} (x : Step) (h : Sweeps interval start w s)
    (hx : x ≠ .stopSweepers) (hturn : w.turn? (s.step x).2.clock.now = some w') :
    Sweeps interval start w' (s.step x).2
  /-- The wall clock runs by itself. -/
  | wall {start : Instant} {w : Sweeper} {s : Service} (t : Timestamp)
    (h : Sweeps interval start w s) :
    Sweeps interval start w { s with clock := { s.clock with wall := t } }

/-- What holds of a sweeper that was started at `start`. -/
structure Sweeper.Serves (interval : Span) (start : Instant) (w : Sweeper) (s : Service) : Prop where
  mem : w ∈ s.sweepers
  pos : 0 < interval.ns
  interval_eq : w.interval.ns = min interval.ns maxInterval.ns
  start_le : start ≤ s.clock.now
  watches : w.Watches start s.clock.now s.store.entries

namespace Sweeper

variable {interval : Span} {start : Instant} {w w' : Sweeper} {s : Service}

theorem start?_eq_some_iff : start? interval now = some w ↔
    0 < interval.ns ∧ ⟨⟨min interval.ns maxInterval.ns⟩, now⟩ = w := by
  unfold start?
  rw [Option.ite_none_left_eq_some, Option.some.injEq, Nat.pos_iff_ne_zero]

theorem Serves.interval_pos (h : w.Serves interval start s) : 0 < w.interval.ns := by
  have hmax : 0 < maxInterval.ns := by decide
  have hpos := h.pos
  rw [h.interval_eq]
  omega

theorem serves_start (hstart : start? interval s.clock.now = some w)
    (hturn : w.turn? s.clock.now = some w') :
    w'.Serves interval s.clock.now (s.step (.startSweeper interval)).2 := by
  obtain ⟨hpos, hw⟩ := start?_eq_some_iff.1 hstart
  have hinterval : w.interval.ns = min interval.ns maxInterval.ns := hw ▸ rfl
  have hmem : w ∈ (s.act (.startSweeper interval)).2.sweepers :=
    List.mem_append_right _ (Option.mem_toList.2 hstart)
  have hclock : (s.step (.startSweeper interval)).2.clock = s.clock := s.clock_step _
  rw [← hclock] at hturn
  refine ⟨Service.mem_sweepers_step.2 ⟨w, hmem, hturn⟩, hpos, ?_, ?_, ?_⟩
  · rw [interval_turn? hturn]
    exact hinterval
  · exact hclock ▸ Instant.le_refl _
  · have hmax : 0 < maxInterval.ns := by decide
    exact .first (hw ▸ rfl) (by omega) hturn fun hdue y hy =>
      Service.live_of_mem_step hmem hdue hturn hy

theorem Serves.step (h : w.Serves interval start s) {x : Step} (hx : x ≠ .stopSweepers)
    (hturn : w.turn? (s.step x).2.clock.now = some w') : w'.Serves interval start (s.step x).2 := by
  have hstirs := s.stirs_act x
  have hw := hstirs.mem_sweepers hx h.mem
  have hle : s.clock.now ≤ (s.step x).2.clock.now := s.clock_step x ▸ hstirs.now_le
  refine ⟨Service.mem_sweepers_step.2 ⟨w, hw, hturn⟩, h.pos, ?_, ?_, ?_⟩
  · rw [interval_turn? hturn]
    exact h.interval_eq
  · exact Instant.le_trans h.start_le hle
  · have hadds : s.store.entries.AddsFrom s.clock.now (s.step x).2.store.entries :=
      hstirs.adds.trans (Entries.addsFrom_of_subset (s.step_subset x))
    exact h.watches.turn h.interval_pos hle hadds hturn fun hdue y hy =>
      Service.live_of_mem_step hw hdue hturn hy

theorem serves_of_sweeps (h : Sweeps interval start w s) : w.Serves interval start s := by
  induction h with
  | start s hstart hturn => exact serves_start hstart hturn
  | step x _ hx hturn ih => exact ih.step hx hturn
  | wall t _ ih => exact ⟨ih.mem, ih.pos, ih.interval_eq, ih.start_le, ih.watches⟩

/-- Before the end of time is near, every sweeper with an interval starts. -/
theorem exists_sweeps_start (hpos : 0 < interval.ns) (hlast : stepAt s.clock.now < lastStep) :
    ∃ w, Sweeps interval s.clock.now w (s.step (.startSweeper interval)).2 := by
  have hmax : 0 < maxInterval.ns := by decide
  let first : Sweeper := ⟨⟨min interval.ns maxInterval.ns⟩, s.clock.now⟩
  have hstart : start? interval s.clock.now = some first := start?_eq_some_iff.2 ⟨hpos, rfl⟩
  have hfirst : 0 < first.interval.ns := Nat.lt_min.2 ⟨hpos, hmax⟩
  obtain ⟨w, hturn⟩ := turn?_isSome hfirst (Nat.min_le_right _ _) hlast
  exact ⟨w, .start s hstart hturn⟩

/-- As long as a sweeper is not stopped, it goes on until the end of time is near. -/
theorem exists_sweeps_step (h : Sweeps interval start w s) {x : Step} (hx : x ≠ .stopSweepers)
    (hlast : stepAt (s.step x).2.clock.now < lastStep) :
    ∃ w', Sweeps interval start w' (s.step x).2 := by
  have hserves := serves_of_sweeps h
  have hmax : w.interval.ns ≤ maxInterval.ns := by
    rw [hserves.interval_eq]
    exact Nat.min_le_right _ _
  obtain ⟨w', hturn⟩ := turn?_isSome hserves.interval_pos hmax hlast
  exact ⟨w', h.step x hx hturn⟩

end Sweeper

/-- Every sweeper that is there after a step was there before or is started by the step. -/
theorem Service.exists_sweeps_of_step {s : Service} {x : Step}
    (h : ∀ w ∈ s.sweepers, ∃ interval start, Sweeps interval start w s) :
    ∀ w ∈ (s.step x).2.sweepers, ∃ interval start, Sweeps interval start w (s.step x).2 := by
  intro w' hw'
  obtain ⟨w, hw, hturn⟩ := mem_sweepers_step.1 hw'
  have hold (hx : x ≠ .stopSweepers) (hw : w ∈ s.sweepers) :
      ∃ interval start, Sweeps interval start w' (s.step x).2 := by
    obtain ⟨interval, start, hsweeps⟩ := h w hw
    exact ⟨interval, start, hsweeps.step x hx hturn⟩
  have hclock := s.clock_step x
  have hstirs := s.stirs_act x
  generalize (s.act x).2 = s₁ at hw hclock hstirs
  cases hstirs with
  | advance d => exact hold nofun hw
  | startSweeper interval _ hclock' _ hsweepers =>
    rw [hsweepers] at hw
    rcases List.mem_append.1 hw with hw | hw
    · exact hold nofun hw
    · rw [hclock, hclock'] at hturn
      exact ⟨interval, _, .start s (Option.mem_toList.1 hw) hturn⟩
  | stopSweepers _ _ _ hsweepers =>
    rw [hsweepers] at hw
    cases hw
  | works hx hworks => exact hold hx (hworks.sweepers ▸ hw)

theorem Service.exists_sweeps_of_run (xs : List Step) {s : Service}
    (h : ∀ w ∈ s.sweepers, ∃ interval start, Sweeps interval start w s) :
    ∀ w ∈ (s.run xs).2.sweepers, ∃ interval start, Sweeps interval start w (s.run xs).2 := by
  induction xs generalizing s with
  | nil => exact h
  | cons x xs ih => exact ih (exists_sweeps_of_step h)

/-- The entries that the sweeps of a step find. -/
def Service.unswept (s : Service) : Step → Entries
  | .sweep => s.store.entries
  | x => (s.act x).2.store.entries

theorem Service.mem_step_of_unswept {s : Service} {x : Step} {y : String × Entry}
    (hy : y ∈ s.unswept x) (hlive : y.2.isExpired (s.step x).2.clock.now = false) :
    y ∈ (s.step x).2.store.entries := by
  refine mem_step_of_live ?_ hlive
  cases x with
  | sweep => exact Entries.mem_purge.2 ⟨hy, s.clock_step .sweep ▸ hlive⟩
  | _ => exact hy

/-- Dead entries are not held for long, and live ones are not removed. Every sweeper of a service that
had none at first was started there and stands as `Sweeps` says. With an interval it does start, and
it goes on until somebody stops it or the end of time is near. From its first tick on, which comes at
its start or, between two steps of the timer, less than a step later, nothing is held for an interval
and a step after its end. What the sweeps of a step remove, on the other hand, has ended by then. -/
theorem sweeps_dead_keeps_live :
    (∀ (s : Service) (xs : List Step), s.sweepers = [] → ∀ w ∈ (s.run xs).2.sweepers,
      ∃ interval start, Sweeps interval start w (s.run xs).2) ∧
    (∀ (s : Service) (interval : Span), 0 < interval.ns →
      Sweeper.stepAt s.clock.now < Sweeper.lastStep →
      ∃ w, Sweeps interval s.clock.now w (s.step (.startSweeper interval)).2) ∧
    (∀ interval start w s, Sweeps interval start w s →
      w ∈ s.sweepers ∧
      (Sweeper.step ∣ start.ns ∨ start.ns + Sweeper.step ≤ s.clock.now.ns →
        Sweeper.stepFor start ≤ Sweeper.stepAt s.clock.now) ∧
      (Sweeper.stepFor start ≤ Sweeper.stepAt s.clock.now →
        ∀ k e d, (k, e) ∈ s.store.entries → e.deadline = some d →
          s.clock.now.ns < d.ns + interval.ns + Sweeper.step) ∧
      ∀ x : Step, x ≠ .stopSweepers →
        Sweeper.stepAt (s.step x).2.clock.now < Sweeper.lastStep →
        ∃ w', Sweeps interval start w' (s.step x).2) ∧
    (∀ (s : Service) (x : Step) k e, (k, e) ∈ s.unswept x → (k, e) ∉ (s.step x).2.store.entries →
      ∃ d, e.deadline = some d ∧ d ≤ (s.step x).2.clock.now) := by
  refine ⟨fun s xs hs => Service.exists_sweeps_of_run xs (by simp [hs]),
    fun s interval hpos hlast => Sweeper.exists_sweeps_start hpos hlast,
    fun interval start w s h => ?_, fun s x k e he hgone => ?_⟩
  · have hserves := Sweeper.serves_of_sweeps h
    refine ⟨hserves.mem, Sweeper.stepFor_le_of_le hserves.start_le,
      fun hticked k e d he hd => ?_, fun x hx hlast => Sweeper.exists_sweeps_step h hx hlast⟩
    have hlt := hserves.watches.lt hticked he hd
    have hle : w.interval.ns ≤ interval.ns := hserves.interval_eq ▸ Nat.min_le_left _ _
    omega
  · cases hexpired : e.isExpired (s.step x).2.clock.now with
    | false => exact absurd (Service.mem_step_of_unswept he hexpired) hgone
    | true => exact Entry.isExpired_iff.1 hexpired

/-- A sweeper with an interval of 10 ms, started at 0: an entry that ends at 3 ms is still held at 9,
between two ticks, and is removed by the tick at 10, which comes at 12. -/
theorem sweeps_dead_keeps_live_late :
    let empty : Service := { clock := ⟨⟨0⟩, default⟩, store := .ofCapacity 1 }
    let started := (empty.step (.startSweeper (.ofMillis 10))).2
    let written := (started.step (.store (.set "k" "v" (some (.ofMillis 3))))).2
    let s := (written.step (.advance (.ofMillis 9))).2
    let entry : Entry := ⟨"v", some ⟨3000000⟩⟩
    Sweeps (.ofMillis 10) ⟨0⟩ ⟨.ofMillis 10, ⟨10000000⟩⟩ s ∧ ("k", entry) ∈ s.store.entries ∧
      s.clock.now.ns < 3000000 + (Span.ofMillis 10).ns + Sweeper.step ∧
      (s.step (.advance (.ofMillis 3))).2.store.entries = [] ∧
      ∃ d, entry.deadline = some d ∧ d ≤ (s.step (.advance (.ofMillis 3))).2.clock.now := by
  intro empty started written s entry
  let w : Sweeper := ⟨.ofMillis 10, ⟨10000000⟩⟩
  have hstarted : Sweeps (.ofMillis 10) ⟨0⟩ w started :=
    .start empty (w := ⟨.ofMillis 10, ⟨0⟩⟩) (by decide) (by decide)
  have hwritten : Sweeps (.ofMillis 10) ⟨0⟩ w written := hstarted.step _ nofun (by decide)
  have hsweeps : Sweeps (.ofMillis 10) ⟨0⟩ w s := hwritten.step _ nofun (by decide)
  have hheld : s.store.entries = [("k", entry)] := by decide
  have hmem : ("k", entry) ∈ s.store.entries := hheld ▸ List.mem_singleton_self _
  have hfound : s.unswept (.advance (.ofMillis 3)) = [("k", entry)] := by decide
  have hgone : (s.step (.advance (.ofMillis 3))).2.store.entries = [] := by decide
  obtain ⟨-, -, hbounds, hremoved⟩ := sweeps_dead_keeps_live
  obtain ⟨-, hfirst, hbound, -⟩ := hbounds _ _ _ _ hsweeps
  refine ⟨hsweeps, hmem, ?_, hgone, ?_⟩
  · exact hbound (hfirst (.inl (Nat.dvd_zero _))) "k" entry ⟨3000000⟩ hmem rfl
  · refine hremoved s (.advance (.ofMillis 3)) "k" entry (hfound ▸ List.mem_singleton_self _) ?_
    exact hgone ▸ List.not_mem_nil

end Tenancy
