import Tenancy.Proofs.Service.Isolation

/-!
# What the log and the audit do not decide

Two services that differ only in the log, the samples and the way of audit records (`Alike`) answer
every step alike and stay alike: `Alike.act` for what a step does at once, `Alike.step` for the step
with the rest after it, and `Alike.run` for runs.
-/

namespace Tenancy.Service

variable {s s' : Service}

/-! ## Parts of steps -/

/-- An alike service is the same one with another log, other samples and another audit. -/
theorem Alike.exists_eq (h : s.Alike s') : ∃ sink pending trail refused log samples,
    s' = { s with sink, pending, trail, refused, log, samples } := by
  obtain ⟨gateway, sink, clock, store, relays, sweepers, isShutDown, pending, trail, refused, log,
    samples⟩ := s'
  obtain ⟨hgateway, hclock, hstore, hrelays, hsweepers, hshut⟩ := h
  dsimp only at hgateway hclock hstore hrelays hsweepers hshut
  subst hgateway hclock hstore hrelays hsweepers hshut
  exact ⟨sink, pending, trail, refused, log, samples, rfl⟩

theorem Alike.symm (h : s.Alike s') : s'.Alike s :=
  ⟨h.gateway.symm, h.clock.symm, h.store.symm, h.relays.symm, h.sweepers.symm, h.isShutDown.symm⟩

namespace Alike

theorem moveAt? (h : s.Alike s') (i : Nat) :
    Option.Rel Alike (s.moveAt? i) (s'.moveAt? i) := by
  obtain ⟨sink, pending, trail, refused, log, samples, rfl⟩ := h.exists_eq
  unfold Service.moveAt?
  cases s.relays[i]? with
  | none => exact .none
  | some t =>
    cases hm : t.relay.move? s.store s.clock.wall with
    | none =>
      simp only [Option.bind_eq_bind, Option.bind_some, Option.bind_none, hm]
      exact .none
    | some x =>
      simp only [Option.bind_eq_bind, Option.bind_some, hm]
      exact .some ⟨rfl, rfl, rfl, rfl, rfl, rfl⟩

theorem move? (h : s.Alike s') : Option.Rel Alike s.move? s'.move? := by
  have hfirst : ∀ is : List Nat,
      Option.Rel Alike (is.findSome? s.moveAt?) (is.findSome? s'.moveAt?) := by
    intro is
    induction is with
    | nil => exact .none
    | cons i is ih =>
      have hm := h.moveAt? i
      rw [List.findSome?_cons, List.findSome?_cons]
      generalize s.moveAt? i = m, s'.moveAt? i = m' at hm
      cases hm with
      | none => exact ih
      | some h₁ => exact .some h₁
  unfold Service.move?
  rw [h.relays]
  exact hfirst _

theorem settleIn {n : Nat} : ∀ {s s' : Service}, s.Alike s' →
    (settleIn n s).Alike (settleIn n s') := by
  induction n with
  | zero => exact fun h => h
  | succ n ih =>
    intro s s' h
    have hm := h.move?
    rw [Service.settleIn, Service.settleIn]
    generalize s.move? = m, s'.move? = m' at hm
    cases hm with
    | none => exact h
    | some h₁ => exact ih h₁

theorem settle (h : s.Alike s') : s.settle.Alike s'.settle := by
  have hreach : s'.reach = s.reach := by
    unfold Service.reach
    rw [h.relays, h.store]
  unfold Service.settle
  rw [hreach]
  exact ((alike_deliver _).symm.trans h.settleIn).trans (alike_deliver _)

theorem task? (h : s.Alike s') (handle : Nat) : s'.task? handle = s.task? handle := by
  unfold Service.task?
  rw [h.relays]

theorem relay? (h : s.Alike s') (handle : Nat) : s'.relay? handle = s.relay? handle := by
  unfold Service.relay?
  rw [h.task?]

theorem picked? (h : s.Alike s') (handle : Nat) :
    Option.Rel (fun x x' => x.1 = x'.1 ∧ x.2.Alike x'.2) (s.picked? handle)
      (s'.picked? handle) := by
  unfold Service.picked?
  rw [h.relay?]
  obtain ⟨sink, pending, trail, refused, log, samples, rfl⟩ := h.exists_eq
  cases (s.relay? handle).bind (·.mailbox.take?) with
  | none => exact .none
  | some x => exact .some ⟨rfl, rfl, rfl, rfl, rfl, rfl, rfl⟩

theorem readIn (handle fuel : Nat) : ∀ {s s' : Service} (limit : Option Nat), s.Alike s' →
    (readIn handle fuel limit s).1 = (readIn handle fuel limit s').1 ∧
      (readIn handle fuel limit s).2.1 = (readIn handle fuel limit s').2.1 ∧
      (readIn handle fuel limit s).2.2.Alike (readIn handle fuel limit s').2.2 := by
  induction fuel with
  | zero => exact fun _ h => ⟨rfl, rfl, h⟩
  | succ fuel ih =>
    intro s s' limit h
    rw [Service.readIn, Service.readIn]
    split
    · exact ⟨rfl, rfl, h⟩
    · have hpick := h.picked? handle
      rw [take?_eq, take?_eq, h.relay?]
      generalize s.picked? handle = p, s'.picked? handle = p' at hpick
      cases hpick with
      | none => exact ⟨rfl, rfl, h⟩
      | @some x x' hx =>
        obtain ⟨hitems, hended, hafter⟩ := ih (limit.map (· - 1)) hx.2.settle
        simp only [Option.map_some, hx.1, hitems, hended]
        exact ⟨trivial, trivial, hafter⟩

/-! ## Subscriptions of the store -/

theorem ask (h : s.Alike s') (id left : Nat) :
    (s'.ask id left).1 = (s.ask id left).1 ∧ (s'.ask id left).2.1 = (s.ask id left).2.1 ∧
      (s.ask id left).2.2.Alike (s'.ask id left).2.2 := by
  obtain ⟨sink, pending, trail, refused, log, samples, rfl⟩ := h.exists_eq
  unfold Service.ask
  split
  · exact ⟨rfl, rfl, rfl, rfl, rfl, rfl, rfl, rfl⟩
  · exact ⟨rfl, rfl, rfl, rfl, rfl, rfl, rfl, rfl⟩

/-! ## Steps -/

theorem after (h : s.Alike s') (store : Store) (e : Effects) (feed : Option Feed)
    (given : Supply) : (s.after store e feed given).Alike (s'.after store e feed given) := by
  obtain ⟨sink, pending, trail, refused, log, samples, rfl⟩ := h.exists_eq
  cases feed with
  | none => exact ⟨rfl, rfl, rfl, rfl, rfl, rfl⟩
  | some f => exact ⟨rfl, rfl, rfl, rfl, rfl, rfl⟩

theorem mapTask (h : s.Alike s') (handle : Nat) (f : RelayTask → RelayTask) :
    (s.mapTask handle f).Alike (s'.mapTask handle f) := by
  obtain ⟨sink, pending, trail, refused, log, samples, rfl⟩ := h.exists_eq
  exact ⟨rfl, rfl, rfl, rfl, rfl, rfl⟩

theorem runSweepers (h : s.Alike s') : s.runSweepers.Alike s'.runSweepers := by
  obtain ⟨sink, pending, trail, refused, log, samples, rfl⟩ := h.exists_eq
  exact ⟨rfl, rfl, rfl, rfl, rfl, rfl⟩

/-- Every step is answered alike and leaves the services alike. -/
theorem act (h : s.Alike s') (x : Step) :
    (s.act x).1 = (s'.act x).1 ∧ (s.act x).2.Alike (s'.act x).2 := by
  cases x with
  | drain id limit =>
    obtain ⟨hitems, hended, hafter⟩ := drainIn_rel (R := Alike) id (fun left h => h.ask id left)
      (s.store.waiting id + 1) stint limit h
    rw [Service.act, Service.act, h.store]
    exact ⟨congrArg₂ Answer.drained hitems.symm hended.symm, hafter⟩
  | read handle limit =>
    have hreader : s'.hasReader handle = s.hasReader handle := by
      unfold hasReader
      rw [h.relay?]
    have hreadable : s'.readable handle = s.readable handle := by
      unfold readable
      rw [h.relay?, h.store]
    obtain ⟨hitems, hended, hafter⟩ :=
      Alike.readIn handle (s.readable handle + 1) limit h
    rw [Service.act, Service.act, hreader, hreadable]
    split
    · exact ⟨congrArg₂ Answer.read hitems hended, hafter⟩
    · exact ⟨rfl, h⟩
  | call t r given =>
    rw [Service.act, Service.act, h.gateway, h.clock, h.store]
    exact ⟨rfl, h.after _ _ _ given⟩
  | rpc caller c given =>
    rw [Service.act, Service.act, h.gateway, h.clock, h.store]
    exact ⟨rfl, h.after _ _ _ given⟩
  | relayChannels t channels how =>
    rw [Service.act, Service.act, h.store]
    obtain ⟨sink, pending, trail, refused, log, samples, rfl⟩ := h.exists_eq
    rcases Feed.subscribe t channels s.store with ⟨e | f, store⟩
    · exact ⟨rfl, rfl, rfl, rfl, rfl, rfl, rfl⟩
    · exact ⟨rfl, rfl, rfl, rfl, rfl, rfl, rfl⟩
  | outcome handle =>
    rw [act_outcome, act_outcome, h.task?]
    refine ⟨rfl, ?_⟩
    split
    · exact h.mapTask handle _
    · exact h
  | leave handle =>
    have hreader : s'.hasReader handle = s.hasReader handle := by
      unfold hasReader
      rw [h.relay?]
    rw [Service.act, Service.act, hreader]
    exact ⟨rfl, h.mapTask handle _⟩
  | _ =>
    obtain ⟨sink, pending, trail, refused, log, samples, rfl⟩ := h.exists_eq
    exact ⟨rfl, rfl, rfl, rfl, rfl, rfl, rfl⟩

theorem step (h : s.Alike s') (x : Step) :
    (s.step x).1 = (s'.step x).1 ∧ (s.step x).2.Alike (s'.step x).2 :=
  ⟨(h.act x).1, (h.act x).2.settle.runSweepers⟩

theorem run (xs : List Step) : ∀ {s s' : Service}, s.Alike s' →
    (s.run xs).1 = (s'.run xs).1 ∧ (s.run xs).2.Alike (s'.run xs).2 := by
  induction xs with
  | nil => exact fun h => ⟨rfl, h⟩
  | cons x xs ih =>
    intro s s' h
    obtain ⟨hanswer, hafter⟩ := h.step x
    obtain ⟨hanswers, hend⟩ := ih hafter
    exact ⟨congrArg₂ List.cons hanswer hanswers, hend⟩

end Alike

end Tenancy.Service
