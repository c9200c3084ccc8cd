import Tenancy.Proofs.Service.Stop

/-!
# Stopped relays end

A turn moves one relay at most, and leaves the others in the hands of their callers
(`Service.task?_turn`). A relay that was stopped stands where it stood until it gets a turn, and has
ended from then on (`Stop.Halted`, `Service.halted_run`). A relay that the gateway opens after a
shutdown is stopped before it got anything into its mailbox (`Service.Late`).
-/

namespace Tenancy

/-! ## What a turn makes of relays -/

/-- A relay that the gateway has just opened. -/
structure RelayTask.Fresh (cancelled : Bool) (t : RelayTask) : Prop where
  cancelled : t.relay.cancelled = cancelled
  phase : t.relay.phase = .asking
  items : t.relay.mailbox.items = []

namespace Service

variable {l : Holdings} {s s' : Service} {handle : Nat} {t t' : RelayTask}

/-- What may happen to the relays of a service while none of them moves. -/
def Grows (s s' : Service) : Prop :=
  ∃ f new, s'.relays = s.relays.map f ++ new ∧ (∀ t : RelayTask, t.Handled (f t)) ∧
    (∀ u ∈ new, u.ofGateway = true → u.Fresh s.isShutDown) ∧
    (s.isShutDown = true → s'.isShutDown = true)

/-- Looking for a handle among relays that kept theirs, and new ones behind them. -/
theorem task?_of_relays {f : RelayTask → RelayTask} {new : List RelayTask}
    (hrelays : s'.relays = s.relays.map f ++ new) (hf : ∀ t : RelayTask, (f t).handle = t.handle)
    (handle : Nat) :
    s'.task? handle = ((s.task? handle).map f).or (List.find? (·.handle = handle) new) := by
  have hsame : (fun t : RelayTask => decide (t.handle = handle)) ∘ f =
      fun t => decide (t.handle = handle) := by
    funext t
    rw [Function.comp, hf t]
  rw [task?, hrelays, List.find?_append, List.find?_map, hsame]
  rfl

namespace Grows

theorem map {f : RelayTask → RelayTask} (hf : ∀ t : RelayTask, t.Handled (f t))
    (hrelays : s'.relays = s.relays.map f) (hshut : s.isShutDown = true → s'.isShutDown = true) :
    s.Grows s' :=
  ⟨f, [], hrelays.trans (List.append_nil _).symm, hf, fun _ hu => (List.not_mem_nil hu).elim, hshut⟩

theorem of_eq (hrelays : s'.relays = s.relays) (hshut : s'.isShutDown = s.isShutDown) :
    s.Grows s' :=
  map RelayTask.Handled.refl (f := id) (hrelays.trans (List.map_id _).symm) hshut.trans

theorem add {u : RelayTask} (hrelays : s'.relays = s.relays ++ [u])
    (hshut : s'.isShutDown = s.isShutDown) (hu : u.ofGateway = true → u.Fresh s.isShutDown) :
    s.Grows s' := by
  refine ⟨id, [u], ?_, RelayTask.Handled.refl, fun v hv => ?_, hshut.trans⟩
  · rw [hrelays, List.map_id]
  · rw [List.mem_singleton.1 hv]
    exact hu

theorem task?_eq (h : s.Grows s') (handle : Nat) : ∃ f new,
    s'.task? handle = ((s.task? handle).map f).or (List.find? (·.handle = handle) new) ∧
      (∀ t : RelayTask, t.Handled (f t)) ∧ ∀ u ∈ new, u.ofGateway = true → u.Fresh s.isShutDown := by
  obtain ⟨f, new, hrelays, hf, hnew, -⟩ := h
  exact ⟨f, new, task?_of_relays hrelays (fun t => (hf t).handle) handle, hf, hnew⟩

/-- A relay that is there stays there. -/
theorem task?_of_some (h : s.Grows s') (ht : s.task? handle = some t) :
    ∃ t', s'.task? handle = some t' ∧ t.Handled t' := by
  obtain ⟨f, new, heq, hf, -⟩ := h.task?_eq handle
  rw [ht] at heq
  exact ⟨f t, heq, hf t⟩

theorem fresh_of_none (h : s.Grows s') (ht : s.task? handle = none)
    (ht' : s'.task? handle = some t') (hg : t'.ofGateway = true) : t'.Fresh s.isShutDown := by
  obtain ⟨f, new, heq, -, hnew⟩ := h.task?_eq handle
  rw [ht, ht'] at heq
  exact hnew t' (List.mem_of_find?_eq_some heq.symm) hg

theorem isShutDown (h : s.Grows s') (hs : s.isShutDown = true) : s'.isShutDown = true := by
  obtain ⟨f, new, -, -, -, hshut⟩ := h
  exact hshut hs

end Grows

/-! ## Steps -/

theorem grows_after (s : Service) (store : Store) (effects : Effects) (feed : Option Feed)
    (given : Supply) : s.Grows (s.after store effects feed given) := by
  cases feed with
  | none => exact .of_eq rfl rfl
  | some f => exact .add (u := RelayTask.opened s given f) rfl rfl fun _ => ⟨rfl, rfl, rfl⟩

theorem frame_ask (s : Service) (id left : Nat) :
    (s.ask id left).2.2.relays = s.relays ∧
      (s.ask id left).2.2.isShutDown = s.isShutDown := by
  unfold ask
  split <;> exact ⟨rfl, rfl⟩

theorem grows_drainIn (s : Service) (id fuel left : Nat) (limit : Option Nat) :
    s.Grows (drainIn id fuel left limit s).2.2 := by
  obtain ⟨hrelays, hshut⟩ := drainIn_keeps
    (p := fun r => r.relays = s.relays ∧ r.isShutDown = s.isShutDown) id (fun {r} left h =>
      ⟨(r.frame_ask id left).1.trans h.1, (r.frame_ask id left).2.trans h.2⟩)
    fuel left limit ⟨rfl, rfl⟩
  exact .of_eq hrelays hshut

/-- Every rightful step leaves the relays in the hands of their callers. -/
theorem grows_act (hs : Roster l s.relays s.store) {x : Step} (hx : x.isRightful l s = true) :
    s.Grows (s.act x).2 := by
  cases x with
  | shutDown =>
    exact .map (.ite .cancel) rfl fun _ => rfl
  | drain id limit => exact s.grows_drainIn id (s.store.waiting id + 1) stint limit
  | call t r given => exact s.grows_after _ _ _ given
  | rpc caller c given => exact s.grows_after _ _ _ given
  | relayFeed f how => exact .add rfl rfl fun hg => by cases hg
  | relayChannels t channels how =>
    rw [act]
    split <;> exact .add rfl rfl fun hg => by cases hg
  | read handle limit => cases hx
  | cancel handle => exact .map (.ite .cancel) rfl id
  | leave handle => exact .map (.ite .leave) rfl id
  | hangUp handle => exact .map (.ite .hangUp) rfl id
  | outcome handle =>
    rw [outcome_eq hs.handles_nodup]
    exact .map (.ite .reported) rfl id
  | _ => exact .of_eq rfl rfl

/-! ## Turns -/

/-- What a move makes of a relay. -/
def moved (s : Service) (t : RelayTask) : RelayTask :=
  { t with relay := ((t.relay.move? s.store s.clock.wall).map (·.1)).getD t.relay }

theorem task?_move (ht : s.task? handle = some t) :
    (s.turn (.move handle)).2.task? handle = some (s.moved t) := by
  obtain ⟨l₁, l₂, hsplit, hhandle, hbefore⟩ := split_of_task? ht
  obtain ⟨r, store, e, -, hafter, hmoved⟩ := turn_move hsplit hhandle hbefore
  have hr : { t with relay := r } = s.moved t := by
    unfold moved
    rcases hmoved with heq | ⟨heq, rfl, -⟩
    · rw [heq]
      rfl
    · rw [heq]
      rfl
  rw [hafter, ← hr]
  exact task?_of_split (t := { t with relay := r }) rfl hhandle hbefore

/-- A move is none of the business of other relays. -/
theorem task?_move_of_ne {other : Nat} (hne : other ≠ handle) :
    (s.turn (.move other)).2.task? handle = s.task? handle ∧
      (s.turn (.move other)).2.isShutDown = s.isShutDown := by
  cases ht : s.task? other with
  | none =>
    have hnone : s.moveOf? other = none := moveOf?_of_none ht
    rw [turn, hnone]
    exact ⟨rfl, rfl⟩
  | some t =>
    obtain ⟨l₁, l₂, hsplit, hhandle, hbefore⟩ := split_of_task? ht
    obtain ⟨r, store, e, -, hafter, -⟩ := turn_move hsplit hhandle hbefore
    have hother : decide (t.handle = handle) = false := decide_eq_false fun h => hne (hhandle ▸ h)
    rw [hafter]
    refine ⟨?_, rfl⟩
    show List.find? (·.handle = handle) (l₁ ++ { t with relay := r } :: l₂) = _
    rw [task?, hsplit, List.find?_append, List.find?_append, List.find?_cons, List.find?_cons]
    simp only [hother]

theorem grows_turn (hs : Roster l s.relays s.store) {y : Turn} (hy : y.isRightful l s = true)
    (hne : ∀ other, y ≠ .move other) : s.Grows (s.turn y).2 := by
  cases y with
  | act x => exact grows_act hs hy
  | take handle =>
    rw [turn, pick_eq hs.handles_nodup]
    exact .map (.ite .taken) rfl id
  | move handle => exact absurd rfl (hne handle)
  | wall now => exact .of_eq rfl rfl

/-- A turn that does not move a relay leaves it in the hands of its caller. -/
theorem task?_turn (hs : Roster l s.relays s.store) {y : Turn} (hy : y.isRightful l s = true)
    (hne : y ≠ .move handle) (ht : s.task? handle = some t) :
    ∃ t', (s.turn y).2.task? handle = some t' ∧ t.Handled t' := by
  by_cases hmove : ∃ other, y = .move other
  · obtain ⟨other, rfl⟩ := hmove
    have hother : other ≠ handle := fun h => hne (congrArg Turn.move h)
    exact ⟨t, (task?_move_of_ne hother).1.trans ht, .refl t⟩
  · exact (grows_turn hs hy (not_exists.1 hmove)).task?_of_some ht

/-- A relay of the gateway that is there after a turn, and was not before, has just started. -/
theorem fresh_turn (hs : Roster l s.relays s.store) {y : Turn} (hy : y.isRightful l s = true)
    (ht : s.task? handle = none) (ht' : (s.turn y).2.task? handle = some t')
    (hg : t'.ofGateway = true) : t'.Fresh s.isShutDown := by
  by_cases hmove : ∃ other, y = .move other
  · obtain ⟨other, rfl⟩ := hmove
    have hnone : (s.turn (.move other)).2.task? handle = none := by
      by_cases hother : other = handle
      · subst hother
        rw [turn, moveOf?_of_none ht]
        exact ht
      · exact (task?_move_of_ne hother).1.trans ht
    cases hnone.symm.trans ht'
  · exact (grows_turn hs hy (not_exists.1 hmove)).fresh_of_none ht ht' hg

theorem isShutDown_turn (hs : Roster l s.relays s.store) {y : Turn}
    (hy : y.isRightful l s = true) (hshut : s.isShutDown = true) :
    (s.turn y).2.isShutDown = true := by
  by_cases hmove : ∃ other, y = .move other
  · obtain ⟨other, rfl⟩ := hmove
    exact (task?_move_of_ne (Nat.succ_ne_self other).symm).2.trans hshut
  · exact (grows_turn hs hy (not_exists.1 hmove)).isShutDown hshut

end Service

/-! ## Halted relays -/

namespace Stop

/-- How a relay may end that stood at `p` when it was stopped. One that its caller left may be
cancelled too before it gets a turn. -/
def outcomes (x : Stop) (p : RelayPhase) : List RelayOutcome :=
  match x with
  | leave _ => [p.endsAs .cancelled, p.endsAs .disconnected]
  | _ => [p.endsAs .cancelled]

/-- The relay is marked as stopped. -/
def marks (x : Stop) (r : Relay) : Bool :=
  match x with
  | leave _ => !r.mailbox.isOpen
  | _ => r.cancelled

/-- The state `u`, from its stop on, of a relay that was stopped at `t`. -/
structure Halted (x : Stop) (t u : RelayTask) : Prop where
  source : u.relay.source = t.relay.source
  channels : u.relay.channels = t.relay.channels
  items : u.relay.mailbox.items.Sublist t.relay.mailbox.items
  stands : (x.marks u.relay = true ∧ u.relay.isEnded = false ∧ u.relay.phase = t.relay.phase) ∨
    ∃ o ∈ x.outcomes t.relay.phase, u.relay.phase = .ended o

/-- A relay that is marked ends in one of its ways. -/
theorem interruption?_of_marks {x : Stop} {r : Relay} (h : x.marks r = true) (p : RelayPhase) :
    ∃ o, r.interruption? = some o ∧ p.endsAs o ∈ x.outcomes p := by
  have hcancelled : r.cancelled = true → r.interruption? = some .cancelled := by
    intro hc
    unfold Relay.interruption?
    rw [hc]
    rfl
  cases x with
  | cancel handle => exact ⟨.cancelled, hcancelled h, List.mem_singleton_self _⟩
  | hangUp handle => exact ⟨.cancelled, hcancelled h, List.mem_singleton_self _⟩
  | shutDown => exact ⟨.cancelled, hcancelled h, List.mem_singleton_self _⟩
  | leave handle =>
    cases hc : r.cancelled with
    | true => exact ⟨.cancelled, hcancelled hc, List.mem_cons_self⟩
    | false =>
      refine ⟨.disconnected, ?_, List.mem_cons_of_mem _ (List.mem_singleton_self _)⟩
      have hleft : (!r.mailbox.isOpen) = true := h
      unfold Relay.interruption?
      rw [hc, hleft]
      rfl

theorem endsAs_mem_outcomes (x : Stop) {p : RelayPhase} {o : RelayOutcome} (hp : p = .ended o) :
    o ∈ x.outcomes p := by
  subst hp
  cases x <;> exact List.mem_cons_self

namespace Halted

variable {x : Stop} {t u u' : RelayTask}

/-- Callers cannot take back that a relay was stopped. -/
theorem handled (h : x.Halted t u) (hu : u.Handled u') : x.Halted t u' where
  source := hu.source.trans h.source
  channels := hu.channels.trans h.channels
  items := hu.items.trans h.items
  stands := by
    have hmarks : x.marks u.relay = true → x.marks u'.relay = true := by
      unfold marks
      cases x with
      | leave handle => simpa using hu.left
      | cancel handle => exact hu.cancelled
      | hangUp handle => exact hu.cancelled
      | shutDown => exact hu.cancelled
    rw [hu.phase, hu.isEnded_eq]
    exact h.stands.imp_left (And.imp_left hmarks)

/-- After its next move the relay has ended, and nothing else of it has changed. -/
theorem moved_eq (h : x.Halted t u) (s : Service) : ∃ o ∈ x.outcomes t.relay.phase,
    s.moved u = { u with relay := { u.relay with phase := .ended o } } := by
  unfold Service.moved
  rcases h.stands with ⟨hmarks, hended, hphase⟩ | ⟨o, ho, hphase⟩
  · obtain ⟨o, hint, ho⟩ := interruption?_of_marks hmarks u.relay.phase
    obtain ⟨e, hmove⟩ := Relay.move?_of_interrupted hended hint s.store s.clock.wall
    rw [hmove]
    exact ⟨_, hphase ▸ ho, rfl⟩
  · rw [Relay.move?_of_ended (Relay.isEnded_iff.2 ⟨o, hphase⟩)]
    refine ⟨o, ho, ?_⟩
    rw [← hphase]
    rfl

/-- The relay ends in its next move. -/
theorem moved (h : x.Halted t u) (s : Service) :
    x.Halted t (s.moved u) ∧ (s.moved u).relay.isEnded = true := by
  obtain ⟨o, ho, hmoved⟩ := h.moved_eq s
  rw [hmoved]
  exact ⟨⟨h.source, h.channels, h.items, .inr ⟨o, ho, rfl⟩⟩, rfl⟩

/-- The move puts nothing into its mailbox. -/
theorem mailbox_moved (h : x.Halted t u) (s : Service) :
    (s.moved u).relay.mailbox = u.relay.mailbox := by
  obtain ⟨o, -, hmoved⟩ := h.moved_eq s
  rw [hmoved]

theorem ended (h : x.Halted t u) (hended : u.relay.isEnded = true) :
    ∃ o ∈ x.outcomes t.relay.phase, u.relay.phase = .ended o := by
  rcases h.stands with ⟨-, hnot, -⟩ | hout
  · cases hnot.symm.trans hended
  · exact hout

end Halted

end Stop

namespace Service

variable {l : Holdings} {s : Service} {x : Stop} {handle : Nat} {t u : RelayTask}

/-- The stop itself. -/
theorem task?_act_stop (ht : s.task? handle = some t) (hx : x.stops t = true) :
    ∃ u, (s.act x.step).2.task? handle = some u ∧ x.Halted t u ∧
      u.relay.isEnded = t.relay.isEnded := by
  let f : RelayTask → RelayTask := fun t =>
    if x.stops t then { t with relay := x.apply t.relay } else t
  have hf : ∀ t : RelayTask, t.Handled (f t) := RelayTask.Handled.ite x.handled_apply
  have hsame : (fun t : RelayTask => decide (t.handle = handle)) ∘ f =
      fun t => decide (t.handle = handle) := by
    funext t
    rw [Function.comp, (hf t).handle]
  have hhandled := x.handled_apply t
  refine ⟨{ t with relay := x.apply t.relay }, ?_, ?_, hhandled.isEnded_eq⟩
  · rw [task?, relays_act_stop, List.find?_map, hsame]
    show (s.task? handle).map f = _
    rw [ht]
    exact congrArg some (if_pos hx)
  · refine ⟨hhandled.source, hhandled.channels, hhandled.items, ?_⟩
    cases he : t.relay.isEnded with
    | true =>
      obtain ⟨o, ho⟩ := Relay.isEnded_iff.1 he
      exact .inr ⟨o, x.endsAs_mem_outcomes ho, hhandled.phase.trans ho⟩
    | false =>
      refine .inl ⟨?_, hhandled.isEnded_eq.trans he, hhandled.phase⟩
      cases x <;> rfl

theorem halted_turn (hs : Roster l s.relays s.store) {y : Turn} (hy : y.isRightful l s = true)
    (hu : s.task? handle = some u) (h : x.Halted t u) :
    ∃ u', (s.turn y).2.task? handle = some u' ∧ x.Halted t u' ∧
      (y = .move handle ∨ u.relay.isEnded = true → u'.relay.isEnded = true) := by
  by_cases hmove : y = .move handle
  · subst hmove
    obtain ⟨hhalted, hended⟩ := h.moved s
    exact ⟨s.moved u, task?_move hu, hhalted, fun _ => hended⟩
  · obtain ⟨u', hu', hhandled⟩ := task?_turn hs hy hmove hu
    refine ⟨u', hu', h.handled hhandled, fun hor => ?_⟩
    have hended : u.relay.isEnded = true := hor.resolve_left hmove
    exact hhandled.isEnded_eq.trans hended

/-- A relay that was stopped has ended once it got a turn. -/
theorem halted_run {ys : List Turn} : ∀ {l : Holdings} {s : Service} {u : RelayTask},
    s.Steady l → isRightfulOver l s ys = true → s.task? handle = some u → x.Halted t u →
    ∃ u', (runOf turn s ys).2.task? handle = some u' ∧ x.Halted t u' ∧
      (.move handle ∈ ys ∨ u.relay.isEnded = true → u'.relay.isEnded = true) := by
  induction ys with
  | nil =>
    intro l s u hs hys hu h
    exact ⟨u, hu, h, fun hor => hor.resolve_left List.not_mem_nil⟩
  | cons y ys ih =>
    intro l s u hs hys hu h
    obtain ⟨hy, hys⟩ := Bool.and_eq_true_iff.1 hys
    obtain ⟨u', hu', h', hstep⟩ := halted_turn hs.roster hy hu h
    obtain ⟨v, hv, hhalted, hended⟩ := ih (hs.turn hy) hys hu' h'
    refine ⟨v, hv, hhalted, fun hor => hended ?_⟩
    rcases hor with hmem | hdone
    · rcases List.mem_cons.1 hmem with heq | hmem
      · exact .inr (hstep (.inl heq.symm))
      · exact .inl hmem
    · exact .inr (hstep (.inr hdone))

/-! ## Relays that come too late -/

/-- The gateway was shut down, and if it has opened the relay, then after that. -/
structure Late (handle : Nat) (s : Service) : Prop where
  shut : s.isShutDown = true
  fresh : ∀ u, s.task? handle = some u → u.ofGateway = true →
    ∃ t : RelayTask, t.Fresh true ∧ Stop.shutDown.Halted t u

theorem late_act_shutDown (ht : s.task? handle = none) : Late handle (s.act .shutDown).2 := by
  have hnone : (s.act .shutDown).2.task? handle = none := by
    refine task?_eq_none_iff.2 fun u hu => ?_
    obtain ⟨t, hmem, rfl⟩ := List.mem_map.1 hu
    have hfree := task?_eq_none_iff.1 ht t hmem
    split <;> exact hfree
  refine ⟨rfl, fun u hu => ?_⟩
  cases hnone.symm.trans hu

theorem late_turn (hs : Roster l s.relays s.store) {y : Turn} (hy : y.isRightful l s = true)
    (h : Late handle s) : Late handle (s.turn y).2 := by
  refine ⟨isShutDown_turn hs hy h.shut, fun u' hu' hg => ?_⟩
  cases hu : s.task? handle with
  | none =>
    have hfresh := fresh_turn hs hy hu hu' hg
    rw [h.shut] at hfresh
    refine ⟨u', hfresh, rfl, rfl, .refl _, .inl ⟨hfresh.cancelled, ?_, rfl⟩⟩
    unfold Relay.isEnded
    rw [hfresh.phase]
  | some u =>
    have hsame : u.ofGateway = true := by
      by_cases hmove : y = .move handle
      · subst hmove
        cases (task?_move hu).symm.trans hu'
        exact hg
      · obtain ⟨v, hv, hhandled⟩ := task?_turn hs hy hmove hu
        cases hv.symm.trans hu'
        exact hhandled.ofGateway.symm.trans hg
    obtain ⟨t, hfresh, hhalted⟩ := h.fresh u hu hsame
    obtain ⟨v, hv, hhalted', -⟩ := halted_turn hs hy hu hhalted
    cases hv.symm.trans hu'
    exact ⟨t, hfresh, hhalted'⟩

theorem late_run {ys : List Turn} : ∀ {l : Holdings} {s : Service}, s.Steady l →
    isRightfulOver l s ys = true → Late handle s → Late handle (runOf turn s ys).2 := by
  induction ys with
  | nil => exact fun _ _ h => h
  | cons y ys ih =>
    intro l s hs hys h
    obtain ⟨hy, hys⟩ := Bool.and_eq_true_iff.1 hys
    exact ih (hs.turn hy) hys (late_turn hs.roster hy h)

end Service

end Tenancy
