import Tenancy.Proofs.Service.Change
import Tenancy.Proofs.Service.Lockstep

/-!
# Relays stop alone

What follows when a relay is cancelled, left or hung up on, or when the gateway is shut down
(`Stop.Aftermath`): the relays that are stopped end, tell their callers nothing more and give back
their own channels, and nobody else can tell, but for publishes that reach fewer subscribers
(`Service.relays_stop_alone`).
-/

namespace Tenancy

namespace Service

variable {l : Holdings} {s : Service} {x : Stop} {handle : Nat} {t u : RelayTask}

/-! ## What is given back -/

/-- A relay that has ended does nothing. -/
theorem move_of_ended (hu : s.task? handle = some u) (he : u.relay.isEnded = true) :
    (s.turn (.move handle)).2 = s := by
  obtain ⟨l₁, l₂, hsplit, hhandle, hbefore⟩ := split_of_task? hu
  have hnone : s.moveOf? handle = none := by
    rw [moveOf?_of_split hsplit hhandle hbefore, Relay.move?_of_ended he]
    rfl
  rw [turn, hnone]
  rfl

/-- A relay that ends gives its subscription back, on each of its channels. -/
theorem released (h : s.Steady l) (hu : s.task? handle = some u) (hrun : u.relay.isEnded = false)
    (hend : (s.moved u).relay.isEnded = true) {id : Nat} (hid : u.relay.source = some id) :
    (∀ j, (s.turn (.move handle)).2.store.hub.find? j =
      if j = id then none else s.store.hub.find? j) ∧
    (s.store.closed = false → ∀ c, s.store.hub.count c =
      (s.turn (.move handle)).2.store.hub.count c + if c ∈ u.relay.channels then 1 else 0) := by
  obtain ⟨l₁, l₂, hsplit, hhandle, hbefore⟩ := split_of_task? hu
  obtain ⟨r, store, e, -, hafter, hmove⟩ := turn_move hsplit hhandle hbefore
  have hsteady : (s.turn (.move handle)).2.Steady l := h.turn (x := .move handle) rfl
  rw [hafter] at hsteady ⊢
  rcases hmove with hmove | ⟨hnone, rfl, -⟩
  · have hmoves := Relay.moves_of_move? hmove
    have hended : r.isEnded = true := by
      unfold moved at hend
      rw [hmove] at hend
      exact hend
    refine ⟨hmoves.find?_of_ended h.inMemory hended hid, fun ho c => ?_⟩
    obtain ⟨base, hbooks, -⟩ := h.accounted
    obtain ⟨base', hbooks', -⟩ := hsteady.accounted
    have ho' : store.closed = false := (hmoves.closed_eq h.inMemory).trans ho
    have hheld : u.relay.holding? = some (id, distinct u.relay.channels) := by
      unfold Relay.holding?
      rw [hrun, hid]
      rfl
    have hleft : r.holding? = none := if_pos hended
    have hmem : c ∈ distinct u.relay.channels ↔ c ∈ u.relay.channels := mem_distinct
    have hcount : s.store.hub.count c = _ := hbooks.count_eq ho c
    have hcount' : store.hub.count c = _ := hbooks'.count_eq ho' c
    rw [holdings_split hsplit, hheld] at hcount
    rw [holdings_split (t := { u with relay := r }) rfl, hleft] at hcount'
    show s.store.hub.count c = store.hub.count c + _
    rw [hcount, hcount']
    simp only [List.countP_append, Option.toList, List.countP_cons, List.countP_nil,
      decide_eq_true_eq, hmem]
    omega
  · unfold moved at hend
    rw [hnone] at hend
    cases hrun.symm.trans hend

/-! ## What callers still take -/

/-- A turn of a relay that was stopped puts nothing into its mailbox, whether it moves or not. -/
theorem items_turn_of_halted (hs : Roster l s.relays s.store) {y : Turn} (hy : y.isRightful l s = true)
    (hu : s.task? handle = some u) (h : x.Halted t u) {u' : RelayTask}
    (hu' : (s.turn y).2.task? handle = some u') :
    (s.taken? handle y).toList ++ u'.relay.mailbox.items <+: u.relay.mailbox.items := by
  by_cases hmove : y = .move handle
  · subst hmove
    cases (task?_move hu).symm.trans hu'
    rw [h.mailbox_moved s]
    exact List.prefix_rfl
  · exact items_turn hs hy hmove hu hu'

/-- What the caller of a relay that was stopped takes from then on, and what is left behind that, is in
the mailbox already. -/
theorem taken_halted {ys : List Turn} : ∀ {l : Holdings} {s : Service} {u : RelayTask},
    s.Steady l → isRightfulOver l s ys = true → s.task? handle = some u → x.Halted t u →
    ∀ u', (runOf turn s ys).2.task? handle = some u' →
      s.taken handle ys ++ u'.relay.mailbox.items <+: u.relay.mailbox.items := by
  induction ys with
  | nil =>
    intro l s u hs hys hu h u' hu'
    cases hu.symm.trans hu'
    exact List.prefix_rfl
  | cons y ys ih =>
    intro l s u hs hys hu h u' hu'
    obtain ⟨hy, hys⟩ := Bool.and_eq_true_iff.1 hys
    obtain ⟨v, hv, hhalted, -⟩ := halted_turn hs.roster hy hu h
    have hrest := ih (hs.turn hy) hys hv hhalted u' hu'
    rw [taken, List.append_assoc]
    exact ((List.prefix_append_right_inj _).2 hrest).trans
      (items_turn_of_halted hs.roster hy hu h hv)

/-! ## Nobody stopped -/

/-- Where nobody has the handle, nothing is stopped. -/
theorem act_stop_of_none {stopped : Nat} (hx : x.handle? = some stopped)
    (ht : s.task? stopped = none) : (s.act x.step).2 = s := by
  have hsame : ∀ f : Relay → Relay, s.mapRelay stopped f = s := by
    intro f
    have hrelays := map_of_none ht fun t => { t with relay := f t.relay }
    unfold mapRelay mapTask
    rw [hrelays]
  cases x with
  | cancel handle =>
    cases hx
    exact hsame fun r => { r with cancelled := true }
  | leave handle =>
    cases hx
    exact hsame fun r => { r with mailbox := r.mailbox.drop }
  | hangUp handle =>
    cases hx
    exact hsame fun r => { r with mailbox := r.mailbox.drop, cancelled := true }
  | shutDown => cases hx

/-- The service after the stop `x` and the turns that follow. -/
def stoppedBy (s : Service) (x : Stop) (later : List Turn) : Service :=
  (runOf turn (s.act x.step).2 later).2

end Service

/-! ## The aftermath -/

/-- What follows when the stop `x` comes to the service `s`, and `later` after that. -/
structure Stop.Aftermath (x : Stop) (s : Service) (later : List Turn) : Prop where
  /-- A relay that is stopped has ended, in one of its ways, once it got a turn; it holds nothing. -/
  ends : ∀ t ∈ s.relays, x.stops t = true → .move t.handle ∈ later ∨ t.relay.isEnded = true →
    ∃ u, (s.stoppedBy x later).task? t.handle = some u ∧
      (∃ o ∈ x.outcomes t.relay.phase, u.relay.phase = .ended o) ∧
      ∀ id, t.relay.source = some id → (s.stoppedBy x later).store.hub.find? id = none
  /-- All that can keep a relay of the gateway from that is the end of its source, which it is about
  to report when the store was closed. There is no report in its mailbox yet. -/
  reporting : ∀ t ∈ s.relays, t.ofGateway = true → ∀ e o, t.relay.phase = .reporting e o →
    o = .sourceClosed ∧ s.store.closed = true ∧ ∀ item ∈ t.relay.mailbox.items, ∃ m, item = .message m
  /-- Nothing more is put into the mailbox of a relay that is stopped, neither a message that it had in
  its hands nor a report of the end of its source: what its caller takes from then on, and what is left
  behind that, was in the mailbox when it was stopped, and in that order. -/
  silent : ∀ t ∈ s.relays, x.stops t = true →
    ∃ u, (s.stoppedBy x later).task? t.handle = some u ∧
      (s.act x.step).2.taken t.handle later ++ u.relay.mailbox.items <+: t.relay.mailbox.items
  /-- In the turn in which it ends, it gives back its own subscription, once on each of its channels,
  and from then on nothing. -/
  releases : ∀ t ∈ s.relays, x.stops t = true → ∀ id, t.relay.source = some id →
    ∀ earlier rest, later = earlier ++ .move t.handle :: rest →
      let s₁ := s.stoppedBy x earlier
      let s₂ := s.stoppedBy x (earlier ++ [.move t.handle])
      ∃ u, s₁.task? t.handle = some u ∧
        if u.relay.isEnded then s₂ = s₁
        else (∀ j, s₂.store.hub.find? j = if j = id then none else s₁.store.hub.find? j) ∧
          (s₁.store.closed = false → ∀ c, s₁.store.hub.count c =
            s₂.store.hub.count c + if c ∈ t.relay.channels then 1 else 0)
  /-- Every other relay is there, and where it would be. -/
  others : ∀ handle u, x.stops u = false →
    ((s.stoppedBy x later).task? handle = some u ↔
      (runOf Service.turn s later).2.task? handle = some u)
  /-- Its caller takes the items that it would take. -/
  items : ∀ stopped, x.handle? = some stopped → ∀ handle, handle ≠ stopped →
    (s.act x.step).2.taken handle later = s.taken handle later
  /-- Nobody who has nothing to do with the relays that are stopped is answered otherwise, but for
  smaller numbers of subscribers. -/
  answers : List.Forall₂ Answer.Within
    (answersTo x.spares later (runOf Service.turn (s.act x.step).2 later).1)
    (answersTo x.spares later (runOf Service.turn s later).1)
  /-- After a shutdown, a relay that the gateway opens gives its caller nothing, and has ended as
  cancelled once it got a turn. -/
  late : x = .shutDown → ∀ earlier rest, later = earlier ++ rest →
    ∀ t ∈ (s.stoppedBy x earlier).relays, t.ofGateway = true → s.task? t.handle = none →
      t.relay.mailbox.items = [] ∧ (s.stoppedBy x earlier).taken t.handle rest = [] ∧
      (.move t.handle ∈ rest → ∃ u, (s.stoppedBy x later).task? t.handle = some u ∧
        u.relay.phase = .ended .cancelled ∧
        ∀ id, u.relay.source = some id → (s.stoppedBy x later).store.hub.find? id = none)

namespace Service

variable {l : Holdings} {s : Service} {x : Stop} {later : List Turn} {handle : Nat}
  {t u : RelayTask}

/-- A stop may come at any time. -/
theorem isRightful_stop (l : Holdings) (s : Service) (x : Stop) :
    x.step.isRightful l s = true := by
  cases x <;> rfl

section Steady

variable (h : s.Steady l)

include h

theorem steady_stop (x : Stop) : (s.act x.step).2.Steady l := by
  have hledger : x.step.ledger l (s.act x.step).1 = l := by cases x <;> rfl
  rw [← hledger]
  exact h.act (isRightful_stop l s x)

theorem reporting (ht : t ∈ s.relays) (hg : t.ofGateway = true) {e : StoreError} {o : RelayOutcome}
    (hp : t.relay.phase = .reporting e o) :
    o = .sourceClosed ∧ s.store.closed = true ∧
      ∀ item ∈ t.relay.mailbox.items, ∃ m, item = .message m := by
  have hregular := h.roster.regular t ht hg
  have hrun : t.relay.isEnded = false := by
    unfold Relay.isEnded
    rw [hp]
  obtain ⟨ho, hclosed⟩ := hregular.reporting e o hp
  exact ⟨ho, hclosed, hregular.untold hrun⟩

variable (hlater : isRightfulOver l (s.act x.step).2 later = true)

include hlater

theorem steady_stoppedBy :
    (s.stoppedBy x later).Steady (ledgerOver l (s.act x.step).2 later) :=
  (steady_stop h x).run hlater

/-- The state of a relay that was stopped. -/
theorem halted_stoppedBy (ht : t ∈ s.relays) (hx : x.stops t = true) :
    ∃ u, (s.stoppedBy x later).task? t.handle = some u ∧ x.Halted t u ∧
      (.move t.handle ∈ later ∨ t.relay.isEnded = true → u.relay.isEnded = true) := by
  obtain ⟨u, hu, hhalted, hsame⟩ := task?_act_stop (task?_of_mem h.roster.handles_nodup ht) hx
  obtain ⟨v, hv, hhalted', hended⟩ := halted_run (steady_stop h x) hlater hu hhalted
  exact ⟨v, hv, hhalted', fun hor => hended (hor.imp_right hsame.trans)⟩

theorem ends (ht : t ∈ s.relays) (hx : x.stops t = true)
    (hturn : .move t.handle ∈ later ∨ t.relay.isEnded = true) :
    ∃ u, (s.stoppedBy x later).task? t.handle = some u ∧
      (∃ o ∈ x.outcomes t.relay.phase, u.relay.phase = .ended o) ∧
      ∀ id, t.relay.source = some id → (s.stoppedBy x later).store.hub.find? id = none := by
  obtain ⟨u, hu, hhalted, hended⟩ := halted_stoppedBy h hlater ht hx
  refine ⟨u, hu, hhalted.ended (hended hturn), fun id hid => ?_⟩
  exact (steady_stoppedBy h hlater).roster.gone u (task?_mem hu).1 (hended hturn) id
    (hhalted.source.trans hid)

theorem silent (ht : t ∈ s.relays) (hx : x.stops t = true) :
    ∃ u, (s.stoppedBy x later).task? t.handle = some u ∧
      (s.act x.step).2.taken t.handle later ++ u.relay.mailbox.items <+:
        t.relay.mailbox.items := by
  have htask := task?_of_mem h.roster.handles_nodup ht
  obtain ⟨u, hu, hhalted, -⟩ := task?_act_stop htask hx
  obtain ⟨v, hv, -⟩ := halted_run (steady_stop h x) hlater hu hhalted
  -- the stop is a turn as well, in which nobody takes anything
  have hstop : u.relay.mailbox.items <+: t.relay.mailbox.items :=
    items_turn (y := .act x.step) h.roster (isRightful_stop l s x) (fun e => by cases e) htask hu
  exact ⟨v, hv, (taken_halted (steady_stop h x) hlater hu hhalted v hv).trans hstop⟩

theorem releases (ht : t ∈ s.relays) (hx : x.stops t = true) {id : Nat}
    (hid : t.relay.source = some id) :
    let s₁ := s.stoppedBy x later
    let s₂ := s.stoppedBy x (later ++ [.move t.handle])
    ∃ u, s₁.task? t.handle = some u ∧
      if u.relay.isEnded then s₂ = s₁
      else (∀ j, s₂.store.hub.find? j = if j = id then none else s₁.store.hub.find? j) ∧
        (s₁.store.closed = false → ∀ c, s₁.store.hub.count c =
          s₂.store.hub.count c + if c ∈ t.relay.channels then 1 else 0) := by
  intro s₁ s₂
  have hnext : s₂ = (s₁.turn (.move t.handle)).2 := runOf_append
  obtain ⟨u, hu, hhalted, -⟩ := halted_stoppedBy h hlater ht hx
  refine ⟨u, hu, ?_⟩
  rw [hnext]
  cases he : u.relay.isEnded with
  | true => exact move_of_ended hu he
  | false =>
    have hgiven := released (steady_stoppedBy h hlater) hu he (hhalted.moved s₁).2
      (hhalted.source.trans hid)
    rw [hhalted.channels] at hgiven
    exact hgiven

theorem late_stoppedBy (hx : x = .shutDown) {rest : List Turn}
    (hrest : isRightfulOver (ledgerOver l (s.act x.step).2 later) (s.stoppedBy x later) rest = true)
    (ht : t ∈ (s.stoppedBy x later).relays) (hg : t.ofGateway = true)
    (hnew : s.task? t.handle = none) :
    t.relay.mailbox.items = [] ∧ (s.stoppedBy x later).taken t.handle rest = [] ∧
      (.move t.handle ∈ rest → ∃ u, (s.stoppedBy x (later ++ rest)).task? t.handle = some u ∧
        u.relay.phase = .ended .cancelled ∧
        ∀ id, u.relay.source = some id →
          (s.stoppedBy x (later ++ rest)).store.hub.find? id = none) := by
  subst hx
  have hsteady := steady_stoppedBy h hlater
  have hlate : Late t.handle (s.stoppedBy .shutDown later) :=
    late_run (steady_stop h .shutDown) hlater (late_act_shutDown hnew)
  have htask := task?_of_mem hsteady.roster.handles_nodup ht
  obtain ⟨t₀, hfresh, hhalted⟩ := hlate.fresh t htask hg
  have hend : s.stoppedBy .shutDown (later ++ rest) =
      (runOf turn (s.stoppedBy .shutDown later) rest).2 := runOf_append
  obtain ⟨u, hu, hhalted', hended⟩ := halted_run hsteady hrest htask hhalted
  have hempty : t.relay.mailbox.items = [] := List.sublist_nil.1 (hfresh.items ▸ hhalted.items)
  have htaken := taken_halted hsteady hrest htask hhalted u hu
  rw [hempty] at htaken
  refine ⟨hempty, (List.append_eq_nil_iff.1 (List.prefix_nil.1 htaken)).1, fun hmove => ?_⟩
  rw [hend]
  refine ⟨u, hu, ?_, (hsteady.run hrest).roster.gone u (task?_mem hu).1 (hended (.inl hmove))⟩
  obtain ⟨o, ho, hphase⟩ := hhalted'.ended (hended (.inl hmove))
  rw [hfresh.phase] at ho
  rw [hphase, List.mem_singleton.1 ho]
  rfl

end Steady

/-- Without the stop, all would be the same but for the relays that it stops. -/
theorem unstopped (h : s.Steady l) (hlater : isRightfulOver l (s.act x.step).2 later = true) :
    (∀ handle u, x.stops u = false →
      ((s.stoppedBy x later).task? handle = some u ↔
        (runOf turn s later).2.task? handle = some u)) ∧
    (∀ stopped, x.handle? = some stopped → ∀ handle, handle ≠ stopped →
      (s.act x.step).2.taken handle later = s.taken handle later) ∧
    List.Forall₂ Answer.Within
      (answersTo x.spares later (runOf turn (s.act x.step).2 later).1)
      (answersTo x.spares later (runOf turn s later).1) := by
  by_cases haimed : ∀ handle, x.handle? = some handle → ∃ t ∈ s.relays, t.handle = handle
  · obtain ⟨D, hlock⟩ := Lockstep.start h haimed
    obtain ⟨hanswers, D', hend⟩ := hlock.run (steady_stop h x) h hlater
    refine ⟨fun handle u hu => ?_, fun stopped hx handle hne => ?_, hanswers⟩
    · have htasks := hend.task? handle
      rw [stoppedBy]
      generalize (runOf turn (s.act x.step).2 later).2.task? handle = t,
        (runOf turn s later).2.task? handle = t' at htasks ⊢
      cases htasks with
      | none => exact Iff.rfl
      | @some t t' hpair =>
        constructor
        · rintro ⟨⟩
          rw [hpair.eq_of_spared hu]
        · rintro ⟨⟩
          rw [← hpair.eq_of_spared (hpair.stops_eq.symm.trans hu)]
    · exact (hlock.taken_eq hx hne (steady_stop h x) h hlater).symm
  · -- nobody has the handle, so there is only one run
    push Not at haimed
    obtain ⟨stopped, hx, hnobody⟩ := haimed
    have hsame : (s.act x.step).2 = s :=
      act_stop_of_none hx (task?_eq_none_iff.2 hnobody)
    rw [stoppedBy, hsame]
    exact ⟨fun _ _ _ => Iff.rfl, fun _ _ _ _ => rfl, List.forall₂_same.2 fun a _ => .same a⟩

/-- Take a service with an empty store in memory and without relays, and let its callers do what they
may. Then a relay is cancelled, left or hung up on, or the gateway is shut down: what is stopped ends,
tells its caller nothing more and gives its own channels back, and nothing else comes of it. -/
theorem relays_stop_alone {start : Service} {capacity : Nat}
    (hstore : start.store = .ofCapacity capacity) (hrelays : start.relays = [])
    (before later : List Turn) (x : Stop)
    (hfair : isRightfulOver [] start (before ++ .act x.step :: later) = true) :
    x.Aftermath (runOf turn start before).2 later := by
  rw [isRightfulOver_append, Bool.and_eq_true_iff] at hfair
  obtain ⟨hbefore, hstop⟩ := hfair
  have h := (Steady.start hstore hrelays).run hbefore
  generalize ledgerOver [] start before = l, (runOf turn start before).2 = s at hstop h
  have hledger : Turn.ledger l (.act x.step) (s.act x.step).1 = l := by cases x <;> rfl
  have hlater : isRightfulOver l (s.act x.step).2 later = true :=
    hledger ▸ (Bool.and_eq_true_iff.1 hstop).2
  obtain ⟨hothers, hitems, hanswers⟩ := unstopped h hlater
  refine
    { ends := fun t ht hx => ends h hlater ht hx
      reporting := fun t ht hg e o hp => reporting h ht hg hp
      silent := fun t ht hx => silent h hlater ht hx
      releases := fun t ht hx id hid earlier rest heq => ?_
      others := hothers
      items := hitems
      answers := hanswers
      late := fun hx earlier rest heq t ht hg hnew => ?_ }
  · rw [heq, isRightfulOver_append, Bool.and_eq_true_iff] at hlater
    exact releases h hlater.1 ht hx hid
  · rw [heq, isRightfulOver_append, Bool.and_eq_true_iff] at hlater
    rw [heq]
    exact late_stoppedBy h hlater.1 hx hlater.2 ht hg hnew

/-- Two relays listen on overlapping channels, and nobody reads what the first one has. It is
cancelled while it waits for room, with a message in its hands, and ends in its next turn; its caller
still finds the one message that was there, and no other. The other relay goes on. -/
theorem relays_stop_alone_blocked :
    let ann : Tenant := ⟨"ann", none⟩
    let start : Service :=
      { gateway := { settings := { relayBuffer := 1 } }, clock := ⟨⟨0⟩, default⟩,
        store := .ofCapacity 4 }
    let publish (text : String) : Turn := .act (.call ann (.publish "a" text) {})
    let before : List Turn :=
      [.act (.call ann (.subscribe ["a", "b"]) { handle := 1 }),
        .act (.call ann (.subscribe ["a"]) { handle := 2 }), publish "x", publish "y",
        .move 1, .move 1, .move 1, .move 2, .move 2]
    let later : List Turn :=
      [publish "z", .move 1, .take 2, .move 2, .move 2, .take 2, .move 2, .move 2, .take 2, .take 1,
        .take 1]
    let s := (runOf turn start before).2
    isRightfulOver [] start (before ++ .act (.cancel 1) :: later) = true ∧
      (Stop.cancel 1).Aftermath s later ∧
      (s.stoppedBy (.cancel 1) later).store.hub.count (ann.isolate "a") = 1 ∧
      (s.act (.cancel 1)).2.taken 1 later = [.message ⟨"a", "x", default⟩] ∧
      ((s.act (.cancel 1)).2.taken 2 later).length = 3 := by
  intro ann start publish before later s
  have hfair : isRightfulOver [] start (before ++ .act (.cancel 1) :: later) = true := by
    decide +kernel
  have hafter := relays_stop_alone (by rfl) (by rfl) before later (.cancel 1) hfair
  have hitems : (s.act (.cancel 1)).2.taken 2 later = s.taken 2 later :=
    hafter.items 1 rfl 2 (by decide)
  refine ⟨hfair, hafter, by decide +kernel, by decide +kernel, ?_⟩
  rw [hitems]
  decide +kernel

/-- A relay that waits to report the end of its source does not end as cancelled when it is
cancelled: it was to end otherwise, and only the report is left out. -/
theorem cancel_leaves_source_closed :
    let ann : Tenant := ⟨"ann", none⟩
    let start : Service :=
      { gateway := { settings := { relayBuffer := 1 } }, clock := ⟨⟨0⟩, default⟩,
        store := .ofCapacity 4 }
    let xs : List Step :=
      [.call ann (.subscribe ["a"]) { handle := 1 }, .call ann (.publish "a" "0") {}, .closeStore]
    ((start.run xs).2.relay? 1).map (·.outcome?) = some none ∧
      ((start.run (xs ++ [.cancel 1])).2.relay? 1).map (·.outcome?) =
        some (some .sourceClosed) := by
  decide +kernel

end Service

end Tenancy
