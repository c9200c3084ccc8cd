import Tenancy.Proofs.Audit.Trail
import Tenancy.Proofs.Metrics.Tally
import Tenancy.Proofs.Relay.Listener

/-!
# The metrics of a schedule

Whatever happens in which order, the counters of calls move by the calls that were let in, each by
its answer, and the counter of delivered messages by the messages that were put into mailboxes. What
the relays took from their subscriptions was delivered or dropped, or a relay still has it in its
hand, waiting for room: that is the law of conservation behind `Service.metrics_law`. `Tallied` is
what an event does to the counters and the hands; every event has its amounts (`tallied_happen`),
and the amounts of a schedule are the sums of those of its events.
-/

namespace Tenancy

open Metrics

/-! ## Relays -/

/-- The message that arrives. -/
def Arrival.message? : Arrival → Option Message
  | .message m => some m
  | _ => none

namespace Relay

/-- How many messages the relay has in its hand. -/
def hands (r : Relay) : Nat := r.hand?.toList.length

/-- The message that is in the mailbox after a move and was not before. -/
def put? (before after : Relay) : Option RelayedMessage :=
  match after.mailbox.items.drop before.mailbox.items.length with
  | [.message m] => some m
  | _ => none

/-- The message that a relay gets from its subscription, if it asks and does not have to stop. -/
def received? (r : Relay) (s : Store) : Option Message :=
  if r.interruption? = none ∧ (r.phase = .asking ∨ r.phase = .waiting) then
    r.source.bind fun id => (s.receive id r.turn).1.message?
  else none

variable {r r' : Relay} {s s' : Store} {now : Timestamp} {e : Effects}

theorem hands_of_phase (h : r'.phase = r.phase) : r'.hands = r.hands := by
  unfold hands hand?
  rw [h]

theorem hands_of_hand? {m? : Option RelayedMessage} (h : r.hand? = m?) :
    r.hands = m?.toList.length := by
  rw [hands, h]

theorem put?_of_mailbox (h : r'.mailbox = r.mailbox) : r.put? r' = none := by
  unfold put?
  rw [h, List.drop_length]

/-- A relay takes nothing while it has something for its caller. -/
theorem received?_of_not_asks (hasks : ¬ r.Asks) : r.received? s = none := if_neg fun h => hasks h.2

theorem not_asks_of_sending {m : RelayedMessage} (h : r.phase = .sending m) : ¬ r.Asks := by
  rintro (hp | hp) <;> cases h.symm.trans hp

theorem not_asks_of_reporting {err : StoreError} {o : RelayOutcome}
    (h : r.phase = .reporting err o) : ¬ r.Asks := by
  rintro (hp | hp) <;> cases h.symm.trans hp

/-- The effects of a move count what was put and what was lost, and the hand has the rest of what
was taken. -/
structure Tallied (r : Relay) (s : Store) (e : Effects) (r' : Relay) : Prop where
  calls : calls e.samples = []
  put : e.samples.count (.relayMessage true) = (r.put? r').toList.length
  carried : e.samples.count (.relayMessage true) + e.samples.count (.relayMessage false) + r'.hands =
    r.hands + (r.received? s).toList.length

theorem samples_finish (r : Relay) (o : RelayOutcome) :
    (r.finish o).2.samples = if r.source.isSome then [.relayStopped] else [] := by
  unfold finish
  split <;> rfl

/-- Ending counts no message. -/
theorem messages_finish (r : Relay) (o : RelayOutcome) (delivered : Bool) :
    (r.finish o).2.samples.count (.relayMessage delivered) = 0 := by
  rw [samples_finish]
  split <;> rfl

theorem calls_finish (r : Relay) (o : RelayOutcome) : calls (r.finish o).2.samples = [] := by
  rw [samples_finish]
  split <;> rfl

/-- A relay with nothing in its hand that ends. -/
theorem tallied_finish (hhand : r.hands = 0) (htaken : r.received? s = none) (o : RelayOutcome)
    {mailbox : Mailbox} (hput : r.put? { r with mailbox } = none) :
    r.Tallied s ({ r with mailbox }.finish o).2 ({ r with mailbox }.finish o).1 where
  calls := calls_finish _ o
  put := by
    rw [messages_finish]
    exact (congrArg (·.toList.length) hput).symm
  carried := by
    rw [messages_finish, messages_finish, hhand, htaken]
    rfl

theorem tallied_accept {id : Nat} (hsource : r.source = some id) (hgoes : r.interruption? = none)
    (hasks : r.Asks) (now : Timestamp) :
    r.Tallied s (r.accept (s.receive id r.turn).1 now).2 (r.accept (s.receive id r.turn).1 now).1 := by
  have hhand : r.hands = 0 := hands_of_hand? (hand?_of_asks hasks)
  have htaken : r.received? s = (s.receive id r.turn).1.message? := by
    rw [received?, if_pos ⟨hgoes, hasks⟩, hsource, Option.bind_some]
  have hput : r.put? (r.accept (s.receive id r.turn).1 now).1 = none := by
    refine put?_of_mailbox ?_
    cases (s.receive id r.turn).1 <;> rfl
  refine ⟨?_, ?_, ?_⟩
  · cases (s.receive id r.turn).1 <;> rfl
  · rw [hput]
    cases (s.receive id r.turn).1 <;> rfl
  · rw [hhand, htaken]
    cases (s.receive id r.turn).1 <;> rfl

theorem tallied_ask? (hasks : r.Asks) (h : r.ask? s now = some (r', s', e)) : r.Tallied s e r' := by
  have hhand : r.hands = 0 := hands_of_hand? (hand?_of_asks hasks)
  unfold ask? at h
  split at h
  · rename_i r₁ e₁ hheed
    obtain ⟨o, ho, heq⟩ := Option.map_eq_some_iff.1 hheed
    cases h
    have hstops : r.received? s = none := if_neg fun hgoes => by cases ho.symm.trans hgoes.1
    have hended := tallied_finish hhand hstops o (put?_of_mailbox rfl)
    rw [heq] at hended
    exact hended
  · cases h
  · rename_i id hheed hsource
    split at h
    · cases h
    · cases h
      have hgoes : r.interruption? = none := Option.map_eq_none_iff.1 hheed
      have htaken := tallied_accept (s := s) hsource hgoes hasks now
      exact ⟨htaken.calls, htaken.put, htaken.carried⟩

/-- A relay that ends with a message in its hand loses it. -/
theorem tallied_lost {m : RelayedMessage} (hp : r.phase = .sending m) (o : RelayOutcome) :
    r.Tallied s (.ofSamples [.relayMessage false] ++ (r.finish o).2) (r.finish o).1 where
  calls := by
    rw [Effects.samples_append, calls_append, calls_finish]
    rfl
  put := by
    have hput : r.put? (r.finish o).1 = none := put?_of_mailbox rfl
    rw [hput, Effects.samples_append, List.count_append, messages_finish]
    rfl
  carried := by
    have hhand : r.hands = 1 := hands_of_hand? (hand?_of_sending hp)
    have htaken : r.received? s = none := received?_of_not_asks (not_asks_of_sending hp)
    rw [hhand, htaken, Effects.samples_append, List.count_append, List.count_append,
      messages_finish, messages_finish]
    rfl

theorem tallied_handOver (h : r.handOver = some (r', e)) : r.Tallied s e r' := by
  unfold handOver at h
  split at h
  · rename_i m hp
    have hhand : r.hands = 1 := hands_of_hand? (hand?_of_sending hp)
    have htaken : r.received? s = none := received?_of_not_asks (not_asks_of_sending hp)
    split at h
    · rename_i o ho
      cases h
      exact tallied_lost hp o
    · split at h
      · cases h
        have hput : r.put? { r with mailbox := r.mailbox.put (.message m), phase := .asking } =
            some m := by
          unfold put? Mailbox.put
          rw [List.drop_left]
        refine ⟨rfl, ?_, ?_⟩
        · rw [hput]
          rfl
        · rw [hhand, htaken]
          rfl
      · cases h
  · rename_i err o hp
    have hhand : r.hands = 0 := hands_of_hand? (hand?_of_reporting hp)
    have htaken : r.received? s = none := received?_of_not_asks (not_asks_of_reporting hp)
    split at h
    · cases h
      exact tallied_finish hhand htaken o (put?_of_mailbox rfl)
    · split at h
      · cases h
        refine tallied_finish hhand htaken o ?_
        unfold put? Mailbox.put
        rw [List.drop_left]
      · cases h
  · cases h

theorem tallied_move? (h : r.move? s now = some (r', s', e)) : r.Tallied s e r' := by
  unfold move? at h
  split at h
  · rename_i hp
    exact tallied_ask? (.inl hp) h
  · rename_i hp
    exact tallied_ask? (.inr hp) h
  · obtain ⟨x, hover, hx⟩ := Option.map_eq_some_iff.1 h
    cases hx
    exact tallied_handOver hover
  · obtain ⟨x, hover, hx⟩ := Option.map_eq_some_iff.1 h
    cases hx
    exact tallied_handOver hover
  · cases h

theorem counted_start (f : Feed) (mailbox : Mailbox) (cancelled : Bool) (turns : List Nat) :
    (start f mailbox cancelled turns).2.Counted none :=
  ⟨rfl, fun _ => by simp [start]⟩

theorem hands_start (f : Feed) (mailbox : Mailbox) (cancelled : Bool) (turns : List Nat) :
    (start f mailbox cancelled turns).1.hands = 0 := rfl

end Relay

/-! ## Events -/

/-- The series in which a step is counted as a call of the gateway, direct or remote, if the gateway
lets it in: it goes by the answer. -/
def Step.series? (g : Gateway) : Step → Answer → Option Series
  | .call t r _, .called a =>
    if g.Admits t r then r.series? (a.map Response.isChange) else none
  | .rpc caller c _, .replied a =>
    caller.tenant.toOption.bind fun t =>
      if g.Admits t c.request then c.request.series? (a.map Rpc.Result.isChange) else none
  | _, _ => none

/-- A counted call has one of the outcomes of its operation. -/
theorem Step.mem_outcomes {g : Gateway} {x : Step} {a : Answer} {σ : Series}
    (h : x.series? g a = some σ) {operation : String} (ho : σ.operation? = some operation) :
    σ ∈ outcomes operation := by
  unfold Step.series? at h
  split at h
  · split at h
    · exact Request.mem_outcomes h ho
    · cases h
  · obtain ⟨t, -, h⟩ := Option.bind_eq_some_iff.1 h
    split at h
    · exact Request.mem_outcomes h ho
    · cases h
  · cases h

namespace Service

/-- How many messages the relays have in their hands. -/
def inHand (s : Service) : Nat := (s.relays.map (·.relay.hands)).sum

/-- The series in which an event is counted as a call. -/
def counted? (s : Service) : Event → Option Series
  | .act x _ => x.series? s.gateway (s.act x).1
  | _ => none

/-- The relay that an event moves, before and after. -/
def moved? (s : Service) : Event → Option (Relay × Relay)
  | .move i => do
    let s' ← s.moveAt? i
    let before ← s.relays[i]?
    let after ← s'.relays[i]?
    some (before.relay, after.relay)
  | _ => none

/-- The message that an event puts into a mailbox. -/
def put? (s : Service) (e : Event) : Option RelayedMessage :=
  (s.moved? e).bind fun x => x.1.put? x.2

/-- The message that a relay gets from its subscription in an event. -/
def received? (s : Service) (e : Event) : Option Message := (s.moved? e).bind (·.1.received? s.store)

/-- The numbers of messages that were handed over, or lost. -/
def messages (s : Service) (delivered : Bool) : Nat := s.samples.count (.relayMessage delivered)

variable {s s' s'' : Service}

/-! ### What no relay's move does -/

/-- The calls were counted, and no relay moved. -/
structure Counts (s : Service) (called : List Series) (s' : Service) : Prop where
  calls : calls s'.samples = calls s.samples ++ called
  messages : ∀ delivered, s'.messages delivered = s.messages delivered
  inHand : s'.inHand = s.inHand

/-- Relays were changed one by one, and others started with nothing in their hands. -/
theorem counts_of_relays (f : RelayTask → RelayTask) (started : List RelayTask)
    (hsamples : s'.samples = s.samples) (hrelays : s'.relays = s.relays.map f ++ started)
    (hf : ∀ t, (f t).relay.phase = t.relay.phase) (hstarted : ∀ t ∈ started, t.relay.hands = 0) :
    s.Counts [] s' where
  calls := by rw [hsamples, List.append_nil]
  messages delivered := congrArg (List.count _) hsamples
  inHand := by
    have hnew : (started.map (·.relay.hands)).sum = 0 :=
      List.sum_eq_zero fun n hn => by
        obtain ⟨t, ht, rfl⟩ := List.mem_map.1 hn
        exact hstarted t ht
    have hold : ((s.relays.map f).map (·.relay.hands)).sum = s.inHand := by
      rw [List.map_map]
      exact congrArg List.sum (List.map_congr_left fun t _ => Relay.hands_of_phase (hf t))
    rw [inHand, hrelays, List.map_append, List.sum_append, hold, hnew]
    rfl

/-- Other parts of the service do not matter. -/
theorem counts_nil (hsamples : s'.samples = s.samples) (hrelays : s'.relays = s.relays) :
    s.Counts [] s' :=
  counts_of_relays id [] hsamples
    (by rw [hrelays, List.map_id, List.append_nil]) (fun _ => rfl) (List.forall_mem_nil _)

theorem Counts.leaving {called : List Series} {call? : Option Series} (h : s.Counts called s')
    {e : Effects} (he : e.Counted call?) : s.Counts (called ++ call?.toList) (s'.leaving e) where
  calls := by
    have hboth : Metrics.calls (s'.leaving e).samples =
        Metrics.calls s'.samples ++ Metrics.calls e.samples := calls_append s'.samples e.samples
    rw [hboth, h.calls, he.calls, List.append_assoc]
  messages delivered := by
    have hboth : (s'.leaving e).messages delivered =
        s'.messages delivered + e.samples.count (.relayMessage delivered) := List.count_append
    rw [hboth, h.messages, List.count_eq_zero.2 (he.messages delivered)]
    rfl
  inHand := h.inHand

theorem Counts.leaving_of_none {called : List Series} (h : s.Counts called s') {e : Effects}
    (he : e.Counted none) : s.Counts called (s'.leaving e) :=
  List.append_nil called ▸ h.leaving he

theorem Counts.ask (h : s.Counts [] s') (id left : Nat) : s.Counts [] (s'.ask id left).2.2 := by
  have hstore : ∀ store, s.Counts [] { s' with store } := fun store =>
    ⟨h.calls, h.messages, h.inHand⟩
  unfold Service.ask
  split
  · exact hstore _
  · exact (hstore _).leaving_of_none (Effects.counted_ofLog _)

/-- One relay is changed as its caller wants. -/
theorem counts_mapTask (s : Service) (handle : Nat) {f : RelayTask → RelayTask}
    (hf : ∀ t, (f t).relay.phase = t.relay.phase) : s.Counts [] (s.mapTask handle f) := by
  refine counts_of_relays _ [] rfl (List.append_nil _).symm (fun t => ?_) (List.forall_mem_nil _)
  split
  · exact hf t
  · rfl

/-- A relay starts. -/
theorem counts_addRelay (hsamples : s'.samples = s.samples) (hrelays : s'.relays = s.relays)
    (handle : Nat) (ofGateway : Bool) {started : Relay × Effects} (hhands : started.1.hands = 0)
    (hstarted : started.2.Counted none) : s.Counts [] (s'.addRelay handle ofGateway started) := by
  refine Counts.leaving_of_none ?_ hstarted
  refine counts_of_relays id [⟨handle, started.1, ofGateway, false⟩] hsamples ?_
    (fun _ => rfl) fun t ht => ?_
  · rw [List.map_id, ← hrelays]
  · rw [List.mem_singleton.1 ht]
    exact hhands

theorem Counts.trans {called called' : List Series} (h : s.Counts called s')
    (h' : s'.Counts called' s'') : s.Counts (called ++ called') s'' where
  calls := by rw [h'.calls, h.calls, List.append_assoc]
  messages delivered := (h'.messages delivered).trans (h.messages delivered)
  inHand := h'.inHand.trans h.inHand

theorem counts_after (s : Service) (store : Store) {e : Effects} {call? : Option Series}
    (he : e.Counted call?) (feed : Option Feed) (given : Supply) :
    s.Counts call?.toList (s.after store e feed given) := by
  have hstore : s.Counts [] { s with store } := counts_nil rfl rfl
  have hleft : s.Counts call?.toList ({ s with store }.leaving e) := hstore.leaving he
  cases feed with
  | none => exact hleft
  | some f =>
    have hadded := Service.counts_addRelay (s := { s with store }.leaving e) rfl rfl given.handle true
      (Relay.hands_start f { capacity := max s.gateway.settings.relayBuffer 1 } s.isShutDown
        given.turns) (Relay.counted_start f _ _ _)
    exact (List.append_nil call?.toList) ▸ hleft.trans hadded

/-- A step counts the call that it is, by its answer. -/
theorem counts_act (s : Service) {x : Step} (hx : x.IsSingle = true) :
    s.Counts (x.series? s.gateway (s.act x).1).toList (s.act x).2 := by
  cases x with
  | call t r given =>
    exact s.counts_after _ (Gateway.counted_call s.clock given.fresh t s.store s.gateway r) _ given
  | rpc caller c given =>
    rw [act, Rpc.perform, Step.series?]
    cases htenant : caller.tenant with
    | error status => exact s.counts_after s.store (Effects.counted_ofLog []) none given
    | ok t =>
      have hcounted := Gateway.counted_call s.clock given.fresh t s.store s.gateway c.request
      rw [← Rpc.Call.series?_told] at hcounted
      exact s.counts_after _ hcounted _ given
  | drain id limit =>
    exact drainIn_keeps (p := s.Counts []) id (fun left h => h.ask id left)
      (s.store.waiting id + 1) stint limit (counts_nil rfl rfl)
  | read handle limit => cases hx
  | startSweeper interval =>
    refine Counts.leaving_of_none ?_ (Effects.counted_ofLog _)
    exact counts_nil rfl rfl
  | stopSweepers =>
    refine Counts.leaving_of_none ?_ (Effects.counted_ofLog _)
    exact counts_nil rfl rfl
  | closeStore =>
    refine Counts.leaving_of_none ?_ (Effects.counted_ofLog _)
    exact counts_nil rfl rfl
  | shutDown =>
    refine counts_of_relays _ [] rfl (List.append_nil _).symm (fun t => ?_) (List.forall_mem_nil _)
    split
    · rfl
    · rfl
  | relayFeed f how =>
    exact counts_addRelay rfl rfl how.handle false (Relay.hands_start f _ _ _)
      (Relay.counted_start f _ _ _)
  | relayChannels t channels how =>
    rw [act]
    split
    · refine counts_addRelay ?_ ?_ how.handle false (Relay.hands_start _ _ _ _)
        (Relay.counted_start _ _ _ _)
      · rfl
      · rfl
    · refine counts_addRelay ?_ ?_ how.handle false rfl (Effects.counted_ofLog _)
      · rfl
      · rfl
  | cancel handle => exact s.counts_mapTask handle fun t => rfl
  | leave handle => exact s.counts_mapTask handle fun t => rfl
  | hangUp handle => exact s.counts_mapTask handle fun t => rfl
  | outcome handle =>
    rw [act_outcome]
    split
    · exact s.counts_mapTask handle fun t => rfl
    · exact counts_nil rfl rfl
  | _ => exact counts_nil rfl rfl

/-! ### Conservation -/

/-- The calls were counted, the messages that were put into mailboxes are those that were handed
over, and of what was taken the rest is lost or in a hand. -/
structure Tallied (s : Service) (called : List Series) (put : List RelayedMessage)
    (taken : List Message) (s' : Service) : Prop where
  calls : calls s'.samples = calls s.samples ++ called
  delivered : s'.messages true = s.messages true + put.length
  carried : s'.messages true + s'.messages false + s'.inHand =
    s.messages true + s.messages false + s.inHand + taken.length

theorem Tallied.refl (s : Service) : s.Tallied [] [] [] s :=
  ⟨(List.append_nil _).symm, rfl, rfl⟩

theorem Tallied.trans {called called' : List Series} {put put' : List RelayedMessage}
    {taken taken' : List Message} (h : s.Tallied called put taken s')
    (h' : s'.Tallied called' put' taken' s'') :
    s.Tallied (called ++ called') (put ++ put') (taken ++ taken') s'' where
  calls := by rw [h'.calls, h.calls, List.append_assoc]
  delivered := by rw [h'.delivered, h.delivered, List.length_append, Nat.add_assoc]
  carried := by rw [h'.carried, h.carried, List.length_append, Nat.add_assoc]

theorem Counts.tallied {called : List Series} (h : s.Counts called s') :
    s.Tallied called [] [] s' where
  calls := h.calls
  delivered := h.messages true
  carried := by
    rw [h.messages, h.messages, h.inHand]
    rfl

/-- A relay that moves takes a message, hands it over or loses it. -/
theorem tallied_moveAt? {i : Nat} (h : s.moveAt? i = some s') :
    s.Tallied [] (s.put? (.move i)).toList (s.received? (.move i)).toList s' := by
  obtain ⟨l₁, t, l₂, r, e, hi, hrelays, hmove, heq⟩ := moveAt?_eq_some h
  have hrelays' : s'.relays = l₁ ++ { t with relay := r } :: l₂ := by
    rw [heq]
    rfl
  have hsamples : s'.samples = s.samples ++ e.samples := by
    rw [heq]
    rfl
  have hmessages : ∀ delivered, s'.messages delivered =
      s.messages delivered + e.samples.count (.relayMessage delivered) := fun delivered => by
    rw [messages, hsamples, List.count_append]
    rfl
  have hmoved : s.moved? (.move i) = some (t.relay, r) := by
    rw [moved?, h, Option.bind_eq_bind, Option.bind_some, hrelays, hrelays', ← hi,
      List.getElem?_append_right le_rfl, List.getElem?_append_right le_rfl, Nat.sub_self]
    rfl
  have hput : s.put? (.move i) = t.relay.put? r := by rw [put?, hmoved, Option.bind_some]
  have htaken : s.received? (.move i) = t.relay.received? s.store := by
    rw [received?, hmoved, Option.bind_some]
  have htally := Relay.tallied_move? hmove
  refine ⟨?_, ?_, ?_⟩
  · rw [hsamples, calls_append, htally.calls]
  · rw [hmessages, htally.put, hput]
  · have hcarried := htally.carried
    have hbefore : s.inHand = (l₁.map (·.relay.hands)).sum + (t.relay.hands +
        (l₂.map (·.relay.hands)).sum) := by
      rw [inHand, hrelays, List.map_append, List.sum_append, List.map_cons, List.sum_cons]
    have hafter : s'.inHand = (l₁.map (·.relay.hands)).sum + (r.hands +
        (l₂.map (·.relay.hands)).sum) := by
      rw [inHand, hrelays', List.map_append, List.sum_append, List.map_cons, List.sum_cons]
    rw [hmessages, hmessages, hbefore, hafter, htaken]
    omega

theorem counts_picked? {handle : Nat} {x : RelayItem} (h : s.picked? handle = some (x, s')) :
    s.Counts [] s' := by
  obtain ⟨y, -, hy⟩ := Option.map_eq_some_iff.1 h
  cases hy
  exact s.counts_mapTask handle fun t => rfl

theorem counts_hand (s : Service) (r : Audit.Record) : s.Counts [] (s.hand r) := by
  unfold hand
  split
  · refine Counts.leaving_of_none (counts_nil ?_ ?_) ⟨rfl, fun _ => by simp⟩
    · rfl
    · rfl
  · have hkept : s.Counts [] { s with trail := s.trail ++ [r] } := counts_nil rfl rfl
    simp only
    split
    · exact hkept.leaving_of_none (Effects.counted_ofLog _)
    · exact hkept

theorem counts_handAt (s : Service) (i : Nat) : s.Counts [] (s.handAt i) := by
  unfold handAt
  split
  · have hwaiting : s.Counts [] { s with pending := s.pending.eraseIdx i } := counts_nil rfl rfl
    exact hwaiting.trans (counts_hand _ _)
  · exact counts_nil rfl rfl

theorem tallied_happen (s : Service) (e : Event) :
    s.Tallied (s.counted? e).toList (s.put? e).toList (s.received? e).toList (s.happen e).2 := by
  cases e with
  | act x single => exact (s.counts_act single).tallied
  | take handle =>
    cases hp : s.picked? handle with
    | none =>
      simp only [happen, hp]
      exact .refl s
    | some x =>
      simp only [happen, hp]
      exact (counts_picked? hp).tallied
  | move i =>
    cases hm : s.moveAt? i with
    | none =>
      have hmoved : s.moved? (.move i) = none := by
        rw [moved?, hm]
        rfl
      simp only [happen, hm, put?, received?, hmoved]
      exact .refl s
    | some s' =>
      simp only [happen, hm]
      exact tallied_moveAt? hm
  | hand i => exact (s.counts_handAt i).tallied
  | sweep =>
    refine Counts.tallied (counts_nil ?_ ?_)
    · rfl
    · rfl
  | wall now =>
    refine Counts.tallied (counts_nil ?_ ?_)
    · rfl
    · rfl

/-- The amounts of a schedule are those of its events. -/
theorem tallied_play (es : List Event) : ∀ s : Service,
    s.Tallied (collect counted? es s) (collect put? es s) (collect received? es s) (s.play es).2 := by
  induction es with
  | nil => exact Tallied.refl
  | cons e es ih => exact fun s => (s.tallied_happen e).trans (ih (s.happen e).2)

/-! ### The theorem -/

/-- How much a series grew. -/
def growth (s s' : Service) (σ : Series) : Int := total s'.samples σ - total s.samples σ

section Growth

variable {called : List Series} {put : List RelayedMessage} {taken : List Message}

theorem Tallied.growth_call (h : s.Tallied called put taken s') {σ : Series}
    (hσ : σ.operation?.isSome) : s.growth s' σ = called.count σ := by
  rw [growth, total_call _ hσ, total_call _ hσ, h.calls, List.count_append]
  push_cast
  omega

theorem Tallied.growth_durationCount (h : s.Tallied called put taken s') (operation : String) :
    s.growth s' (.durationCount operation) = called.countP (·.operation? = some operation) := by
  rw [growth, total_durationCount, total_durationCount, h.calls, List.countP_append]
  push_cast
  omega

theorem growth_relayMessages (s s' : Service) (delivered : Bool) :
    s.growth s' (.relayMessages (if delivered then "delivered" else "dropped")) =
      s'.messages delivered - s.messages delivered := by
  rw [growth, total_relayMessages, total_relayMessages]
  rfl

end Growth

theorem exists_of_mem_collect {α : Type} {f : Service → Event → Option α} {x : α}
    (es : List Event) : ∀ {s : Service}, x ∈ collect f es s → ∃ s' e, f s' e = some x := by
  induction es with
  | nil => exact fun h => nomatch h
  | cons e es ih =>
    intro s h
    rcases List.mem_append.1 h with h | h
    · exact ⟨s, e, Option.mem_toList.1 h⟩
    · exact ih h

/-- What the series of the metrics grow by in a schedule: those of the calls by the calls that were
let in, each under the outcome of its answer, so that the outcomes of an operation grow together like
its durations; that of delivered messages by the messages put into mailboxes; and delivered and lost
messages, with those in the hands of relays, are what was in their hands before or taken since. -/
theorem metrics_law (s : Service) (es : List Event) :
    let s' := (s.play es).2
    (∀ σ : Series, σ.operation?.isSome → s.growth s' σ = (collect counted? es s).count σ) ∧
    (∀ operation,
      ∑ σ ∈ outcomes operation, s.growth s' σ = s.growth s' (.durationCount operation)) ∧
    s.growth s' (.relayMessages "delivered") = (collect put? es s).length ∧
    s.growth s' (.relayMessages "delivered") + s.growth s' (.relayMessages "dropped") + s'.inHand =
      s.inHand + (collect received? es s).length := by
  intro s'
  have htally : s.Tallied _ _ _ s' := tallied_play es s
  have hdelivered := s.growth_relayMessages s' true
  have hdropped := s.growth_relayMessages s' false
  refine ⟨fun σ hσ => htally.growth_call hσ, fun operation => ?_, ?_, ?_⟩
  · have hcalled : ∀ σ ∈ collect counted? es s, σ.operation? = some operation →
        σ ∈ outcomes operation := fun σ hσ ho => by
      obtain ⟨_, e, hcounted⟩ := exists_of_mem_collect es hσ
      cases e with
      | act x single => exact Step.mem_outcomes hcounted ho
      | _ => cases hcounted
    have hgrowth : ∀ σ ∈ outcomes operation,
        s.growth s' σ = ((collect counted? es s).count σ : Int) := fun σ hσ =>
      htally.growth_call (by rw [operation?_of_mem_outcomes hσ]; rfl)
    rw [Finset.sum_congr rfl hgrowth, ← Nat.cast_sum, sum_outcomes hcalled,
      htally.growth_durationCount]
  · have hput := htally.delivered
    exact hdelivered.trans (by omega)
  · have hcarried := htally.carried
    simp only [if_true, Bool.false_eq_true, if_false] at hdelivered hdropped
    omega

/-- Ann takes a lock, asks for it again, and asks for one without a name: the first two are counted,
each by its answer, and the third is not. -/
theorem metrics_law_contended :
    let ann : Tenant := ⟨"ann", none⟩
    let s : Service := { clock := ⟨⟨0⟩, default⟩, store := .ofCapacity 4 }
    let acquire (key : String) : Event := .act (.call ann (.acquire key ⟨10 ^ 9⟩) { fresh := "A" }) rfl
    let es : List Event := [acquire "job", acquire "job", acquire ""]
    let s' := (s.play es).2
    (Series.lockOperations "acquire" "contended").operation?.isSome = true ∧
      s.growth s' (.lockOperations "acquire" "acquired") = 1 ∧
      s.growth s' (.lockOperations "acquire" "contended") = 1 ∧
      s.growth s' (.lockOperations "acquire" "error") = 0 ∧
      s.growth s' (.durationCount "acquire") = 2 := by
  intro ann s acquire es s'
  obtain ⟨hcalls, hsums, -⟩ := metrics_law s es
  refine ⟨rfl, (hcalls _ rfl).trans ?_, (hcalls _ rfl).trans ?_, (hcalls _ rfl).trans ?_,
    (hsums "acquire").symm.trans ?_⟩
  · decide +kernel
  · decide +kernel
  · decide +kernel
  · decide +kernel

/-- Two messages for a caller that does not read, whose mailbox has room for one: the relay has
taken both, one of them is delivered, and none is lost. -/
theorem relay_messages_in_hand :
    let ann : Tenant := ⟨"ann", none⟩
    let s : Service := { gateway := { settings := { relayBuffer := 1 } }, clock := ⟨⟨0⟩, default⟩,
                         store := .ofCapacity 4 }
    let publish (text : String) : Event := .act (.call ann (.publish "news" text) {}) rfl
    let es : List Event := [.act (.call ann (.subscribe ["news"]) {}) rfl, publish "a", publish "b",
      .move 0, .move 0, .move 0]
    let s' := (s.play es).2
    (collect received? es s).length = 2 ∧ s.growth s' (.relayMessages "delivered") = 1 ∧
      s.growth s' (.relayMessages "dropped") = 0 := by
  decide +kernel

end Service

end Tenancy
