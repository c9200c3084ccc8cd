import Tenancy.Proofs.Service.Backlog
import Tenancy.Proofs.Service.Listener

/-!
# Closing the store

Closing the store cuts all subscriptions off, and nothing is published any more. What waits in a
subscription, in the hand of its relay and in the mailbox is still read, if the relay and its caller
get turns enough (`Listener.Suffices`, `Listener.Tracks.exhausted`), and behind the last message comes
the one error that tells of the close (`Listener.Tracks.told`). So a caller that reads to the end gets
all that was not lost before the close (`Service.close_loses_nothing`).
-/

namespace Tenancy

/-! ## Opening -/

/-- The turn opens a subscription for a relay to read: through the gateway, as a remote call, as a
feed, or together with a relay that is started by hand. -/
inductive Turn.Opens (s : Service) (t : Tenant) (names : List String) : Turn → Prop where
  | call {given : Supply}
    (h : (s.act (.call t (.subscribe names) given)).1 = .called (.ok .subscribed)) :
    Opens s t names (.act (.call t (.subscribe names) given))
  | rpc {caller : Rpc.Caller} {given : Supply} (hcaller : caller.Identifies (.ok t))
    (h : (s.act (.rpc caller (.subscribe ⟨names⟩) given)).1 = .replied (.ok .subscribe)) :
    Opens s t names (.act (.rpc caller (.subscribe ⟨names⟩) given))
  | feed {f : Feed} (h : (s.act (.openFeed t names)).1 = .fed (.ok f)) :
    Opens s t names (.act (.openFeed t names))
  | relay {how : RelayStart} (h : s.store.closed = false) :
    Opens s t names (.act (.relayChannels t names how))

/-- A relay that has just started on the feed. -/
def Relay.StartsOn (f : Feed) (r : Relay) : Prop :=
  ∃ mailbox cancelled turns, r = (start f mailbox cancelled turns).1 ∧ mailbox.items = [] ∧
    0 < mailbox.capacity

namespace Service

variable {l : Holdings} {s : Service} {t : Tenant} {names : List String}

/-- The service `s'` has a new subscription, and perhaps a relay on it. -/
structure Opened (s : Service) (t : Tenant) (names : List String) (s' : Service) : Prop where
  isOpen : s.store.closed = false
  hub_eq : s'.store.hub = (s.store.hub.subscribe (t.channels names)).2
  relays : ∀ u ∈ s'.relays,
    u ∈ s.relays ∨ u.relay.StartsOn ⟨t, t.channels names, s.store.hub.nextId⟩

theorem opened_call (hs : s.Steady l) {given : Supply}
    (h : (s.act (.call t (.subscribe names) given)).1 = .called (.ok .subscribed)) :
    s.Opened t names (s.act (.call t (.subscribe names) given)).2 := by
  obtain ⟨hc, hadmits⟩ := open_of_subscribed hs.inMemory h
  obtain ⟨-, halike⟩ := act_call_served (hs.sound hc).plain hadmits given
  refine ⟨hc, congrArg Store.hub halike.store, ?_⟩
  rw [halike.relays]
  exact forall_subscribed names given (fun u hu => .inl hu) (.inr
    ⟨_, _, _, rfl, rfl, Nat.lt_of_lt_of_le Nat.one_pos (Nat.le_max_right _ 1)⟩)

/-- While the store is open, a feed is opened. -/
theorem feed_of_open (hs : s.Steady l) (hc : s.store.closed = false) (t : Tenant)
    (names : List String) : ∃ store,
      Feed.subscribe t names s.store = (.ok ⟨t, t.channels names, s.store.hub.nextId⟩, store) ∧
      store.hub = (s.store.hub.subscribe (t.channels names)).2 := by
  rw [Feed.subscribe, Store.subscribe_of_available (hs.inMemory.available_of_open hc)]
  exact ⟨_, rfl, rfl⟩

/-- Only an opened stream is told as one. -/
theorem answer_of_replyTo {a : Except GatewayError Response}
    (h : Rpc.replyTo a = .ok .subscribe) : a = .ok .subscribed := by
  cases a with
  | error e => cases h
  | ok response => cases response <;> first | rfl | cases h

theorem opened_turn (hs : s.Steady l) {y : Turn} (h : y.Opens s t names) :
    s.Opened t names (s.turn y).2 := by
  cases h with
  | call hanswer => exact opened_call hs hanswer
  | @rpc caller given hcaller hanswer =>
    have hrpc := act_rpc_of_ok (s := s) hcaller (.subscribe ⟨names⟩) given
    rw [hrpc] at hanswer
    have hcalled : (s.act (.call t (.subscribe names) given)).1 = .called (.ok .subscribed) :=
      congrArg Answer.called (answer_of_replyTo (Answer.replied.inj hanswer))
    rw [turn, hrpc]
    exact opened_call hs hcalled
  | @feed f hanswer =>
    have hc : s.store.closed = false := by
      cases hc : s.store.closed with
      | false => rfl
      | true =>
        rw [act, Feed.subscribe, Store.subscribe, hs.inMemory.available_of_closed hc] at hanswer
        cases hanswer
    obtain ⟨store, hfeed, hhub⟩ := feed_of_open hs hc t names
    rw [turn, act, hfeed]
    exact ⟨hc, hhub, fun u hu => .inl hu⟩
  | @relay how hc =>
    obtain ⟨store, hfeed, hhub⟩ := feed_of_open hs hc t names
    rw [turn, act, hfeed]
    refine ⟨hc, hhub, fun u hu => ?_⟩
    rcases List.mem_append.1 hu with hold | hnew
    · exact .inl hold
    · rw [List.mem_singleton.1 hnew]
      exact .inr ⟨_, _, _, rfl, rfl, Nat.lt_of_lt_of_le Nat.one_pos (Nat.le_max_right _ 1)⟩

end Service

namespace Listener

variable {who : Listener} {texts : String → List String} {size : Nat} {b : String → Backlog}
  {got : List RelayItem} {l : Holdings} {s s' : Service} {y : Turn} {t t' : RelayTask}

/-- A new subscription has nothing of the backlogs, which are empty. -/
theorem waits_opened (hs : s.Steady l) (ho : s.Opened who.tenant who.names s')
    (hid : who.id = s.store.hub.nextId) (texts : String → List String) :
    who.Waits texts (fun _ => {}) s'.store.hub := by
  have hfind := Service.find?_nextId_subscribe (hs.sound ho.isOpen) (who.tenant.channels who.names)
  rw [← hid, ← ho.hub_eq] at hfind
  refine ⟨_, hfind, ?_, fun n _ => .opened _ _ _ _⟩
  exact (Hub.channels_opened ..).trans (who.tenant.distinct_channels who.names)

/-- A relay that has just started has an account of nothing. -/
theorem account_started {r : Relay} {store : Store} (hw : who.Waits texts (fun _ => {}) store.hub)
    {f : Feed} (hr : r.StartsOn f) :
    who.Account texts (fun _ => {}) [] store r ∧ 0 < r.mailbox.capacity := by
  obtain ⟨mailbox, cancelled, turns, rfl, hitems, hroom⟩ := hr
  refine ⟨.carries [] (.inl (.inl rfl)) ⟨nofun, fun n _ => rfl⟩ ?_ hw, hroom⟩
  have hnone : mailbox.items = [] := hitems
  simp [Relay.start, Relay.hand?, hnone]

theorem Tracks.opened (hs : s.Steady l) (ho : s.Opened who.tenant who.names s')
    (hid : who.id = s.store.hub.nextId) (texts : String → List String) (l' : Holdings) :
    who.Tracks texts s'.store.hub.bufferSize (fun _ => {}) [] l' s' := by
  have hwaits := waits_opened hs ho hid texts
  refine ⟨?_, rfl, fun n => ⟨.nil, .nil, Nat.zero_le _⟩, fun _ => ⟨rfl, fun _ => ⟨hwaits, fun n _ => rfl⟩⟩,
    fun t ht hserves _ => ?_⟩
  · rw [ho.hub_eq, hid]
    exact Nat.lt_succ_self _
  · rcases ho.relays t (Service.task?_mem ht).1 with hold | hnew
    · have hlt := hs.roster.source_lt hold hserves.source
      omega
    · exact account_started hwaits hnew

/-! ## After the close -/

section Closed

variable (hs : s.Steady l) (hc : s.store.closed = true) (hy : y.isRightful l s = true)

include hs hc hy

theorem closed_turn : (s.turn y).2.store.closed = true := by
  obtain ⟨touched, hchanges, -⟩ := Service.changes_turn hs hy
  exact (hchanges.follows hs.inMemory).closed_of hc

/-- Nothing goes out any more. -/
theorem message?_of_closed : y.message? (s.turn y).1 = none := by
  obtain ⟨touched, hchanges, -⟩ := Service.changes_turn hs hy
  cases hmessage : y.message? (s.turn y).1 with
  | none => rfl
  | some m =>
    rw [hmessage] at hchanges
    cases hc.symm.trans hchanges.open_of_message

theorem tick?_of_closed {name : String} {x : Tick} (h : who.tick? s y name = some x) :
    x = .take := by
  unfold tick? at h
  rw [message?_of_closed hs hc hy] at h
  exact eq_take_of_took? h

/-- Where the relay does not move, nothing happens to the backlogs. -/
theorem ticked_of_closed (hsame : who.hand? (s.turn y).2 = who.hand? s) :
    who.ticked size b s y = b := by
  rw [ticked_of_same hsame, message?_of_closed hs hc hy]
  rfl

end Closed

theorem ticks_of_closed {ys : List Turn} (name : String) : ∀ {l : Holdings} {s : Service},
    s.Steady l → s.store.closed = true → Service.isRightfulOver l s ys = true →
    ∀ x ∈ who.ticks name s ys, x = .take := by
  induction ys with
  | nil => exact fun _ _ _ => nofun
  | cons y ys ih =>
    intro l s hs hc hys x hx
    obtain ⟨hy, hys⟩ := Bool.and_eq_true_iff.1 hys
    rcases List.mem_append.1 hx with hfirst | hrest
    · exact tick?_of_closed hs hc hy (Option.mem_toList.1 hfirst)
    · exact ih (hs.turn hy) (closed_turn hs hc hy) hys x hrest

/-! ### The way to the end -/

/-- There is less to do for the listener, or its relay did not get anywhere: it was not its turn, or it
waits for its caller, who has something to read. -/
inductive Advances (who : Listener) (y : Turn) (load : Nat) (r : Relay) (load' : Nat) (r' : Relay) :
    Prop where
  | less (h : load' < load)
  | same (hload : load' = load) (hrelay : r' = r)
    (htake : y = .take who.handle → r.mailbox.items = [])
    (hmove : y = .move who.handle → load ≠ 0 → r.mailbox.items ≠ [])

namespace Tracks

variable (h : who.Tracks texts size b got l s) (hs : s.Steady l) (hc : s.store.closed = true)
  (ht : s.task? who.handle = some t) (hserves : t.relay.Serves who)

include h hs hc ht hserves

theorem advances_move (hi : t.relay.interruption? = none)
    (ht' : (s.turn (.move who.handle)).2.task? who.handle = some t') :
    who.Advances (.move who.handle) (who.load b t.relay) t.relay
      (who.load (who.ticked size b s (.move who.handle)) t'.relay) t'.relay := by
  obtain ⟨haccount, hroom⟩ := h.busy t ht hserves hi
  rcases Service.turn_move_cases ht with ⟨r, store, e, hmove, htask, hstore⟩ | ⟨hnone, htask, hstore⟩
  · cases htask.symm.trans ht'
    have hgoes := Relay.goes_of_move? hi hserves.source hmove
    have hless := haccount.load_lt hserves hs.inMemory hc hgoes size
    rw [ticked_move ht ht']
    exact .less hless
  · cases htask.symm.trans ht'
    have hsame : who.ticked size b s (.move who.handle) = b :=
      ticked_of_closed hs hc rfl ((hand?_of_some ht').trans (hand?_of_some ht).symm)
    rw [hsame]
    refine .same rfl rfl nofun fun _ hload => ?_
    rcases Relay.move?_cases hi hserves.source s.store s.clock.wall with
      ⟨-, hstuck⟩ | ⟨r, store, e, hsome, -⟩
    · exact haccount.items_of_stuck hs.inMemory hc hroom hstuck hload
    · cases hnone.symm.trans hsome

omit h hserves in
theorem advances_take (ht' : (s.turn (.take who.handle)).2.task? who.handle = some t')
    (hi : t'.relay.interruption? = none) :
    who.Advances (.take who.handle) (who.load b t.relay) t.relay
      (who.load (who.ticked size b s (.take who.handle)) t'.relay) t'.relay := by
  cases (Service.task?_take_own hs.roster ht).symm.trans ht'
  have hrelay := Service.relay_taken hi
  have hsame : who.ticked size b s (.take who.handle) = b :=
    ticked_of_closed hs hc rfl (by rw [hand?_of_some ht', hand?_of_some ht, hrelay]; rfl)
  rw [hsame, hrelay]
  cases hitems : t.relay.mailbox.items with
  | nil =>
    have hleft : ({ t.relay with mailbox := { t.relay.mailbox with items := [].tail } } : Relay) =
        t.relay := by
      rw [List.tail_nil, ← hitems]
    rw [hleft]
    exact .same rfl rfl (fun _ => hitems) nofun
  | cons x rest =>
    refine .less ?_
    simp only [load, Relay.weight, hitems, List.tail_cons, List.length_cons]
    omega

/-- Every turn brings the listener closer to the end, or leaves its relay where it stands. -/
theorem advances (hy : y.isRightful l s = true)
    (ht' : (s.turn y).2.task? who.handle = some t') (hi : t'.relay.interruption? = none) :
    who.Advances y (who.load b t.relay) t.relay
      (who.load (who.ticked size b s y) t'.relay) t'.relay := by
  by_cases hmove : y = .move who.handle
  · subst hmove
    have hi₀ := Service.uninterrupted_turn (y := .move who.handle) hs.roster rfl ht ht' hi
    exact h.advances_move hs hc ht hserves hi₀ ht'
  · by_cases htake : y = .take who.handle
    · subst htake
      exact advances_take hs hc ht ht' hi
    · obtain ⟨u, hu, hundisturbed⟩ := Service.undisturbed_turn hs.roster hy hmove htake ht
      cases hu.symm.trans ht'
      have hrelay := hundisturbed.relay hi
      have hsame : who.ticked size b s y = b :=
        ticked_of_closed hs hc hy (by rw [hand?_of_some ht', hand?_of_some ht, hrelay])
      rw [hsame, hrelay]
      exact .same rfl rfl (fun e => absurd e htake) fun e => absurd e hmove

end Tracks

/-- In each round the relay of the listener gets a turn, and then the listener. -/
def rounds (who : Listener) : Nat → List Turn
  | 0 => []
  | n + 1 => .move who.handle :: .take who.handle :: who.rounds n

/-- There are rounds enough in the schedule for all that is still to be done, or there will be after
one more turn of the listener. -/
def Suffices (who : Listener) (load : Nat) (r : Relay) (ys : List Turn) : Prop :=
  ∃ n, (who.rounds n).Sublist ys ∧ load ≤ n ∨
    (.take who.handle :: who.rounds n).Sublist ys ∧ load ≤ n + 1 ∧
      (load ≤ n ∨ r.mailbox.items ≠ [])

namespace Suffices

variable {load load' : Nat} {r r' : Relay} {ys : List Turn}

theorem eq_zero (h : who.Suffices load r []) : load = 0 := by
  obtain ⟨n, ⟨hrounds, hload⟩ | ⟨hrounds, -⟩⟩ := h
  · cases n with
    | zero => exact Nat.le_zero.1 hload
    | succ n => cases hrounds
  · cases hrounds

/-- A round is over when the listener had its turn; until then there is less to do, or there is an item
for it to read. -/
theorem advance (h : who.Suffices load r (y :: ys)) (ha : who.Advances y load r load' r') :
    who.Suffices load' r' ys := by
  have hle : load' ≤ load := by
    cases ha with
    | less h => exact Nat.le_of_lt h
    | same h => exact Nat.le_of_eq h
  obtain ⟨n, ⟨hrounds, hload⟩ | ⟨hrounds, hload, hitems⟩⟩ := h
  · cases n with
    | zero => exact ⟨0, .inl ⟨List.nil_sublist ys, hle.trans hload⟩⟩
    | succ n =>
      rcases List.cons_sublist_cons'.1 hrounds with hlater | ⟨rfl, hnext⟩
      · exact ⟨n + 1, .inl ⟨hlater, hle.trans hload⟩⟩
      · refine ⟨n, .inr ⟨hnext, hle.trans hload, ?_⟩⟩
        cases ha with
        | less h => exact .inl (by omega)
        | same hsame hrelay htake hmove =>
          rw [hsame, hrelay]
          by_cases hzero : load = 0
          · exact .inl (by omega)
          · exact .inr (hmove rfl hzero)
  · rcases List.cons_sublist_cons'.1 hrounds with hlater | ⟨rfl, hnext⟩
    · refine ⟨n, .inr ⟨hlater, hle.trans hload, ?_⟩⟩
      cases ha with
      | less h => exact .inl (by omega)
      | same hsame hrelay htake hmove =>
        rw [hsame, hrelay]
        exact hitems
    · refine ⟨n, .inl ⟨hnext, ?_⟩⟩
      cases ha with
      | less h => omega
      | same hsame hrelay htake hmove =>
        rw [hsame]
        exact hitems.resolve_right fun hne => hne (htake rfl)

end Suffices

/-- With rounds enough, all is done at the end. -/
theorem Tracks.exhausted {ys : List Turn} : ∀ {l : Holdings} {s : Service} {b : String → Backlog}
    {got : List RelayItem} {t : RelayTask}, who.Tracks texts size b got l s → s.Steady l →
    s.store.closed = true → s.task? who.handle = some t → t.relay.Serves who →
    Service.isRightfulOver l s ys = true →
    (∀ u, (runOf Service.turn s ys).2.task? who.handle = some u → u.relay.interruption? = none) →
    who.Suffices (who.load b t.relay) t.relay ys →
    ∃ u, (runOf Service.turn s ys).2.task? who.handle = some u ∧ u.relay.isEnded = true ∧
      u.relay.mailbox.items = [] := by
  induction ys with
  | nil =>
    intro l s b got t h hs hc ht hserves hys hfree hsuffices
    obtain ⟨-, hended, hitems⟩ := load_eq_zero_iff.1 hsuffices.eq_zero
    exact ⟨t, ht, hended, hitems⟩
  | cons y ys ih =>
    intro l s b got t h hs hc ht hserves hys hfree hsuffices
    obtain ⟨hy, hys⟩ := Bool.and_eq_true_iff.1 hys
    obtain ⟨t', ht', hsource, -⟩ := Service.interrupted_turn hs.roster hy ht
    have hi : t'.relay.interruption? = none := by
      obtain ⟨u, hu, -, hback⟩ := Service.task?_run (hs.turn hy) hys ht'
      exact hback (hfree u hu)
    have hadvances := h.advances hs hc ht hserves hy ht' hi
    have hnext := h.turn hs hy (.inl ⟨t, (Service.task?_mem ht).1, hserves.source⟩)
      fun n _ text htext => nomatch tick?_of_closed hs hc hy htext
    exact ih hnext (hs.turn hy) (closed_turn hs hc hy) ht' (serves_turn hs hy ht hserves ht' hi) hys
      hfree (hsuffices.advance hadvances)

/-! ## What a listener is told -/

/-- The listener gets the given texts of its channels, those of each channel in their order and under
the name that it asked for, and then one error, which tells of the close. -/
def HearsOut (who : Listener) (kept : String → List String) (got : List RelayItem) : Prop :=
  ∃ msgs : List RelayedMessage, got = msgs.map .message ++ [who.closing] ∧
    (∀ m ∈ msgs, m.channel ∈ who.names) ∧
    ∀ n ∈ who.names, (msgs.filter (·.channel = n)).map (·.payload) = kept n

theorem Told.kept {msgs : List RelayedMessage} (h : who.Told texts b msgs) {n : String}
    (hn : n ∈ who.names) (hsorted : (b n).Sorted size 0) (hnone : (b n).waiting = [])
    (hsent : (texts n).length = (b n).sent) :
    (msgs.filter (·.channel = n)).map (·.payload) = (b n).kept (texts n) := by
  have hread := h.read n hn
  rw [hsorted.map_read hnone hsent] at hread
  refine List.map_injective_iff.2 (Option.some_injective String) ?_
  rw [← hread, List.map_map]
  rfl

/-- A listener that has read all that a relay put into its mailbox, which has ended, was told of all
that was not lost, and of the close. -/
theorem Tracks.told (h : who.Tracks texts size b got l s) (ht : s.task? who.handle = some t)
    (hserves : t.relay.Serves who) (hi : t.relay.interruption? = none)
    (hended : t.relay.isEnded = true) (hitems : t.relay.mailbox.items = [])
    (hsent : ∀ n, (texts n).length = (b n).sent) :
    who.HearsOut (fun n => (b n).kept (texts n)) got ∧ t.relay.outcome? = some .sourceClosed := by
  obtain ⟨haccount, -⟩ := h.busy t ht hserves hi
  obtain ⟨hphase, hdone, msgs, htold, hgot⟩ := haccount.of_ended hended
  rw [hitems, List.append_nil] at hgot
  refine ⟨⟨msgs, hgot, htold.known, fun n hn => ?_⟩, ?_⟩
  · exact htold.kept hn (h.sorted n) (hdone n hn) (hsent n)
  · unfold Relay.outcome?
    rw [hphase]

end Listener

namespace Service

variable {l : Holdings} {s : Service} {handle : Nat} {t : RelayTask}

/-- A caller comes to the end where the relay has ended and the mailbox is empty. -/
theorem ended_of_pick (hs : Roster l s.relays s.store)
    (h : (s.pick handle).1 = .read [] true) :
    ∃ t, s.task? handle = some t ∧ t.relay.isEnded = true ∧ t.relay.mailbox.items = [] := by
  rw [pick_eq hs.handles_nodup] at h
  cases ht : s.task? handle with
  | none =>
    rw [ht] at h
    cases h
  | some t =>
    rw [ht] at h
    simp only [offered, Mailbox.take?] at h
    split at h
    · cases hitems : t.relay.mailbox.items with
      | nil =>
        rw [hitems] at h
        exact ⟨t, rfl, (Answer.read.inj h).2, hitems⟩
      | cons x rest =>
        rw [hitems] at h
        cases h
    · cases h

theorem pick_of_ended (hs : Roster l s.relays s.store) (ht : s.task? handle = some t)
    (hi : t.relay.interruption? = none) (hended : t.relay.isEnded = true)
    (hitems : t.relay.mailbox.items = []) : (s.pick handle).1 = .read [] true := by
  have hopen := (Relay.isOpen_of_not_interrupted hi).2
  rw [pick_eq hs.handles_nodup, ht]
  simp [offered, Mailbox.take?, hopen, hitems, hended]

theorem taken_append (handle : Nat) (xs ys : List Turn) (s : Service) :
    s.taken handle (xs ++ ys) = s.taken handle xs ++ (runOf turn s xs).2.taken handle ys := by
  induction xs generalizing s with
  | nil => rfl
  | cons x xs ih =>
    rw [List.cons_append, taken, taken, ih, List.append_assoc]
    rfl

end Service

namespace Listener.Tracks

variable {who : Listener} {texts : String → List String} {size : Nat} {b : String → Backlog}
  {got : List RelayItem} {l : Holdings} {s : Service} {t : RelayTask}

/-- Closing the store leaves the account as it is. -/
theorem close (h : who.Tracks texts size b got l s) (hs : s.Steady l)
    (ht : s.task? who.handle = some t) (hserves : t.relay.Serves who) :
    who.Tracks texts size b got l (s.turn (.act .closeStore)).2 := by
  have hnone : ∀ n, who.tick? s (.act .closeStore) n = none := fun n => took?_self (who.hand? s) n
  have hsame : who.ticked size b s (.act .closeStore) = b := by
    funext n
    rw [ticked, hnone n]
    rfl
  have hclosed := h.turn (y := .act .closeStore) hs rfl
    (.inl ⟨t, (Service.task?_mem ht).1, hserves.source⟩) fun n _ text htext => by
      cases (hnone n).symm.trans htext
  have hnothing : s.taken? who.handle (.act .closeStore) = none := rfl
  rw [hsame, hnothing, Option.toList_none, List.append_nil] at hclosed
  exact hclosed

/-- The account when the store is closed: it is over all turns since the subscription was opened. -/
theorem closing (hs : s.Steady l) {x : Turn} {between : List Turn}
    (hfair : Service.isRightfulOver l s (x :: between) = true)
    (hopens : x.Opens s who.tenant who.names) (hid : who.id = s.store.hub.nextId)
    (hdrain : ∀ limit, .act (.drain who.id limit) ∉ between)
    (ht : (runOf Service.turn s (x :: between)).2.task? who.handle = some t)
    (hserves : t.relay.Serves who) :
    let opened := (s.turn x).2
    let ticks (name : String) := who.ticks name opened between
    who.Tracks (fun name => Tick.payloads (ticks name)) s.store.hub.bufferSize
      (fun name => Backlog.after s.store.hub.bufferSize 0 (ticks name))
      (opened.taken who.handle between) (Service.ledgerOver l s (x :: between))
      ((runOf Service.turn s (x :: between)).2.turn (.act .closeStore)).2 := by
  intro opened ticks
  obtain ⟨hx, hbetween⟩ := Bool.and_eq_true_iff.1 hfair
  obtain ⟨touched, hchanges, -⟩ := Service.changes_turn hs hx
  have hsize : opened.store.hub.bufferSize = s.store.hub.bufferSize := by
    rw [Hub.bufferSize, Hub.bufferSize, hchanges.capacity_eq]
  have hopened := Tracks.opened hs (Service.opened_turn hs hopens) hid
    (fun name => Tick.payloads (ticks name)) (x.ledger l (s.turn x).1)
  rw [hsize] at hopened
  exact (hopened.run (hs.turn hx) hbetween (.inr hdrain) fun _ _ => rfl).close (hs.run hfair) ht
    hserves

section Closed

variable (h : who.Tracks texts size b got l s) (hs : s.Steady l) (hc : s.store.closed = true)
  (ht : s.task? who.handle = some t) (hserves : t.relay.Serves who) {later : List Turn}
  (hlater : Service.isRightfulOver l s later = true)
  (hfree : ∀ u, (runOf Service.turn s later).2.task? who.handle = some u →
    u.relay.interruption? = none)

include h hs hc ht hserves hlater hfree

/-- A listener that goes on reading comes to the end. -/
theorem ends (hrounds : (who.rounds (who.load b t.relay)).Sublist later) :
    ((runOf Service.turn s later).2.pick who.handle).1 = .read [] true := by
  obtain ⟨u, hu, hended, hitems⟩ := h.exhausted hs hc ht hserves hlater hfree
    ⟨_, .inl ⟨hrounds, Nat.le_refl _⟩⟩
  exact Service.pick_of_ended (hs.run hlater).roster hu (hfree u hu) hended hitems

/-- A listener that came to the end was told of all. -/
theorem told_of_pick (hsent : ∀ n, (texts n).length = (b n).sent)
    (hpick : ((runOf Service.turn s later).2.pick who.handle).1 = .read [] true) :
    who.HearsOut (fun n => (b n).kept (texts n)) (got ++ s.taken who.handle later) ∧
      ((runOf Service.turn s later).2.relay? who.handle).bind (·.outcome?) = some .sourceClosed := by
  have htakes : ∀ n, ∀ x ∈ who.ticks n s later, x = .take := fun n =>
    ticks_of_closed n hs hc hlater
  have hnothing : ∀ n, Tick.payloads (who.ticks n s later) = [] := fun n =>
    List.filterMap_eq_nil_iff.2 fun x hx => by
      rw [htakes n x hx]
      rfl
  have hrun := h.run hs hlater (.inl ⟨t, (Service.task?_mem ht).1, hserves.source⟩) fun n _ => by
    rw [hnothing n, ← hsent n, List.drop_length]
  obtain ⟨u, hu, hended, hitems⟩ := Service.ended_of_pick (hs.run hlater).roster hpick
  have hi := hfree u hu
  obtain ⟨hhears, houtcome⟩ := hrun.told hu (serves_run hs hlater ht hserves hu hi) hi hended hitems
    fun n => by
      rw [Backlog.sent_foldl, hnothing n]
      exact hsent n
  have hkept : (fun n => ((who.ticks n s later).foldl (Backlog.tick size 0) (b n)).kept (texts n)) =
      fun n => (b n).kept (texts n) := by
    funext n
    rw [Backlog.kept, Backlog.lost_foldl (htakes n)]
    rfl
  rw [hkept] at hhears
  refine ⟨hhears, ?_⟩
  rw [Service.relay?, hu]
  exact houtcome

end Closed

end Listener.Tracks

namespace Service

/-- Take a service with an empty store in memory and without relays. Some turn `x` opens a
subscription, of which nothing is taken by hand, and a relay reads it. Then the store is closed,
wherever messages are at that time. If nobody interrupts the relay, its caller comes to the end of the
stream after rounds enough; and once it is there it has got, of each channel, all that was published
since the subscription was opened and not lost before the close, in order and under the names that it
asked for, and then the one error that tells of the close. The relay has ended because its source was
closed. -/
theorem close_loses_nothing {start : Service} {capacity : Nat}
    (hstore : start.store = .ofCapacity capacity) (hrelays : start.relays = [])
    {before between : List Turn} {x : Turn} {who : Listener} {t : RelayTask}
    (hfair : isRightfulOver [] start (before ++ x :: between) = true)
    (hopens : x.Opens (runOf turn start before).2 who.tenant who.names)
    (hid : who.id = (runOf turn start before).2.store.hub.nextId)
    (hdrain : ∀ limit, .act (.drain who.id limit) ∉ between)
    (ht : (runOf turn start (before ++ x :: between)).2.task? who.handle = some t)
    (hserves : t.relay.Serves who) :
    let opened := (runOf turn start (before ++ [x])).2
    let ticks (name : String) := who.ticks name opened between
    let kept (name : String) := (Backlog.after (max capacity 1).nextPowerOfTwo 0 (ticks name)).kept
      (Tick.payloads (ticks name))
    let whole (later : List Turn) := before ++ x :: between ++ .act .closeStore :: later
    let last (later : List Turn) := (runOf turn start (whole later)).2
    let reads (later : List Turn) := isRightfulOver [] start (whole later) = true ∧
      ∀ u, (last later).task? who.handle = some u → u.relay.interruption? = none
    (∃ n, ∀ later, reads later → (who.rounds n).Sublist later →
      ((last later).pick who.handle).1 = .read [] true) ∧
    ∀ later, reads later → ((last later).pick who.handle).1 = .read [] true →
      who.HearsOut kept (opened.taken who.handle (between ++ .act .closeStore :: later)) ∧
      ((last later).relay? who.handle).bind (·.outcome?) = some .sourceClosed := by
  intro opened ticks kept whole last reads
  have hstart := Steady.start hstore hrelays
  rw [isRightfulOver_append, Bool.and_eq_true_iff] at hfair
  obtain ⟨hbefore, hafter⟩ := hfair
  rw [runOf_append] at ht
  let s := (runOf turn start before).2
  let l := ledgerOver (ledgerOver [] start before) s (x :: between)
  let closed := ((runOf turn s (x :: between)).2.turn (.act .closeStore)).2
  have hs : s.Steady (ledgerOver [] start before) := hstart.run hbefore
  have hsize : s.store.hub.bufferSize = (max capacity 1).nextPowerOfTwo := by
    rw [Hub.bufferSize, capacity_over hstart hbefore, hstore]
    rfl
  have hopened : opened = (s.turn x).2 := runOf_append
  have hclosing := Listener.Tracks.closing hs hafter hopens hid hdrain ht hserves
  rw [hsize, ← hopened] at hclosing
  have hclosed : closed.Steady l := (hs.run hafter).turn (x := .act .closeStore) rfl
  -- what follows the close is a schedule of its own
  have hparts : ∀ later, whole later = before ++ (x :: between ++ .act .closeStore :: later) :=
    fun later => List.append_assoc ..
  have hlast : ∀ later, last later = (runOf turn closed later).2 := by
    intro later
    show (runOf turn start (whole later)).2 = _
    rw [hparts, runOf_append, runOf_append]
    rfl
  have hlater : ∀ later, reads later → isRightfulOver l closed later = true ∧
      ∀ u, (runOf turn closed later).2.task? who.handle = some u → u.relay.interruption? = none := by
    rintro later ⟨hfair, hfree⟩
    rw [hlast] at hfree
    rw [hparts, isRightfulOver_append, isRightfulOver_append, Bool.and_eq_true_iff,
      Bool.and_eq_true_iff] at hfair
    exact ⟨(Bool.and_eq_true_iff.1 hfair.2.2).2, hfree⟩
  let backlogs (name : String) := Backlog.after (max capacity 1).nextPowerOfTwo 0 (ticks name)
  refine ⟨⟨who.load backlogs t.relay, fun later hreads hrounds => ?_⟩, fun later hreads hpick => ?_⟩
  · obtain ⟨hfair, hfree⟩ := hlater later hreads
    rw [hlast]
    exact hclosing.ends hclosed rfl ht hserves hfair hfree hrounds
  · obtain ⟨hfair, hfree⟩ := hlater later hreads
    rw [hlast] at hpick ⊢
    have hsent : ∀ n, (Tick.payloads (ticks n)).length = (backlogs n).sent := by
      intro n
      show _ = (Backlog.after _ 0 (ticks n)).sent
      rw [Backlog.after, Backlog.sent_foldl]
      exact (Nat.zero_add _).symm
    have htold := hclosing.told_of_pick hclosed rfl ht hserves hfair hfree hsent hpick
    have htaken : opened.taken who.handle (between ++ .act .closeStore :: later) =
        opened.taken who.handle between ++ closed.taken who.handle later := by
      rw [taken_append, hopened]
      rfl
    rw [htaken]
    exact htold

/-- A channel is asked for twice, and three texts go out on it where there is room for two. When the
store is closed one of them is in the mailbox, one in the hand of the relay, and that of the other
channel in its inbox. -/
theorem close_loses_nothing_backlog :
    let ann : Tenant := ⟨"ann:x", some "acme:y"⟩
    let start : Service :=
      { gateway := { settings := { relayBuffer := 1 } }, clock := ⟨⟨0⟩, default⟩,
        store := .ofCapacity 2 }
    let publish (name text : String) : Turn := .act (.call ann (.publish name text) {})
    let before : List Turn := [.act (.openFeed ⟨"bob", none⟩ ["a"]), publish "a" "0"]
    let x : Turn := .act (.call ann (.subscribe ["a", "b", "a"]) { handle := 1 })
    let between : List Turn :=
      [publish "a" "1", publish "a" "2", publish "a" "3", publish "b" "4", .move 1, .move 1, .move 1,
        .move 1]
    let who : Listener := ⟨ann, ["a", "b", "a"], 1, 1⟩
    let later : List Turn := who.rounds 6
    let opened := (runOf turn start (before ++ [x])).2
    isRightfulOver [] start (before ++ x :: between ++ .act .closeStore :: later) = true ∧
      who.closing = .failure ⟨.storeError, "Subscription to channel a,b was closed by the store"⟩ ∧
      ∃ msgs : List RelayedMessage,
        opened.taken 1 (between ++ .act .closeStore :: later) = msgs.map .message ++ [who.closing] ∧
        (msgs.filter (·.channel = "a")).map (·.payload) = ["2", "3"] ∧
        (msgs.filter (·.channel = "b")).map (·.payload) = ["4"] := by
  intro ann start publish before x between who later opened
  let last : Service :=
    (runOf turn start (before ++ x :: between ++ .act .closeStore :: later)).2
  have hstore : start.store = .ofCapacity 2 := rfl
  have hfair : isRightfulOver [] start (before ++ x :: between ++ .act .closeStore :: later) = true := by
    decide +kernel
  have hhalf : isRightfulOver [] start (before ++ x :: between) = true := by decide +kernel
  have hclosing : who.closing =
      .failure ⟨.storeError, "Subscription to channel a,b was closed by the store"⟩ := by
    decide +kernel
  have hopens : x.Opens (runOf turn start before).2 who.tenant who.names := by
    have hbefore : isRightfulOver [] start before = true := by decide +kernel
    have hs := (Steady.start hstore rfl).run hbefore
    have hadmits : (runOf turn start before).2.gateway.Admits ann (.subscribe ["a", "b", "a"]) := rfl
    exact .call (act_call_served (hs.sound (by decide +kernel)).plain hadmits _).1
  have hrelay : ((runOf turn start (before ++ x :: between)).2.task? 1).map
      (fun t => (t.relay.tenant, t.relay.channels, t.relay.source)) =
        some (who.tenant, who.tenant.channels who.names, some who.id) := by decide +kernel
  obtain ⟨t, ht, hserves⟩ := Option.map_eq_some_iff.1 hrelay
  obtain ⟨htenant, hrest⟩ := Prod.mk.inj hserves
  obtain ⟨hchannels, hsource⟩ := Prod.mk.inj hrest
  have hfree : ∀ u, last.task? 1 = some u → u.relay.interruption? = none := by
    intro u hu
    have hnone : (last.task? 1).map (·.relay.interruption?) = some none := by decide +kernel
    rw [hu] at hnone
    exact Option.some.inj hnone
  have hpick : (last.pick 1).1 = .read [] true := by
    have hreader : last.hasReader 1 = true := by decide +kernel
    have hnothing : (last.picked? 1).isNone = true := by decide +kernel
    have hended : (last.relay? 1).map (·.isEnded) = some true := by decide +kernel
    rw [pick, if_pos hreader, Option.isNone_iff_eq_none.1 hnothing, hended]
    rfl
  have hundrained : ∀ limit, .act (.drain who.id limit) ∉ between := by simp [between, publish]
  obtain ⟨-, htold⟩ := close_loses_nothing hstore rfl hhalf hopens (by decide +kernel) hundrained ht
    ⟨htenant, hchannels, hsource⟩
  obtain ⟨⟨msgs, htaken, -, hkept⟩, -⟩ := htold later ⟨hfair, hfree⟩ hpick
  refine ⟨hfair, hclosing, msgs, htaken, ?_, ?_⟩
  · rw [hkept "a" (by decide)]
    decide +kernel
  · rw [hkept "b" (by decide)]
    decide +kernel

end Service

end Tenancy
