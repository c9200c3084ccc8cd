import Tenancy.Proofs.Relay.Listener
import Tenancy.Proofs.Service.Change

/-!
# Listeners in a schedule

Every turn is a tick of the backlogs of a listener, or none: a message to one of its channels goes
out, or its relay takes one (`Listener.tick?`). `Listener.Tracks` is the account of what the listener
got, over all turns from the one that opened its subscription: until a relay reads it, all that was
published waits there, and from then on the account is that of the relay. Every turn keeps it
(`Tracks.turn`), and so does a run (`Tracks.run`).
-/

namespace Tenancy

namespace Listener

variable {who : Listener} {texts : String → List String} {b : String → Backlog}
  {got : List RelayItem} {size : Nat}

/-! ## Stores that change -/

section Changes

variable {s s' : Store} {r : Relay} {m? : Option Message} {touched : Option Nat}
  (hc : s.Changes m? touched s') (hm : s.InMemory) (hlt : who.id < s.hub.nextId)
  (hfree : touched ≠ some who.id) (hsize : s.hub.bufferSize = size)
  (hsorted : ∀ n, (b n).Sorted size 0)
  (htexts : ∀ n ∈ who.names, ∀ text, m?.bind (who.put? · n) = some (.put text) →
    (texts n)[(b n).sent]? = some text)

include hc hm hlt hfree hsize hsorted htexts

theorem Waits.changes (h : who.Waits texts b s.hub) :
    who.Waits texts (fun n => (b n).ticked size (m?.bind (who.put? · n))) s'.hub := by
  cases m? with
  | none => exact h.quiet (hc.find?_quiet hm hlt hfree)
  | some m =>
    refine h.heard (hm.tidy hc.open_of_message) hsize hsorted (fun n hn hname => ?_)
      (hc.find?_heard who.id)
    exact htexts n hn m.payload (if_pos hname)

omit hlt hfree hsize hsorted htexts in
/-- Nothing goes out any more where the store was closed. -/
theorem done_changes (hdone : ∀ n ∈ who.names, s.closed = true ∧ (b n).waiting = []) :
    ∀ n ∈ who.names, s'.closed = true ∧
      ((b n).ticked size (m?.bind (who.put? · n))).waiting = [] := by
  intro n hn
  obtain ⟨hclosed, hnone⟩ := hdone n hn
  refine ⟨(hc.follows hm).closed_of hclosed, ?_⟩
  cases m? with
  | none => exact hnone
  | some m => cases hclosed.symm.trans hc.open_of_message

theorem Account.changes (h : who.Account texts b got s r) :
    who.Account texts (fun n => (b n).ticked size (m?.bind (who.put? · n))) got s' r := by
  have hread : ∀ n ∈ who.names,
      ((b n).ticked size (m?.bind (who.put? · n))).read = (b n).read :=
    fun n _ => Backlog.read_ticked_put? who m? n
  cases h with
  | carries msgs hphase htold hitems hwaits =>
    exact .carries msgs hphase (htold.congr hread) hitems
      (hwaits.changes hc hm hlt hfree hsize hsorted htexts)
  | closes msgs hphase htold hitems hdone =>
    exact .closes msgs hphase (htold.congr hread) hitems
      (done_changes hc hm hdone)
  | closed msgs hphase htold hitems hdone =>
    exact .closed msgs hphase (htold.congr hread) hitems
      (done_changes hc hm hdone)

end Changes

/-! ## Ticks -/

/-- The message that the relay of the listener is about to hand over. -/
def hand? (who : Listener) (s : Service) : Option RelayedMessage :=
  (s.relay? who.handle).bind (·.hand?)

/-- What a turn is to the backlog of a channel: a message to it goes out, or the relay takes one. -/
def tick? (who : Listener) (s : Service) (y : Turn) (name : String) : Option Tick :=
  match y.message? (s.turn y).1 with
  | some m => who.put? m name
  | none => took? (who.hand? s) (who.hand? (s.turn y).2) name

/-- What the turns of a schedule are to the backlog of a channel. -/
def ticks (who : Listener) (name : String) : Service → List Turn → List Tick
  | _, [] => []
  | s, y :: ys => (who.tick? s y name).toList ++ ticks who name (s.turn y).2 ys

/-- The backlogs after a turn. -/
def ticked (who : Listener) (size : Nat) (b : String → Backlog) (s : Service) (y : Turn)
    (name : String) : Backlog :=
  (b name).ticked size (who.tick? s y name)

/-! ## The account over a schedule -/

/-- How what the listener got goes together with the backlogs of its channels, when callers hold `l`. -/
structure Tracks (who : Listener) (texts : String → List String) (size : Nat)
    (b : String → Backlog) (got : List RelayItem) (l : Holdings) (s : Service) : Prop where
  lt : who.id < s.store.hub.nextId
  size_eq : s.store.hub.bufferSize = size
  sorted : ∀ n, (b n).Sorted size 0
  /-- Nobody has read the subscription that a relay is still to start on. -/
  idle : s.task? who.handle = none → got = [] ∧ (who.id ∈ l.map (·.1) →
    who.Waits texts b s.store.hub ∧ ∀ n ∈ who.names, (b n).read = [])
  busy : ∀ t, s.task? who.handle = some t → t.relay.Serves who → t.relay.interruption? = none →
    who.Account texts b got s.store t.relay ∧ 0 < t.relay.mailbox.capacity

variable {l : Holdings} {s : Service} {y : Turn} {t t' : RelayTask}

theorem hand?_of_some (ht : s.task? who.handle = some t) : who.hand? s = t.relay.hand? := by
  rw [hand?, Service.relay?, ht]
  rfl

theorem hand?_of_none (ht : s.task? who.handle = none) : who.hand? s = none := by
  rw [hand?, Service.relay?, ht]
  rfl

/-- Where the relay does not move, only messages that go out count. -/
theorem tick?_of_same (h : who.hand? (s.turn y).2 = who.hand? s) (name : String) :
    who.tick? s y name = (y.message? (s.turn y).1).bind (who.put? · name) := by
  unfold tick?
  cases y.message? (s.turn y).1 with
  | some m => rfl
  | none =>
    simp only [h]
    exact took?_self _ name

theorem ticked_of_same (h : who.hand? (s.turn y).2 = who.hand? s) :
    who.ticked size b s y =
      fun n => (b n).ticked size ((y.message? (s.turn y).1).bind (who.put? · n)) :=
  funext fun n => congrArg ((b n).ticked size) (tick?_of_same h n)

/-- Where the relay moves, it may take a message. -/
theorem ticked_move (ht : s.task? who.handle = some t)
    (ht' : (s.turn (.move who.handle)).2.task? who.handle = some t') :
    who.ticked size b s (.move who.handle) = fun n =>
      (b n).ticked size (took? t.relay.hand? t'.relay.hand? n) := by
  funext n
  rw [← hand?_of_some ht, ← hand?_of_some ht']
  rfl

/-- A relay goes on to serve the listener, unless it is interrupted. -/
theorem serves_turn (hs : s.Steady l) (hy : y.isRightful l s = true)
    (ht : s.task? who.handle = some t) (hserves : t.relay.Serves who)
    (ht' : (s.turn y).2.task? who.handle = some t') (hi : t'.relay.interruption? = none) :
    t'.relay.Serves who := by
  by_cases hmove : y = .move who.handle
  · subst hmove
    rcases Service.turn_move_cases ht with ⟨r, store, e, hmove, htask, -⟩ | ⟨-, htask, -⟩
    · cases htask.symm.trans ht'
      exact hserves.move (Relay.moves_of_move? hmove)
    · cases htask.symm.trans ht'
      exact hserves
  · by_cases htake : y = .take who.handle
    · subst htake
      cases (Service.task?_take_own hs.roster ht).symm.trans ht'
      rw [Service.relay_taken hi]
      exact ⟨hserves.tenant, hserves.channels, hserves.source⟩
    · obtain ⟨u, hu, hundisturbed⟩ := Service.undisturbed_turn hs.roster hy hmove htake ht
      cases hu.symm.trans ht'
      rw [hundisturbed.relay hi]
      exact hserves

theorem serves_run {ys : List Turn} : ∀ {l : Holdings} {s : Service} {t : RelayTask}, s.Steady l →
    Service.isRightfulOver l s ys = true → s.task? who.handle = some t → t.relay.Serves who →
    ∀ {u : RelayTask}, (runOf Service.turn s ys).2.task? who.handle = some u →
      u.relay.interruption? = none → u.relay.Serves who := by
  induction ys with
  | nil =>
    intro l s t hs hys ht hserves u hu hi
    cases ht.symm.trans hu
    exact hserves
  | cons y ys ih =>
    intro l s t hs hys ht hserves u hu hi
    obtain ⟨hy, hys⟩ := Bool.and_eq_true_iff.1 hys
    obtain ⟨t', ht', -⟩ := Service.interrupted_turn hs.roster hy ht
    have hi' : t'.relay.interruption? = none := by
      obtain ⟨v, hv, -, hback⟩ := Service.task?_run (hs.turn hy) hys ht'
      cases hv.symm.trans hu
      exact hback hi
    exact ih (hs.turn hy) hys ht' (serves_turn hs hy ht hserves ht' hi') hu hi

namespace Tracks

section Turn

variable (h : who.Tracks texts size b got l s) (hs : s.Steady l) (hy : y.isRightful l s = true)
  (hdrain : (∃ t ∈ s.relays, t.relay.source = some who.id) ∨
    ∀ limit, y ≠ .act (.drain who.id limit))
  (htexts : ∀ n ∈ who.names, ∀ text, who.tick? s y n = some (.put text) →
    (texts n)[(b n).sent]? = some text)

include h hs hy

include htexts in
/-- A turn in which the relay does not move, and its subscription is not touched. -/
theorem account (hsame : who.hand? (s.turn y).2 = who.hand? s) (hfree : ¬ y.Touches s who.id)
    {r : Relay} (ha : who.Account texts b got s.store r) :
    who.Account texts (who.ticked size b s y) got (s.turn y).2.store r := by
  obtain ⟨touched, hc, htouched⟩ := Service.changes_turn hs hy
  rw [ticked_of_same hsame]
  refine ha.changes hc hs.inMemory h.lt (fun e => hfree (htouched _ e)) h.size_eq h.sorted
    fun n hn text htext => htexts n hn text ?_
  rw [tick?_of_same hsame]
  exact htext

include htexts in
theorem waits (hsame : who.hand? (s.turn y).2 = who.hand? s) (hfree : ¬ y.Touches s who.id)
    (hw : who.Waits texts b s.store.hub) :
    who.Waits texts (who.ticked size b s y) (s.turn y).2.store.hub := by
  obtain ⟨touched, hc, htouched⟩ := Service.changes_turn hs hy
  rw [ticked_of_same hsame]
  refine hw.changes hc hs.inMemory h.lt (fun e => hfree (htouched _ e)) h.size_eq h.sorted
    fun n hn text htext => htexts n hn text ?_
  rw [tick?_of_same hsame]
  exact htext

include hdrain htexts in
/-- As long as no relay has started, all waits. -/
theorem idle_turn (hnone : (s.turn y).2.task? who.handle = none) :
    got ++ (s.taken? who.handle y).toList = [] ∧
      (who.id ∈ (y.ledger l (s.turn y).1).map (·.1) →
        who.Waits texts (who.ticked size b s y) (s.turn y).2.store.hub ∧
          ∀ n ∈ who.names, (who.ticked size b s y n).read = []) := by
  have hbefore : s.task? who.handle = none := by
    cases ht : s.task? who.handle with
    | none => rfl
    | some t =>
      obtain ⟨t', ht', -⟩ := Service.interrupted_turn hs.roster hy ht
      cases ht'.symm.trans hnone
  have hsame : who.hand? (s.turn y).2 = who.hand? s :=
    (hand?_of_none hnone).trans (hand?_of_none hbefore).symm
  obtain ⟨hgot, hidle⟩ := h.idle hbefore
  refine ⟨?_, fun hid => ?_⟩
  · rw [hgot, Service.taken?_of_none hbefore]
    rfl
  · obtain ⟨hheld, -⟩ := Service.held_turn hs.roster hy h.lt hid
    obtain ⟨hwaits, hread⟩ := hidle hheld
    have hundrained : ∀ limit, y ≠ .act (.drain who.id limit) := by
      rcases hdrain with ⟨t, ht, hsource⟩ | hundrained
      · exact absurd hsource (Service.not_source_of_held hs.roster hheld ht)
      · exact hundrained
    have hfree := Service.not_touches_of_held hs.roster hy h.lt hid hundrained
    refine ⟨h.waits hs hy htexts hsame hfree hwaits, fun n hn => ?_⟩
    rw [ticked_of_same hsame]
    exact (Backlog.read_ticked_put? who _ n).trans (hread n hn)

include htexts in
/-- A relay that starts finds all that waits. -/
theorem starts (ht : s.task? who.handle = none) (ht' : (s.turn y).2.task? who.handle = some t')
    (hserves : t'.relay.Serves who) :
    who.Account texts (who.ticked size b s y) (got ++ (s.taken? who.handle y).toList)
      (s.turn y).2.store t'.relay ∧ 0 < t'.relay.mailbox.capacity := by
  obtain ⟨feed, how, rfl, hfeed, hrelay⟩ :=
    Service.started_turn hs.roster hy ht ht' hserves.source h.lt
  have hheld : who.id ∈ l.map (·.1) := by
    obtain ⟨hmem, -⟩ := Bool.and_eq_true_iff.1 hy
    exact List.mem_map.2 ⟨_, List.contains_iff_mem.1 hmem, hfeed⟩
  obtain ⟨hgot, hidle⟩ := h.idle ht
  obtain ⟨hwaits, hread⟩ := hidle hheld
  have hhand : t'.relay.hand? = none := by
    rw [hrelay]
    rfl
  have hsame : who.hand? (s.turn (.act (.relayFeed feed how))).2 = who.hand? s :=
    ((hand?_of_some ht').trans hhand).trans (hand?_of_none ht).symm
  have hwaits' := h.waits hs hy htexts hsame not_false hwaits
  have hread' : ∀ n ∈ who.names,
      (who.ticked size b s (.act (.relayFeed feed how)) n).read = [] := by
    intro n hn
    rw [ticked_of_same hsame]
    exact (Backlog.read_ticked_put? who _ n).trans (hread n hn)
  rw [hgot, Service.taken?_of_none ht]
  refine ⟨.carries [] ?_ ⟨nofun, fun n hn => ?_⟩ ?_ hwaits', ?_⟩
  · rw [hrelay]
    exact .inl (.inl rfl)
  · rw [hread' n hn]
    rfl
  · rw [hhand, hrelay]
    rfl
  · rw [hrelay]
    exact Nat.lt_of_lt_of_le Nat.one_pos (Nat.le_max_right how.capacity 1)

omit hy in
theorem moves (ht : s.task? who.handle = some t)
    (ht' : (s.turn (.move who.handle)).2.task? who.handle = some t')
    (hserves : t'.relay.Serves who) (hi : t'.relay.interruption? = none) :
    who.Account texts (who.ticked size b s (.move who.handle)) got
      (s.turn (.move who.handle)).2.store t'.relay ∧ 0 < t'.relay.mailbox.capacity := by
  have hi₀ := Service.uninterrupted_turn (y := .move who.handle) hs.roster rfl ht ht' hi
  rw [ticked_move ht ht']
  rcases Service.turn_move_cases ht with ⟨r, store, e, hmove, htask, hstore⟩ | ⟨-, htask, hstore⟩
  · cases htask.symm.trans ht'
    have hmoves := Relay.moves_of_move? hmove
    have hserves₀ : t.relay.Serves who :=
      ⟨hmoves.tenant_eq.symm.trans hserves.tenant, hmoves.channels_eq.symm.trans hserves.channels,
        hmoves.source_eq.symm.trans hserves.source⟩
    obtain ⟨haccount, hroom⟩ := h.busy t ht hserves₀ hi₀
    have hgoes := Relay.goes_of_move? hi₀ hserves₀.source hmove
    rw [hstore]
    exact ⟨haccount.goes hserves₀ hs.inMemory hgoes size, hgoes.capacity_eq ▸ hroom⟩
  · cases htask.symm.trans ht'
    rw [hstore]
    simp only [took?_self]
    exact h.busy t ht hserves hi

omit hy in
/-- The caller takes the first item of the mailbox, if there is any. -/
theorem takes (ht : s.task? who.handle = some t)
    (ht' : (s.turn (.take who.handle)).2.task? who.handle = some t')
    (hserves : t'.relay.Serves who) (hi : t'.relay.interruption? = none) :
    who.Account texts (who.ticked size b s (.take who.handle))
      (got ++ (s.taken? who.handle (.take who.handle)).toList)
      (s.turn (.take who.handle)).2.store t'.relay ∧ 0 < t'.relay.mailbox.capacity := by
  cases (Service.task?_take_own hs.roster ht).symm.trans ht'
  have hopen := Service.isOpen_of_taken hi
  have hrelay := Service.relay_taken hi
  have hhand : who.hand? (s.turn (.take who.handle)).2 = who.hand? s := by
    rw [hand?_of_some ht, hand?_of_some ht', hrelay]
    rfl
  have hstore : (s.turn (.take who.handle)).2.store = s.store := by
    rw [Service.turn, Service.pick_eq hs.roster.handles_nodup]
  rw [hrelay] at hserves hi ⊢
  obtain ⟨haccount, hroom⟩ := h.busy t ht ⟨hserves.tenant, hserves.channels, hserves.source⟩ hi
  rw [Service.taken?_take ht, if_pos hopen, ticked_of_same hhand, hstore]
  refine ⟨haccount.congr rfl rfl ?_, hroom⟩
  rw [List.append_assoc]
  cases t.relay.mailbox.items <;> rfl

include htexts in
/-- A turn of others leaves the relay alone, or interrupts it. -/
theorem stays (hmove : y ≠ .move who.handle) (htake : y ≠ .take who.handle)
    (ht : s.task? who.handle = some t) (ht' : (s.turn y).2.task? who.handle = some t')
    (hserves : t'.relay.Serves who) (hi : t'.relay.interruption? = none) :
    who.Account texts (who.ticked size b s y) (got ++ (s.taken? who.handle y).toList)
      (s.turn y).2.store t'.relay ∧ 0 < t'.relay.mailbox.capacity := by
  obtain ⟨u, hu, hundisturbed⟩ := Service.undisturbed_turn hs.roster hy hmove htake ht
  cases hu.symm.trans ht'
  have hsame := hundisturbed.relay hi
  rw [hsame] at hserves hi ⊢
  obtain ⟨haccount, hroom⟩ := h.busy t ht hserves hi
  have hhand : who.hand? (s.turn y).2 = who.hand? s := by
    rw [hand?_of_some ht, hand?_of_some ht', hsame]
  have hfree := Service.not_touches_of_source hs.roster hy hmove ht hserves.source
  rw [Service.taken?_of_ne htake, Option.toList_none, List.append_nil]
  exact ⟨h.account hs hy htexts hhand hfree haccount, hroom⟩

include hdrain htexts in
/-- Every turn keeps the account. -/
theorem turn :
    who.Tracks texts size (who.ticked size b s y) (got ++ (s.taken? who.handle y).toList)
      (y.ledger l (s.turn y).1) (s.turn y).2 := by
  obtain ⟨touched, hc, -⟩ := Service.changes_turn hs hy
  refine ⟨Nat.lt_of_lt_of_le h.lt (hc.follows hs.inMemory).nextId_le, ?_, fun n => ?_,
    h.idle_turn hs hy hdrain htexts, fun t' ht' hserves hi => ?_⟩
  · rw [← h.size_eq, Hub.bufferSize, Hub.bufferSize, hc.capacity_eq]
  · exact (h.sorted n).ticked (h.size_eq ▸ s.store.hub.bufferSize_pos) _
  · cases ht : s.task? who.handle with
    | none => exact h.starts hs hy htexts ht ht' hserves
    | some t =>
      by_cases hmove : y = .move who.handle
      · subst hmove
        have hnothing : s.taken? who.handle (.move who.handle) = none := rfl
        rw [hnothing, Option.toList_none, List.append_nil]
        exact h.moves hs ht ht' hserves hi
      · by_cases htake : y = .take who.handle
        · subst htake
          exact h.takes hs ht ht' hserves hi
        · exact h.stays hs hy htexts hmove htake ht ht' hserves hi

end Turn

/-- A run of turns keeps the account. -/
theorem run {ys : List Turn} : ∀ {l : Holdings} {s : Service} {b : String → Backlog}
    {got : List RelayItem}, who.Tracks texts size b got l s → s.Steady l →
    Service.isRightfulOver l s ys = true →
    ((∃ t ∈ s.relays, t.relay.source = some who.id) ∨
      ∀ limit, .act (.drain who.id limit) ∉ ys) →
    (∀ n ∈ who.names, (texts n).drop (b n).sent = Tick.payloads (who.ticks n s ys)) →
    who.Tracks texts size (fun n => (who.ticks n s ys).foldl (Backlog.tick size 0) (b n))
      (got ++ s.taken who.handle ys) (Service.ledgerOver l s ys) (runOf Service.turn s ys).2 := by
  induction ys with
  | nil =>
    intro l s b got h hs hys hdrain htexts
    rw [Service.taken, List.append_nil]
    exact h
  | cons y ys ih =>
    intro l s b got h hs hys hdrain htexts
    obtain ⟨hy, hys⟩ := Bool.and_eq_true_iff.1 hys
    have hfirst : ∀ n ∈ who.names, ∀ text, who.tick? s y n = some (.put text) →
        (texts n)[(b n).sent]? = some text := by
      intro n hn text htext
      rw [← List.head?_drop, htexts n hn, ticks, htext]
      rfl
    have hrest : ∀ n ∈ who.names,
        (texts n).drop (who.ticked size b s y n).sent = Tick.payloads (who.ticks n (s.turn y).2 ys) :=
      fun n hn => (b n).drop_sent_ticked (htexts n hn)
    have hdrain' : (∃ t ∈ (s.turn y).2.relays, t.relay.source = some who.id) ∨
        ∀ limit, .act (.drain who.id limit) ∉ ys := by
      rcases hdrain with ⟨t, ht, hsource⟩ | hundrained
      · obtain ⟨t', ht', hsource', -⟩ :=
          Service.interrupted_turn hs.roster hy (Service.task?_of_mem hs.roster.handles_nodup ht)
        exact .inl ⟨t', (Service.task?_mem ht').1, hsource'.trans hsource⟩
      · exact .inr fun limit hmem => hundrained limit (List.mem_cons_of_mem _ hmem)
    have hnext := h.turn hs hy (hdrain.imp_right fun hd limit heq =>
      hd limit (heq ▸ List.mem_cons_self)) hfirst
    have hrun := ih hnext (hs.turn hy) hys hdrain' hrest
    rw [List.append_assoc] at hrun
    have hbacklogs : (fun n => (who.ticks n s (y :: ys)).foldl (Backlog.tick size 0) (b n)) =
        fun n => (who.ticks n (s.turn y).2 ys).foldl (Backlog.tick size 0)
          (who.ticked size b s y n) := by
      funext n
      rw [ticks, List.foldl_append, ← Backlog.ticked_eq_foldl]
      rfl
    rw [hbacklogs]
    exact hrun

end Tracks

end Listener

end Tenancy
