import Mathlib.Data.List.Forall2
import Tenancy.Relay.Move

/-!
# Relays between a source and a caller

A pipe is a relay with what it stands between: a source whose items arrive one by one, and a caller
who reads, leaves and cancels when it likes. A run is a list of `PipeEvent`s, in any order; a move
of the relay is one of them, and it is the move that relays make over a store
(`Relay.moveOn?_of_move?`).

`Account` is the invariant: where the relay stands says what it took from the source and what it put
into the mailbox. Every event keeps it (`Pipe.Sound.step`). So the mailbox gets a prefix of the
messages, in order, then at most one error, and nothing after a cancel
(`Pipe.forwards_prefix_then_error`).
-/

namespace Tenancy

/-! ## Sources -/

/-- How a source ends. -/
inductive SourceEnd where
  | failed (e : StoreError)
  | closed
  deriving DecidableEq, Repr

namespace SourceEnd

def arrival : SourceEnd → Arrival
  | failed e => .failure e
  | closed => .ended

/-- The outcome of a relay whose source ended so. -/
def outcome : SourceEnd → RelayOutcome
  | failed e => .failed e
  | closed => .sourceClosed

/-- What the caller of a relay on a feed is told of the end: an error of the store as it is, and
otherwise the logical names of the channels. -/
def error (f : Feed) : SourceEnd → StoreError
  | failed e => e
  | closed => .subscriptionClosed (",".intercalate (f.channels.map f.tenant.deisolate))

end SourceEnd

/-- What a store delivers to one relay: messages, without end or up to an end. -/
structure Source where
  message : Nat → Message
  /-- After how many messages the source ends, and how. -/
  stop : Option (Nat × SourceEnd) := none

namespace Source

def item (src : Source) (i : Nat) : Arrival :=
  match src.stop with
  | some (n, e) => if i < n then .message (src.message i) else e.arrival
  | none => .message (src.message i)

/-- The source does not end before it delivered `n` messages. -/
def Has (src : Source) (n : Nat) : Prop := ∀ k e, src.stop = some (k, e) → n ≤ k

/-- The first `n` messages. -/
def first (src : Source) (n : Nat) : List Message := (List.range n).map src.message

end Source

/-- The item is the message as the tenant is told of it: under the logical name of its channel and with
its own payload. -/
def Message.ToldAs (t : Tenant) (m : Message) (x : RelayItem) : Prop :=
  ∃ now, x = .message ⟨t.deisolate m.channel, m.payload, now⟩

/-- The items are what the tenant is told of the first `n` messages. -/
structure Source.Forwarded (src : Source) (t : Tenant) (n : Nat) (xs : List RelayItem) : Prop where
  has : src.Has n
  told : List.Forall₂ (Message.ToldAs t) (src.first n) xs

namespace Relay

/-- The move of a relay whose source offers `a`. -/
def moveOn? (r : Relay) (a : Arrival) (now : Timestamp) : Option (Relay × Effects) :=
  match r.phase with
  | .asking | .waiting => some (r.heed.getD (r.accept a now))
  | .sending _ | .reporting .. => r.handOver
  | .ended _ => none

/-- A move over a store is a move on what the store offers. -/
theorem moveOn?_of_move? {r r' : Relay} {s s' : Store} {now : Timestamp} {e : Effects} {id : Nat}
    (hid : r.source = some id) (h : r.move? s now = some (r', s', e)) :
    ∃ e', r.moveOn? (s.receive id r.turn).1 now = some (r', e') := by
  have hask : r.ask? s now = some (r', s', e) →
      ∃ e', some (r.heed.getD (r.accept (s.receive id r.turn).1 now)) = some (r', e') := by
    intro h
    unfold ask? at h
    rw [hid] at h
    cases hheed : r.heed with
    | some x =>
      rw [hheed] at h
      cases h
      exact ⟨_, rfl⟩
    | none =>
      simp only [hheed] at h
      split at h
      · cases h
      · cases h
        exact ⟨_, rfl⟩
  have hgive : r.give? s = some (r', s', e) → ∃ e', r.handOver = some (r', e') := by
    intro h
    obtain ⟨x, hx, heq⟩ := Option.map_eq_some_iff.1 h
    cases heq
    exact ⟨_, hx⟩
  unfold move? at h
  unfold moveOn?
  cases hp : r.phase with
  | asking => exact hask (by rwa [hp] at h)
  | waiting => exact hask (by rwa [hp] at h)
  | sending m => exact hgive (by rwa [hp] at h)
  | reporting err o => exact hgive (by rwa [hp] at h)
  | ended o => rw [hp] at h; cases h

/-- The relay wants the next message. -/
def Asks (r : Relay) : Prop := r.phase = .asking ∨ r.phase = .waiting

/-- The relay wants the next message, or has one to hand over. -/
def Forwards (r : Relay) : Prop := r.Asks ∨ ∃ m, r.phase = .sending m

instance (r : Relay) : Decidable r.Asks := inferInstanceAs (Decidable (_ ∨ _))

end Relay

/-! ## Pipes -/

structure Pipe where
  relay : Relay
  /-- How many items of the source have arrived. -/
  arrived : Nat := 0
  /-- How many of them the relay has taken. -/
  taken : Nat := 0
  /-- What the caller has read. -/
  received : List RelayItem := []
  /-- What was in the mailbox when the caller left. -/
  lost : List RelayItem := []

/-- What can happen to a pipe. -/
inductive PipeEvent where
  /-- The next item of the source arrives. -/
  | arrive
  | read
  | leave
  | cancel
  /-- The relay gets its turn. -/
  | move (now : Timestamp)

namespace Pipe

/-- A relay that starts on a feed. -/
def start (f : Feed) (capacity : Nat) (turns : List Nat) : Pipe :=
  { relay := (Relay.start f { capacity } false turns).1 }

/-- What the source offers next. -/
def offer (src : Source) (p : Pipe) : Arrival :=
  if p.taken < p.arrived then src.item p.taken else .nothing

/-- Whether a move of the relay takes an item. -/
def takes (p : Pipe) : Bool :=
  p.relay.Asks && p.relay.interruption?.isNone && p.taken < p.arrived

def step (src : Source) (p : Pipe) : PipeEvent → Pipe
  | .arrive => { p with arrived := p.arrived + 1 }
  | .read =>
    match p.relay.mailbox.take? with
    | some (x, mailbox) =>
      { p with relay := { p.relay with mailbox }, received := p.received ++ [x] }
    | none => p
  | .leave =>
    { p with
      relay := { p.relay with mailbox := p.relay.mailbox.drop }
      lost := p.lost ++ p.relay.mailbox.items }
  | .cancel => { p with relay := { p.relay with cancelled := true } }
  | .move now =>
    match p.relay.moveOn? (p.offer src) now with
    | some (relay, _) => { p with relay, taken := if p.takes then p.taken + 1 else p.taken }
    | none => p

def run (src : Source) (p : Pipe) (es : List PipeEvent) : Pipe := es.foldl (step src) p

/-- All that was ever put into the mailbox: what was read, what was lost and what is still there. -/
def put (p : Pipe) : List RelayItem := p.received ++ p.lost ++ p.relay.mailbox.items

/-! ## Moves -/

section Moves

variable {src : Source} {p : Pipe} {o : RelayOutcome} {now : Timestamp}

theorem step_interrupted (hp : p.relay.Forwards) (ho : p.relay.interruption? = some o) :
    p.step src (.move now) = { p with relay := { p.relay with phase := .ended o } } := by
  have htakes : p.takes = false := by simp [takes, ho]
  have hmove : ∃ e, p.relay.moveOn? (p.offer src) now =
      some ({ p.relay with phase := .ended o }, e) := by
    unfold Relay.moveOn?
    rcases hp with (hp | hp) | ⟨m, hp⟩
    · exact ⟨_, by rw [hp, Relay.heed, ho]; rfl⟩
    · exact ⟨_, by rw [hp, Relay.heed, ho]; rfl⟩
    · exact ⟨_, by rw [hp, Relay.handOver, hp]; simp only [ho]; rfl⟩
  obtain ⟨e, he⟩ := hmove
  simp [step, he, htakes]

theorem step_asks (hp : p.relay.Asks) (hi : p.relay.interruption? = none) :
    p.step src (.move now) =
      { p with
        relay := (p.relay.accept (p.offer src) now).1
        taken := if p.taken < p.arrived then p.taken + 1 else p.taken } := by
  have htakes : p.takes = decide (p.taken < p.arrived) := by simp [takes, hp, hi]
  have hmove : p.relay.moveOn? (p.offer src) now = some (p.relay.accept (p.offer src) now) := by
    unfold Relay.moveOn?
    rcases hp with hp | hp <;> rw [hp, Relay.heed, hi] <;> rfl
  simp [step, hmove, htakes]

theorem step_of_handOver (hp : ¬ p.relay.Asks) (h : p.relay.isEnded = false) :
    p.step src (.move now) = { p with relay := (p.relay.handOver.map (·.1)).getD p.relay } := by
  have htakes : p.takes = false := by simp [takes, hp]
  have hmove : p.relay.moveOn? (p.offer src) now = p.relay.handOver := by
    unfold Relay.moveOn?
    unfold Relay.Asks at hp
    unfold Relay.isEnded at h
    cases hphase : p.relay.phase <;> simp_all
  simp only [step, hmove, htakes]
  cases p.relay.handOver <;> rfl

/-- A relay that cannot tell its caller of an error ends all the same, and as it would have. -/
theorem step_giveUp {e : StoreError} {o' : RelayOutcome} (hp : p.relay.phase = .reporting e o)
    (ho : p.relay.interruption? = some o') :
    p.step src (.move now) = { p with relay := { p.relay with phase := .ended o } } := by
  have hover : p.relay.handOver.map (·.1) = some { p.relay with phase := .ended o } := by
    simp [Relay.handOver, hp, ho, Relay.finish]
  rw [step_of_handOver (by simp [Relay.Asks, hp]) (by simp [Relay.isEnded, hp]), hover]
  rfl

theorem step_report {e : StoreError} (hp : p.relay.phase = .reporting e o)
    (hi : p.relay.interruption? = none) (hroom : p.relay.mailbox.hasRoom = true) :
    p.step src (.move now) =
      { p with
        relay := { p.relay with
          mailbox := p.relay.mailbox.put (.failure (.ofStore e)), phase := .ended o } } := by
  have hover : p.relay.handOver.map (·.1) =
      some { p.relay with
        mailbox := p.relay.mailbox.put (.failure (.ofStore e)), phase := .ended o } := by
    simp [Relay.handOver, hp, hi, hroom, Relay.finish]
  rw [step_of_handOver (by simp [Relay.Asks, hp]) (by simp [Relay.isEnded, hp]), hover]
  rfl

theorem step_ended (hp : p.relay.phase = .ended o) : p.step src (.move now) = p := by
  simp [step, Relay.moveOn?, hp]

/-- A caller reads the first item, or finds nothing. -/
theorem step_read_cases (src : Source) (p : Pipe) :
    p.step src .read = p ∨ ∃ x rest, p.relay.mailbox.items = x :: rest ∧
      p.step src .read =
        { p with
          relay := { p.relay with mailbox := { p.relay.mailbox with items := rest } }
          received := p.received ++ [x] } := by
  cases hitems : p.relay.mailbox.items with
  | nil => exact .inl (by simp [step, Mailbox.take?, hitems])
  | cons x rest => exact .inr ⟨x, rest, rfl, by simp [step, Mailbox.take?, hitems]⟩

end Moves

end Pipe

/-! ## The account of a relay -/

namespace Relay

/-- The relay has to stop, by a cancel or because its caller is gone. -/
def Interrupted (r : Relay) (o : RelayOutcome) : Prop :=
  o = .cancelled ∧ r.cancelled = true ∨ o = .disconnected ∧ r.mailbox.isOpen = false

theorem interrupted_of_interruption? {r : Relay} {o : RelayOutcome} (h : r.interruption? = some o) :
    r.Interrupted o := by
  unfold interruption? at h
  split at h
  · cases h
    exact .inl ⟨rfl, by assumption⟩
  · split at h
    · cases h
      refine .inr ⟨rfl, ?_⟩
      simp_all
    · cases h

theorem isOpen_of_not_interrupted {r : Relay} (h : r.interruption? = none) :
    r.cancelled = false ∧ r.mailbox.isOpen = true := by
  unfold interruption? at h
  split at h
  · cases h
  · split at h
    · cases h
    · simp_all

end Relay

/-- What the place of a relay on a feed says of the number of items it took, and of all that it put
into its mailbox. -/
inductive Account (src : Source) (f : Feed) (r : Relay) : Nat → List RelayItem → Prop where
  | asking {n : Nat} {xs : List RelayItem} (hp : r.Asks) (h : src.Forwarded f.tenant n xs) :
    Account src f r n xs
  /-- The last message is in hand. -/
  | sending {n : Nat} {xs : List RelayItem} {now : Timestamp}
    (hp : r.phase = .sending ((src.message n).relayed f.tenant now)) (hn : src.Has (n + 1))
    (h : src.Forwarded f.tenant n xs) : Account src f r (n + 1) xs
  | reporting {n : Nat} {xs : List RelayItem} {e : SourceEnd}
    (hp : r.phase = .reporting (e.error f) e.outcome) (hstop : src.stop = some (n, e))
    (h : src.Forwarded f.tenant n xs) : Account src f r (n + 1) xs
  /-- Stopped with or without a message in hand. -/
  | stopped {n k : Nat} {xs : List RelayItem} {o : RelayOutcome} (hp : r.phase = .ended o)
    (ho : r.Interrupted o) (hk : n ≤ k ∧ k ≤ n + 1) (hn : src.Has k)
    (h : src.Forwarded f.tenant n xs) : Account src f r k xs
  /-- Stopped before the caller could be told of the end. -/
  | untold {n : Nat} {xs : List RelayItem} {e : SourceEnd} {o : RelayOutcome}
    (hp : r.phase = .ended e.outcome) (ho : r.Interrupted o) (hstop : src.stop = some (n, e))
    (h : src.Forwarded f.tenant n xs) : Account src f r (n + 1) xs
  | told {n : Nat} {xs : List RelayItem} {e : SourceEnd} (hp : r.phase = .ended e.outcome)
    (hstop : src.stop = some (n, e)) (h : src.Forwarded f.tenant n xs) :
    Account src f r (n + 1) (xs ++ [.failure (.ofStore (e.error f))])

namespace Source

variable {src : Source} {t : Tenant} {n : Nat} {xs : List RelayItem}

theorem forwarded_zero (src : Source) (t : Tenant) : src.Forwarded t 0 [] where
  has _ _ _ := Nat.zero_le _
  told := .nil

theorem Forwarded.snoc (h : src.Forwarded t n xs) (hn : src.Has (n + 1)) (now : Timestamp) :
    src.Forwarded t (n + 1) (xs ++ [.message ((src.message n).relayed t now)]) where
  has := hn
  told := by
    have hfirst : src.first (n + 1) = src.first n ++ [src.message n] := by
      rw [first, List.range_succ, List.map_append]
      rfl
    rw [hfirst]
    exact List.rel_append h.told (.cons ⟨now, rfl⟩ .nil)

/-- What a source offers in its turn is its next message, or its end. -/
theorem item_cases (h : src.Has n) :
    (src.item n = .message (src.message n) ∧ src.Has (n + 1)) ∨
      ∃ e, src.stop = some (n, e) ∧ src.item n = e.arrival := by
  unfold item
  cases hs : src.stop with
  | none => exact .inl ⟨rfl, fun k e he => by rw [hs] at he; cases he⟩
  | some x =>
    obtain ⟨k, e⟩ := x
    have hle := h k e hs
    by_cases hlt : n < k
    · refine .inl ⟨by simp [hlt], fun k' e' he => ?_⟩
      rw [hs] at he
      cases he
      omega
    · obtain rfl : n = k := by omega
      exact .inr ⟨e, rfl, by simp⟩

end Source

namespace Account

variable {src : Source} {f : Feed} {r : Relay} {k : Nat} {xs : List RelayItem}

/-- What callers do to a relay keeps its account. -/
theorem congr {r' : Relay} (h : Account src f r k xs) (hphase : r'.phase = r.phase)
    (hinterrupted : ∀ o, r.Interrupted o → r'.Interrupted o) : Account src f r' k xs := by
  cases h with
  | asking hp h =>
    refine .asking ?_ h
    unfold Relay.Asks
    rwa [hphase]
  | sending hp hn h => exact .sending (hphase.trans hp) hn h
  | reporting hp hstop h => exact .reporting (hphase.trans hp) hstop h
  | stopped hp ho hk hn h => exact .stopped (hphase.trans hp) (hinterrupted _ ho) hk hn h
  | untold hp ho hstop h => exact .untold (hphase.trans hp) (hinterrupted _ ho) hstop h
  | told hp hstop h => exact .told (hphase.trans hp) hstop h

theorem interrupt (h : Account src f r k xs) (hp : r.Forwards) {o : RelayOutcome}
    (ho : r.Interrupted o) : Account src f { r with phase := .ended o } k xs := by
  cases h with
  | asking _ hx => exact .stopped rfl ho ⟨Nat.le_refl _, Nat.le_succ _⟩ hx.has hx
  | sending _ hn hx => exact .stopped rfl ho ⟨Nat.le_succ _, Nat.le_refl _⟩ hn hx
  | reporting hq | stopped hq | untold hq | told hq =>
    rcases hp with (hp | hp) | ⟨m, hp⟩ <;> cases hp.symm.trans hq

theorem giveUp (h : Account src f r k xs) {e : StoreError} {o o' : RelayOutcome}
    (hp : r.phase = .reporting e o) (ho : r.Interrupted o') :
    Account src f { r with phase := .ended o } k xs := by
  cases h with
  | reporting hq hstop hx =>
    cases hp.symm.trans hq
    exact .untold rfl ho hstop hx
  | asking hq => rcases hq with hq | hq <;> cases hp.symm.trans hq
  | sending hq | stopped hq | untold hq | told hq => cases hp.symm.trans hq

theorem forwarded (h : Account src f r k xs) (hp : r.Asks) : src.Forwarded f.tenant k xs := by
  cases h with
  | asking _ hx => exact hx
  | sending hq | reporting hq | stopped hq | untold hq | told hq =>
    rcases hp with hp | hp <;> cases hp.symm.trans hq

/-- What is taken is the next message or the end. -/
theorem accept (h : Account src f r k xs) (hr : r.tenant = f.tenant ∧ r.channels = f.channels)
    (hp : r.Asks) (now : Timestamp) :
    Account src f (r.accept (src.item k) now).1 (k + 1) xs := by
  have hx := h.forwarded hp
  rcases Source.item_cases hx.has with ⟨hitem, hn⟩ | ⟨e, hstop, hitem⟩
  · rw [hitem]
    have hsend : (r.accept (.message (src.message k)) now).1.phase =
        .sending ((src.message k).relayed f.tenant now) := by
      simp only [Relay.accept, hr.1]
    exact .sending hsend hn hx
  · rw [hitem]
    refine .reporting (e := e) ?_ hstop hx
    cases e with
    | failed e => rfl
    | closed => simp only [SourceEnd.arrival, Relay.accept, Relay.closedError, hr]; rfl

/-- Where there is room, what is handed over comes behind the others. -/
theorem handOver (h : Account src f r k xs) (hp : ¬ r.Asks) (hended : r.isEnded = false)
    (hi : r.interruption? = none) (hroom : r.mailbox.hasRoom = true) :
    ∃ x phase, r.handOver.map (·.1) = some { r with mailbox := r.mailbox.put x, phase } ∧
      Account src f { r with mailbox := r.mailbox.put x, phase } k (xs ++ [x]) := by
  cases h with
  | asking hq => exact absurd hq hp
  | @sending n _ now hq hn hx =>
    refine ⟨_, .asking, ?_, .asking (.inl rfl) (hx.snoc hn now)⟩
    simp [Relay.handOver, hq, hi, hroom]
  | @reporting n _ e hq hstop hx =>
    refine ⟨.failure (.ofStore (e.error f)), .ended e.outcome, ?_, .told rfl hstop hx⟩
    simp [Relay.handOver, hq, hi, hroom, Relay.finish]
  | stopped hq | untold hq | told hq => simp [Relay.isEnded, hq] at hended

end Account

/-! ## Every event keeps the account -/

namespace Pipe

structure Sound (src : Source) (f : Feed) (p : Pipe) : Prop where
  account : Account src f p.relay p.taken p.put
  feed_eq : p.relay.tenant = f.tenant ∧ p.relay.channels = f.channels
  taken_le : p.taken ≤ p.arrived
  /-- A caller that listens has lost nothing. -/
  kept : p.relay.mailbox.isOpen = true → p.lost = []
  /-- Nothing waits for a caller that left. -/
  emptied : p.relay.mailbox.isOpen = false → p.relay.mailbox.items = []

namespace Sound

variable {src : Source} {f : Feed} {p : Pipe}

theorem start (src : Source) (f : Feed) (capacity : Nat) (turns : List Nat) :
    (Pipe.start f capacity turns).Sound src f where
  account := .asking (.inl rfl) (src.forwarded_zero f.tenant)
  feed_eq := ⟨rfl, rfl⟩
  taken_le := Nat.le_refl 0
  kept _ := rfl
  emptied _ := rfl

/-- A relay that only goes to another place puts nothing. -/
theorem goTo (h : p.Sound src f) {phase : RelayPhase}
    (ha : Account src f { p.relay with phase } p.taken p.put) :
    ({ p with relay := { p.relay with phase } } : Pipe).Sound src f :=
  ⟨ha, h.feed_eq, h.taken_le, h.kept, h.emptied⟩

theorem accept (h : p.Sound src f) (hp : p.relay.Asks) (hi : p.relay.interruption? = none)
    (now : Timestamp) : (p.step src (.move now)).Sound src f := by
  have hsame : ∀ a, (p.relay.accept a now).1 =
      { p.relay with
        phase := (p.relay.accept a now).1.phase, turns := (p.relay.accept a now).1.turns } := by
    intro a
    cases a <;> rfl
  rw [step_asks hp hi]
  by_cases hlt : p.taken < p.arrived
  · have hoffer : p.offer src = src.item p.taken := if_pos hlt
    have ha := h.account.accept h.feed_eq hp now
    simp only [if_pos hlt, hoffer]
    rw [hsame] at ha ⊢
    exact ⟨ha, h.feed_eq, hlt, h.kept, h.emptied⟩
  · have hoffer : p.offer src = .nothing := if_neg hlt
    simp only [if_neg hlt, hoffer]
    exact h.goTo (.asking (.inr rfl) (h.account.forwarded hp))

theorem handOver (h : p.Sound src f) (hp : ¬ p.relay.Asks) (hended : p.relay.isEnded = false)
    (hi : p.relay.interruption? = none) (now : Timestamp) :
    (p.step src (.move now)).Sound src f := by
  obtain ⟨-, hopen⟩ := Relay.isOpen_of_not_interrupted hi
  rw [step_of_handOver hp hended]
  by_cases hroom : p.relay.mailbox.hasRoom = true
  · obtain ⟨x, phase, hover, ha⟩ := h.account.handOver hp hended hi hroom
    rw [hover]
    refine ⟨?_, h.feed_eq, h.taken_le, fun _ => h.kept hopen, fun hc => ?_⟩
    · simpa only [put, Option.getD_some, Mailbox.put, List.append_assoc] using ha
    · cases hopen.symm.trans hc
  · have hfull : p.relay.handOver = none := by
      unfold Relay.handOver
      unfold Relay.Asks at hp
      unfold Relay.isEnded at hended
      cases hphase : p.relay.phase <;> simp_all
    rw [hfull]
    exact h

theorem move (h : p.Sound src f) (now : Timestamp) : (p.step src (.move now)).Sound src f := by
  cases hphase : p.relay.phase with
  | asking | waiting =>
    have hp : p.relay.Asks := by simp [Relay.Asks, hphase]
    cases hi : p.relay.interruption? with
    | none => exact h.accept hp hi now
    | some o =>
      rw [step_interrupted (.inl hp) hi]
      exact h.goTo (h.account.interrupt (.inl hp) (Relay.interrupted_of_interruption? hi))
  | sending m =>
    cases hi : p.relay.interruption? with
    | none =>
      exact h.handOver (by simp [Relay.Asks, hphase]) (by simp [Relay.isEnded, hphase]) hi now
    | some o =>
      have hp : p.relay.Forwards := .inr ⟨m, hphase⟩
      rw [step_interrupted hp hi]
      exact h.goTo (h.account.interrupt hp (Relay.interrupted_of_interruption? hi))
  | reporting e o =>
    cases hi : p.relay.interruption? with
    | none =>
      exact h.handOver (by simp [Relay.Asks, hphase]) (by simp [Relay.isEnded, hphase]) hi now
    | some o' =>
      rw [step_giveUp hphase hi]
      exact h.goTo (h.account.giveUp hphase (Relay.interrupted_of_interruption? hi))
  | ended o =>
    rw [step_ended hphase]
    exact h

/-- Only a move puts anything. -/
theorem put_eq (h : p.Sound src f) {x : PipeEvent} (hx : ∀ now, x ≠ .move now) :
    (p.step src x).put = p.put := by
  cases x with
  | arrive | cancel => rfl
  | read =>
    rcases step_read_cases src p with hstep | ⟨x, rest, hitems, hstep⟩
    · rw [hstep]
    · -- there is something to read, so the caller has not left and lost nothing
      have hlost : p.lost = [] := by
        cases ho : p.relay.mailbox.isOpen with
        | true => exact h.kept ho
        | false => cases hitems.symm.trans (h.emptied ho)
      rw [hstep]
      simp [put, hlost, hitems]
  | leave => simp [put, Pipe.step, Mailbox.drop]
  | move now => exact absurd rfl (hx now)

theorem step (h : p.Sound src f) (x : PipeEvent) : (p.step src x).Sound src f := by
  cases x with
  | arrive => exact ⟨h.account, h.feed_eq, Nat.le_succ_of_le h.taken_le, h.kept, h.emptied⟩
  | read =>
    have hput := h.put_eq (x := .read) fun _ => by simp
    rcases step_read_cases src p with hstep | ⟨x, rest, hitems, hstep⟩
    · rw [hstep]
      exact h
    · rw [hstep] at hput ⊢
      refine ⟨?_, h.feed_eq, h.taken_le, h.kept, fun hc => ?_⟩
      · rw [hput]
        exact h.account.congr rfl fun _ ho => ho
      · cases hitems.symm.trans (h.emptied hc)
  | leave =>
    have hput := h.put_eq (x := .leave) fun _ => by simp
    refine ⟨?_, h.feed_eq, h.taken_le, fun hc => (by cases hc), fun _ => rfl⟩
    rw [hput]
    exact h.account.congr rfl fun _ ho => ho.imp_right fun ho => ⟨ho.1, rfl⟩
  | cancel =>
    refine ⟨?_, h.feed_eq, h.taken_le, h.kept, h.emptied⟩
    exact h.account.congr rfl fun _ ho => ho.imp_left fun ho => ⟨ho.1, rfl⟩
  | move now => exact h.move now

theorem run (h : p.Sound src f) (es : List PipeEvent) : (p.run src es).Sound src f := by
  induction es generalizing p with
  | nil => exact h
  | cons x es ih => exact ih (h.step x)

end Sound

/-! ## Cancels and ends are for good -/

section Later

variable {src : Source} {f : Feed} {p : Pipe} {o : RelayOutcome}

/-- All that a cancelled relay still does is to end. -/
theorem move_of_cancelled (src : Source) (hc : p.relay.cancelled = true) (now : Timestamp) :
    ∃ phase, p.step src (.move now) = { p with relay := { p.relay with phase } } := by
  have hi : p.relay.interruption? = some .cancelled := if_pos hc
  cases hphase : p.relay.phase with
  | asking => exact ⟨_, step_interrupted (.inl (.inl hphase)) hi⟩
  | waiting => exact ⟨_, step_interrupted (.inl (.inr hphase)) hi⟩
  | sending m => exact ⟨_, step_interrupted (.inr ⟨m, hphase⟩) hi⟩
  | reporting e o => exact ⟨_, step_giveUp hphase hi⟩
  | ended o => exact ⟨p.relay.phase, step_ended hphase⟩

theorem cancelled_step (hc : p.relay.cancelled = true) (x : PipeEvent) :
    (p.step src x).relay.cancelled = true := by
  cases x with
  | arrive | leave => exact hc
  | cancel => rfl
  | read =>
    rcases step_read_cases src p with h | ⟨y, rest, -, h⟩ <;> rw [h] <;> exact hc
  | move now =>
    obtain ⟨phase, h⟩ := move_of_cancelled src hc now
    rw [h]
    exact hc

theorem Sound.put_run_of_cancelled (h : p.Sound src f) (hc : p.relay.cancelled = true)
    (later : List PipeEvent) : (p.run src later).put = p.put := by
  induction later generalizing p with
  | nil => rfl
  | cons x later ih =>
    have hstep : (p.step src x).put = p.put := by
      by_cases hx : ∀ now, x ≠ .move now
      · exact h.put_eq hx
      · simp only [ne_eq, not_forall, not_not] at hx
        obtain ⟨now, rfl⟩ := hx
        obtain ⟨phase, hmove⟩ := move_of_cancelled src hc now
        rw [hmove]
        rfl
    exact (ih (h.step x) (cancelled_step hc x)).trans hstep

theorem ended_step (hp : p.relay.phase = .ended o) (x : PipeEvent) :
    (p.step src x).relay.phase = .ended o := by
  cases x with
  | arrive | leave | cancel => exact hp
  | read =>
    rcases step_read_cases src p with h | ⟨y, rest, -, h⟩ <;> rw [h] <;> exact hp
  | move now =>
    rw [step_ended hp]
    exact hp

theorem outcome?_run_of_ended (hp : p.relay.phase = .ended o) (later : List PipeEvent) :
    (p.run src later).relay.outcome? = some o := by
  induction later generalizing p with
  | nil => simp [run, Relay.outcome?, hp]
  | cons x later ih => exact ih (ended_step hp x)

end Later

/-! ## Main statement -/

/-- The relay has taken the end of the source. -/
def TookEnd (src : Source) (p : Pipe) (e : SourceEnd) : Prop :=
  ∃ n, src.stop = some (n, e) ∧ p.taken = n + 1

namespace Sound

variable {src : Source} {f : Feed} {p : Pipe}

/-- What was put is a prefix of the messages, and then at most one error: one, if the relay ended
with its source and was not interrupted. -/
theorem put_shape (h : p.Sound src f) :
    ∃ n messages errors,
      p.put = messages ++ errors ∧ src.Forwarded f.tenant n messages ∧ n ≤ p.taken ∧
        (errors = [] ∨ ∃ e, src.stop = some (n, e) ∧ errors = [.failure (.ofStore (e.error f))]) ∧
        (∀ e : SourceEnd, p.relay.outcome? = some e.outcome → p.relay.interruption? = none →
          errors ≠ []) := by
  have hinterrupted : ∀ {o}, p.relay.Interrupted o → p.relay.interruption? ≠ none := by
    intro o ho hn
    obtain ⟨hc, hopen⟩ := Relay.isOpen_of_not_interrupted hn
    rcases ho with ⟨-, ho⟩ | ⟨-, ho⟩
    · cases hc.symm.trans ho
    · cases hopen.symm.trans ho
  have ha := h.account
  generalize p.taken = k at ha ⊢
  generalize p.put = xs at ha ⊢
  cases ha with
  | asking hp hx =>
    refine ⟨k, xs, [], by simp, hx, Nat.le_refl k, .inl rfl, fun e he => ?_⟩
    rcases hp with hp | hp <;> simp [Relay.outcome?, hp] at he
  | sending hp hn hx | reporting hp hn hx =>
    refine ⟨_, xs, [], by simp, hx, Nat.le_succ _, .inl rfl, fun e he => ?_⟩
    simp [Relay.outcome?, hp] at he
  | stopped hp ho hk hn hx =>
    exact ⟨_, xs, [], by simp, hx, hk.1, .inl rfl, fun e he hi => absurd hi (hinterrupted ho)⟩
  | untold hp ho hn hx =>
    exact ⟨_, xs, [], by simp, hx, Nat.le_succ _, .inl rfl, fun e he hi =>
      absurd hi (hinterrupted ho)⟩
  | told hp hstop hx =>
    exact ⟨_, _, _, rfl, hx, Nat.le_succ _, .inr ⟨_, hstop, rfl⟩, fun _ _ _ => by simp⟩

/-- A relay ends as its source did if it took the end, and otherwise for an interruption. -/
theorem outcome_cases (h : p.Sound src f) {o : RelayOutcome} (ho : p.relay.outcome? = some o) :
    (∃ e, p.TookEnd src e ∧ o = e.outcome) ∨ p.relay.Interrupted o ∧ ∀ e, ¬ p.TookEnd src e := by
  have hphase : p.relay.phase = .ended o := by
    unfold Relay.outcome? at ho
    cases hq : p.relay.phase <;> simp_all
  unfold TookEnd
  have ha := h.account
  generalize p.taken = k at ha ⊢
  generalize p.put = xs at ha
  cases ha with
  | asking hp => rcases hp with hp | hp <;> cases hphase.symm.trans hp
  | sending hp | reporting hp => cases hphase.symm.trans hp
  | stopped hp hi hk hn =>
    cases hphase.symm.trans hp
    refine .inr ⟨hi, ?_⟩
    rintro e ⟨n, hstop, hn'⟩
    have := hn n e hstop
    omega
  | untold hp _ hstop | told hp hstop =>
    cases hphase.symm.trans hp
    exact .inl ⟨_, ⟨_, hstop, rfl⟩, rfl⟩

/-- A relay that took the end has nothing left to do but to tell its caller. -/
theorem phase_of_tookEnd (h : p.Sound src f) {e : SourceEnd} (he : p.TookEnd src e) :
    p.relay.phase = .reporting (e.error f) e.outcome ∨ p.relay.phase = .ended e.outcome := by
  obtain ⟨n, hstop, htaken⟩ := he
  have ha := h.account
  rw [htaken] at ha
  have hless : ∀ {k}, src.Has k → k ≤ n := fun hk => hk n e hstop
  generalize hk : n + 1 = k at ha
  generalize p.put = xs at ha
  cases ha with
  | asking _ hx =>
    have := hless hx.has
    omega
  | sending _ hn =>
    have := hless hn
    omega
  | stopped _ _ _ hn =>
    have := hless hn
    omega
  | reporting hp hs =>
    cases hstop.symm.trans hs
    exact .inl hp
  | untold hp _ hs | told hp hs =>
    cases hstop.symm.trans hs
    exact .inr hp

end Sound

/-- A relay forwards what its source delivers, for every source, mailbox and order of events. Its
mailbox gets the translations of a prefix of the messages that arrived, in order, and then at most
one error, the end of the source: exactly that one if the relay ended with its source, not cancelled
and before a caller that listens. Nothing is put after a cancel. A relay that took the end has the
outcome of the end, and any other stops for a cancel or a caller that is gone, a cancel first, as
soon as it gets its turn. -/
theorem forwards_prefix_then_error (src : Source) (f : Feed) (capacity : Nat) (turns : List Nat)
    (es : List PipeEvent) :
    let p := (start f capacity turns).run src es
    (∃ n messages errors,
      p.put = messages ++ errors ∧ n ≤ p.arrived ∧ src.Has n ∧
        List.Forall₂ (Message.ToldAs f.tenant) (src.first n) messages ∧
        (errors = [] ∨ ∃ e, src.stop = some (n, e) ∧ errors = [.failure (.ofStore (e.error f))]) ∧
        (∀ e : SourceEnd, p.relay.outcome? = some e.outcome → p.relay.cancelled = false →
          p.relay.mailbox.isOpen = true → errors ≠ [])) ∧
    p.received <+: p.put ∧
    (p.relay.cancelled = true → ∀ later, (p.run src later).put = p.put) ∧
    (∀ o, p.relay.outcome? = some o →
      (∃ e, p.TookEnd src e ∧ o = e.outcome) ∨
        (o = .cancelled ∧ p.relay.cancelled = true ∨
          o = .disconnected ∧ p.relay.mailbox.isOpen = false) ∧ ∀ e, ¬ p.TookEnd src e) ∧
    ∀ now later,
      let q := p.run src (.move now :: later)
      (p.relay.Forwards → p.relay.cancelled = true → q.relay.outcome? = some .cancelled) ∧
      (p.relay.Forwards → p.relay.cancelled = false → p.relay.mailbox.isOpen = false →
        q.relay.outcome? = some .disconnected) ∧
      (∀ e, p.relay.Asks → p.relay.interruption? = none → p.taken < p.arrived →
        src.stop = some (p.taken, e) → (p.step src (.move now)).TookEnd src e) ∧
      ∀ e, p.TookEnd src e → p.relay.interruption?.isSome ∨ p.relay.mailbox.hasRoom →
        q.relay.outcome? = some e.outcome := by
  intro p
  have h : p.Sound src f := (Sound.start src f capacity turns).run es
  refine ⟨?_, ?_, fun hc => h.put_run_of_cancelled hc, fun o ho => h.outcome_cases ho,
    fun now later => ⟨fun hp hc => ?_, fun hp hc hopen => ?_, fun e hp hi hlt hstop => ?_,
      fun e he hready => ?_⟩⟩
  · obtain ⟨n, messages, errors, hput, hx, hn, herrors, hone⟩ := h.put_shape
    refine ⟨n, messages, errors, hput, Nat.le_trans hn h.taken_le, hx.has, hx.told, herrors, ?_⟩
    intro e ho hc hopen
    exact hone e ho (by simp [Relay.interruption?, hc, hopen])
  · exact ⟨p.lost ++ p.relay.mailbox.items, (List.append_assoc ..).symm⟩
  · have hi : p.relay.interruption? = some .cancelled := if_pos hc
    refine outcome?_run_of_ended ?_ later
    rw [step_interrupted hp hi]
  · have hi : p.relay.interruption? = some .disconnected := by simp [Relay.interruption?, hc, hopen]
    refine outcome?_run_of_ended ?_ later
    rw [step_interrupted hp hi]
  · refine ⟨p.taken, hstop, ?_⟩
    rw [step_asks hp hi]
    exact if_pos hlt
  · refine outcome?_run_of_ended ?_ later
    rcases h.phase_of_tookEnd he with hphase | hphase
    · cases hi : p.relay.interruption? with
      | some o => rw [step_giveUp hphase hi]
      | none =>
        have hroom : p.relay.mailbox.hasRoom = true := by simpa [hi] using hready
        rw [step_report hphase hi hroom]
    · exact ended_step hphase (.move now)

/-- A source that fails after one message, with room for one item: the caller reads the message and
then the error. -/
example :
    let src : Source := ⟨fun _ => ⟨"user-u1:a", "before"⟩, some (1, .failed .closed)⟩
    let p := (start ⟨⟨"u1", none⟩, ["user-u1:a"], 0⟩ 1 []).run src
      [.move default, .arrive, .arrive, .move default, .move default, .move default,
        .move default, .read, .move default, .read]
    p.received = [.message ⟨"a", "before", default⟩, .failure (.ofStore .closed)] ∧
      p.relay.outcome? = some (.failed .closed) := by
  decide +kernel

end Pipe

end Tenancy
