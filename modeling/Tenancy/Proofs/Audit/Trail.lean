import Tenancy.Proofs.Audit.Record
import Tenancy.Proofs.Service.Alike

/-!
# The audit trail

In a schedule of single events, records reach the sink in any order and at any time after the calls
that they are about. What the sink was handed and what is still on its way are then together the
records of what was changed, one for one; what the sink takes and refuses is decided by its place
alone and changes nothing but the trail and the counts of lost records (`Service.audit_exact`). Runs
with rest after every step are such schedules, and at rest nothing is on its way.
-/

namespace Tenancy

open Metrics

/-! ## What a sink makes of records -/

namespace Audit.Sink

/-- Of records that are handed over after `n` others, those that the sink takes. -/
def accepted (sink : Sink) : Nat → List Record → List Record
  | _, [] => []
  | n, r :: rs =>
    (if (sink.refusal? n).isNone then [r] else []) ++ accepted sink (n + 1) rs

/-- Of records that are handed over after `n` others, those that the sink refuses. -/
def rejected (sink : Sink) : Nat → List Record → List Record
  | _, [] => []
  | n, r :: rs =>
    (if (sink.refusal? n).isNone then [] else [r]) ++ rejected sink (n + 1) rs

theorem accepted_append (sink : Sink) (rs rs' : List Record) (n : Nat) :
    sink.accepted n (rs ++ rs') = sink.accepted n rs ++ sink.accepted (n + rs.length) rs' := by
  induction rs generalizing n with
  | nil => rfl
  | cons r rs ih =>
    have hn : n + 1 + rs.length = n + (r :: rs).length := by
      rw [List.length_cons]
      omega
    rw [List.cons_append, accepted, accepted, ih, List.append_assoc, hn]

theorem rejected_append (sink : Sink) (rs rs' : List Record) (n : Nat) :
    sink.rejected n (rs ++ rs') = sink.rejected n rs ++ sink.rejected (n + rs.length) rs' := by
  induction rs generalizing n with
  | nil => rfl
  | cons r rs ih =>
    have hn : n + 1 + rs.length = n + (r :: rs).length := by
      rw [List.length_cons]
      omega
    rw [List.cons_append, rejected, rejected, ih, List.append_assoc, hn]

end Audit.Sink

/-! ## Schedules -/

/-- What happens where nothing goes by itself: what a step does at once, an item taken by the caller
of a relay, a move of the `i`-th relay, the `i`-th record on its way handed to the sink, a round of
the sweepers, a new reading of the wall clock. -/
inductive Event where
  | act (x : Step) (single : x.IsSingle = true)
  | take (handle : Nat)
  | move (i : Nat)
  | hand (i : Nat)
  | sweep
  | wall (now : Timestamp)

def Event.isHand : Event → Bool
  | hand _ => true
  | _ => false

namespace Service

/-- The service after the `i`-th record on its way was handed to the sink. -/
def handAt (s : Service) (i : Nat) : Service :=
  match s.pending[i]? with
  | some r => { s with pending := s.pending.eraseIdx i }.hand r
  | none => s

def happen (s : Service) : Event → Answer × Service
  | .act x _ => s.act x
  | .take handle =>
    match s.picked? handle with
    | some (x, s) => (.read [x] false, s)
    | none => (.read [] (((s.relay? handle).map (·.isEnded)).getD true), s)
  | .move i => (.flag (s.moveAt? i).isSome, (s.moveAt? i).getD s)
  | .hand i => (.done, s.handAt i)
  | .sweep => (.done, s.runSweepers)
  | .wall now => (.done, { s with clock := { s.clock with wall := now } })

/-- What an event changes as a call of the gateway. -/
def change? (s : Service) : Event → Option Change
  | .act x _ => x.change? s.clock.wall (s.act x).1
  | _ => none

/-- The record that an event hands to the sink. -/
def handed? (s : Service) : Event → Option Audit.Record
  | .hand i => s.pending[i]?
  | _ => none

/-- What the events of a schedule give, one after the other. -/
def collect {α : Type} (f : Service → Event → Option α) : List Event → Service → List α
  | [], _ => []
  | e :: es, s => (f s e).toList ++ collect f es (s.happen e).2

/-- What the calls of a schedule change, in their order. -/
def changes (es : List Event) (s : Service) : List Change := collect change? es s

/-- The records that a schedule hands to the sink, in their order. -/
def handed (es : List Event) (s : Service) : List Audit.Record := collect handed? es s

/-- How many records the sink was handed. -/
def handedBefore (s : Service) : Nat := s.trail.length + s.refused

variable {s s' : Service}

/-! ## Handing over -/

theorem total_auditFailure (lost operation : Audit.Operation) :
    total [.auditFailure lost.name] (.auditFailures operation.name) =
      if lost = operation then 1 else 0 := by
  cases lost <;> cases operation <;> decide

/-- The sink was handed the records, in this order, and nothing else came of it. -/
structure Handed (s : Service) (rs : List Audit.Record) (s' : Service) : Prop where
  sink : s'.sink = s.sink
  before : s'.handedBefore = s.handedBefore + rs.length
  trail : s'.trail = s.trail ++ s.sink.accepted s.handedBefore rs
  refused : s'.refused = s.refused + (s.sink.rejected s.handedBefore rs).length
  failures : ∀ operation, s'.failures operation = s.failures operation +
    (s.sink.rejected s.handedBefore rs).countP (·.operation = operation)

/-- Where a record is accepted, it is the last one of the trail; a refused one is counted. -/
theorem handed_hand (s : Service) (r : Audit.Record) : s.Handed [r] (s.hand r) := by
  unfold hand
  cases hr : s.sink.refusal? (s.trail.length + s.refused) with
  | none =>
    have hnone : (s.sink.refusal? s.handedBefore).isNone = true := by
      rw [handedBefore, hr]
      rfl
    have hkept : s.Handed [r] { s with trail := s.trail ++ [r] } := by
      constructor <;> simp [Audit.Sink.accepted, Audit.Sink.rejected, hr, handedBefore, failures]
      omega
    simp only
    split
    · refine ⟨hkept.sink, hkept.before, hkept.trail, hkept.refused, fun operation => ?_⟩
      rw [← hkept.failures]
      exact ((puts_leaving _ .nil).failures operation)
    · exact hkept
  | some e =>
    have hnone : (s.sink.refusal? s.handedBefore).isNone = false := by
      rw [handedBefore, hr]
      rfl
    constructor
    · rfl
    · simp [handedBefore, leaving]
      omega
    · simp [Audit.Sink.accepted, hnone, leaving]
    · simp [Audit.Sink.rejected, hnone, leaving]
    · intro operation
      have hsum := total_append s.samples [.auditFailure r.operation.name]
        (.auditFailures operation.name)
      rw [total_auditFailure] at hsum
      refine hsum.trans ?_
      simp [Audit.Sink.rejected, hnone, failures, List.countP_cons]

theorem hand_pending (s : Service) (r : Audit.Record) : (s.hand r).pending = s.pending := by
  unfold hand
  split
  · exact List.append_nil _
  · simp only
    split
    · exact List.append_nil _
    · rfl

theorem Handed.trans {s'' : Service} {rs rs' : List Audit.Record} (h : s.Handed rs s')
    (h' : s'.Handed rs' s'') : s.Handed (rs ++ rs') s'' where
  sink := h'.sink.trans h.sink
  before := by
    rw [h'.before, h.before, List.length_append]
    omega
  trail := by
    rw [h'.trail, h.trail, h.sink, h.before, Audit.Sink.accepted_append, List.append_assoc]
  refused := by
    rw [h'.refused, h.refused, h.sink, h.before, Audit.Sink.rejected_append, List.length_append]
    omega
  failures operation := by
    rw [h'.failures, h.failures, h.sink, h.before, Audit.Sink.rejected_append, List.countP_append]
    push_cast
    omega

theorem Puts.handed {records : List Audit.Record} (h : s.Puts records s') : s.Handed [] s' where
  sink := h.sink
  before := by
    unfold handedBefore
    rw [h.trail, h.refused]
    rfl
  trail := h.trail.trans (List.append_nil _).symm
  refused := h.refused
  failures operation := (h.failures operation).trans (Int.add_zero _).symm

/-! ## Schedules keep the audit exact -/

/-- Records `rs` were put on their way, and `hs` of those on their way were handed over. -/
structure Audits (s : Service) (rs hs : List Audit.Record) (s' : Service) : Prop where
  handed : s.Handed hs s'
  perm : (hs ++ s'.pending).Perm (s.pending ++ rs)

theorem Audits.refl (s : Service) : s.Audits [] [] s :=
  ⟨(Puts.refl s).handed, by rw [List.append_nil, List.nil_append]⟩

theorem Audits.trans {s'' : Service} {rs rs' hs hs' : List Audit.Record}
    (h : s.Audits rs hs s') (h' : s'.Audits rs' hs' s'') :
    s.Audits (rs ++ rs') (hs ++ hs') s'' := by
  refine ⟨h.handed.trans h'.handed, ?_⟩
  calc List.Perm ((hs ++ hs') ++ s''.pending) (hs ++ (hs' ++ s''.pending)) := by
        rw [List.append_assoc]
    List.Perm _ (hs ++ (s'.pending ++ rs')) := h'.perm.append_left hs
    List.Perm _ ((hs ++ s'.pending) ++ rs') := by rw [List.append_assoc]
    List.Perm _ ((s.pending ++ rs) ++ rs') := h.perm.append_right rs'
    List.Perm _ (s.pending ++ (rs ++ rs')) := by rw [List.append_assoc]

theorem Puts.audits {records : List Audit.Record} (h : s.Puts records s') :
    s.Audits records [] s' :=
  ⟨h.handed, by rw [List.nil_append, h.pending]⟩

theorem audits_handAt (s : Service) (i : Nat) :
    s.Audits [] s.pending[i]?.toList (s.handAt i) := by
  unfold handAt
  split
  · rename_i r hr
    obtain ⟨hi, rfl⟩ := List.getElem?_eq_some_iff.1 hr
    have hhanded := handed_hand { s with pending := s.pending.eraseIdx i } s.pending[i]
    rw [hr]
    refine ⟨⟨hhanded.sink, hhanded.before, hhanded.trail, hhanded.refused, hhanded.failures⟩, ?_⟩
    rw [hand_pending, List.append_nil]
    exact List.getElem_cons_eraseIdx_perm hi
  · rename_i hr
    rw [hr]
    exact .refl s

/-- An event puts the record of what it changes on its way, and hands over at most one. -/
theorem audits_happen (s : Service) (e : Event) :
    ∃ records, List.Forall₂ Change.Recorded (s.change? e).toList records ∧
      s.Audits records (s.handed? e).toList (s.happen e).2 := by
  cases e with
  | act x single =>
    obtain ⟨records, hrecorded, hputs⟩ := s.act_puts single
    exact ⟨records, hrecorded, hputs.audits⟩
  | take handle =>
    refine ⟨[], .nil, ?_⟩
    cases hp : s.picked? handle with
    | none =>
      simp only [happen, hp]
      exact .refl s
    | some x =>
      simp only [happen, hp]
      exact (puts_picked? hp).audits
  | move i =>
    refine ⟨[], .nil, ?_⟩
    cases hm : s.moveAt? i with
    | none =>
      simp only [happen, hm]
      exact .refl s
    | some s' =>
      simp only [happen, hm]
      exact (puts_moveAt? hm).audits
  | hand i => exact ⟨[], .nil, s.audits_handAt i⟩
  | sweep => exact ⟨[], .nil, s.puts_runSweepers.audits⟩
  | wall now =>
    refine ⟨[], .nil, Puts.audits (puts_nil ?_ ?_ ?_ ?_ ?_)⟩
    all_goals rfl

/-- The service after a schedule, and the answers on the way. -/
abbrev play (s : Service) (es : List Event) : List Answer × Service := runOf happen s es

theorem audits_play (es : List Event) : ∀ s : Service,
    ∃ records, List.Forall₂ Change.Recorded (changes es s) records ∧
      s.Audits records (handed es s) (s.play es).2 := by
  induction es with
  | nil => exact fun s => ⟨[], .nil, .refl s⟩
  | cons e es ih =>
    intro s
    obtain ⟨records, hrecorded, haudits⟩ := s.audits_happen e
    obtain ⟨records', hrecorded', haudits'⟩ := ih (s.happen e).2
    exact ⟨records ++ records', List.rel_append hrecorded hrecorded', haudits.trans haudits'⟩

/-! ## The sink does not matter -/

theorem Alike.handAt (h : s.Alike s') (i : Nat) : (s.handAt i).Alike s' := by
  unfold Service.handAt
  split
  · rename_i r hr
    have hwaiting : Alike { s with pending := s.pending.eraseIdx i } s := ⟨rfl, rfl, rfl, rfl, rfl, rfl⟩
    exact ((alike_hand _ r).symm.trans hwaiting).trans h
  · exact h

theorem Alike.happen (h : s.Alike s') {e : Event} (he : e.isHand = false) :
    (s.happen e).1 = (s'.happen e).1 ∧ (s.happen e).2.Alike (s'.happen e).2 := by
  cases e with
  | act x single => exact h.act x
  | take handle =>
    have hpick := h.picked? handle
    rw [Service.happen, Service.happen, h.relay?]
    generalize s.picked? handle = p, s'.picked? handle = p' at hpick
    cases hpick with
    | none => exact ⟨rfl, h⟩
    | some hx =>
      obtain ⟨hitem, hafter⟩ := hx
      simp only [hitem]
      exact ⟨trivial, hafter⟩
  | move i =>
    have hmove := h.moveAt? i
    rw [Service.happen, Service.happen]
    generalize s.moveAt? i = m, s'.moveAt? i = m' at hmove
    cases hmove with
    | none => exact ⟨rfl, h⟩
    | some h₁ => exact ⟨rfl, h₁⟩
  | hand i => cases he
  | sweep => exact ⟨rfl, h.runSweepers⟩
  | wall now =>
    obtain ⟨sink, pending, trail, refused, log, samples, rfl⟩ := h.exists_eq
    exact ⟨rfl, rfl, rfl, rfl, rfl, rfl, rfl⟩

/-- The answers of a schedule without those to what the sink is handed. -/
def answers (s : Service) (es : List Event) : List Answer :=
  answersTo (fun e => !e.isHand) es (s.play es).1

/-- Answers, store and relays are those of the schedule in which the sink is handed nothing. -/
theorem Alike.play (es : List Event) : ∀ {s s' : Service}, s.Alike s' →
    s.answers es = (s'.play (es.filter fun e => !e.isHand)).1 ∧
      (s.play es).2.Alike (s'.play (es.filter fun e => !e.isHand)).2 := by
  induction es with
  | nil => exact fun h => ⟨rfl, h⟩
  | cons e es ih =>
    intro s s' h
    rw [Service.answers, answersTo_cons_runOf]
    cases he : e.isHand with
    | true =>
      obtain ⟨i, rfl⟩ : ∃ i, e = .hand i := by
        cases e with
        | hand i => exact ⟨i, rfl⟩
        | _ => cases he
      rw [List.filter_cons_of_neg (by simp [he])]
      exact ih (h.handAt i)
    | false =>
      obtain ⟨hanswer, hafter⟩ := h.happen he
      obtain ⟨hanswers, hend⟩ := ih hafter
      rw [List.filter_cons_of_pos (by simp [he])]
      exact ⟨congrArg₂ List.cons hanswer hanswers, hend⟩

/-! ## Runs are schedules -/

/-- What the calls of a run change, in their order. -/
def changesOf : List Step → Service → List Change
  | [], _ => []
  | x :: xs, s => (x.change? s.clock.wall (s.step x).1).toList ++ changesOf xs (s.step x).2

/-- A schedule leads from the one service to the other, and its calls change what is given. -/
def Plays (s : Service) (cs : List Change) (s' : Service) : Prop :=
  ∃ es, (s.play es).2 = s' ∧ changes es s = cs

theorem Plays.refl (s : Service) : s.Plays [] s := ⟨[], rfl, rfl⟩

/-- An event and what follows it. -/
theorem Plays.head {cs : List Change} (e : Event) (h : (s.happen e).2.Plays cs s') :
    s.Plays ((s.change? e).toList ++ cs) s' := by
  obtain ⟨es, hplay, hchanges⟩ := h
  refine ⟨e :: es, hplay, ?_⟩
  rw [← hchanges]
  rfl

theorem Plays.trans {s'' : Service} {cs cs' : List Change} (h : s.Plays cs s')
    (h' : s'.Plays cs' s'') : s.Plays (cs ++ cs') s'' := by
  obtain ⟨es, hplay, hchanges⟩ := h
  induction es generalizing s cs with
  | nil =>
    cases hplay
    cases hchanges
    exact h'
  | cons e es ih =>
    have hrest := (ih hplay rfl).head e
    rw [← List.append_assoc] at hrest
    exact hchanges ▸ hrest

theorem plays_settleIn (n : Nat) : ∀ s : Service, s.Plays [] (settleIn n s) := by
  induction n with
  | zero => exact Plays.refl
  | succ n ih =>
    intro s
    rw [settleIn]
    cases hm : s.move? with
    | none => exact .refl s
    | some s₁ =>
      obtain ⟨i, -, hi⟩ := List.exists_of_findSome?_eq_some hm
      refine Plays.head (.move i) ?_
      simp only [happen, hi]
      exact ih s₁

theorem withPending_hand (s : Service) (r : Audit.Record) (rs : List Audit.Record) :
    { s with pending := rs }.hand r = { s.hand r with pending := rs } := by
  unfold hand
  simp only
  cases s.sink.refusal? (s.trail.length + s.refused) with
  | some e => simp [leaving]
  | none =>
    simp only
    split <;> simp [leaving, Effects.ofLog]

/-- The records on their way are handed over one after the other. -/
theorem plays_deliver (s : Service) : s.Plays [] s.deliver := by
  have hall : ∀ (rs : List Audit.Record) (s : Service),
      Plays { s with pending := rs } [] (rs.foldl hand { s with pending := [] }) := by
    intro rs
    induction rs with
    | nil => exact fun s => .refl _
    | cons r rs ih =>
      intro s
      refine Plays.head (.hand 0) ?_
      have hhand : (({ s with pending := r :: rs } : Service).happen (.hand 0)).2 =
          { s.hand r with pending := rs } := s.withPending_hand r rs
      have hempty : { s with pending := [] }.hand r = { s.hand r with pending := [] } :=
        s.withPending_hand r []
      rw [hhand, List.foldl_cons, hempty]
      exact ih (s.hand r)
  exact hall s.pending s

theorem plays_settle (s : Service) : s.Plays [] s.settle :=
  (plays_settleIn s.reach s).trans (plays_deliver _)

theorem plays_readIn (handle fuel : Nat) : ∀ (s : Service) (limit : Option Nat),
    s.Plays [] (readIn handle fuel limit s).2.2 := by
  induction fuel with
  | zero => exact fun s _ => .refl s
  | succ fuel ih =>
    intro s limit
    rw [readIn]
    split
    · exact .refl s
    · rw [take?_eq]
      cases hp : s.picked? handle with
      | none => exact .refl s
      | some x =>
        refine Plays.head (.take handle) ?_
        simp only [happen, hp]
        exact (plays_settle x.2).trans (ih _ _)

/-- What a step does at once. -/
theorem plays_act (s : Service) (x : Step) :
    s.Plays (x.change? s.clock.wall (s.act x).1).toList (s.act x).2 := by
  cases hx : x.IsSingle with
  | true =>
    have hplay := Plays.head (s := s) (.act x hx) (.refl (s.act x).2)
    rw [List.append_nil] at hplay
    exact hplay
  | false =>
    cases x with
    | read handle limit =>
      rw [act]
      split
      · exact plays_readIn handle (s.readable handle + 1) s limit
      · exact .refl s
    | _ => cases hx

theorem plays_step (s : Service) (x : Step) :
    s.Plays (x.change? s.clock.wall (s.step x).1).toList (s.step x).2 := by
  have hswept : (s.act x).2.settle.Plays [] (s.step x).2 := .head .sweep (.refl _)
  have hrest := (s.plays_act x).trans ((plays_settle _).trans hswept)
  simp only [List.append_nil] at hrest
  exact hrest

theorem plays_run (xs : List Step) : ∀ s : Service, s.Plays (changesOf xs s) (s.run xs).2 := by
  induction xs with
  | nil => exact Plays.refl
  | cons x xs ih => exact fun s => (s.plays_step x).trans (ih (s.step x).2)

/-- At rest nothing is on its way. -/
theorem pending_settle (s : Service) : s.settle.pending = [] := by
  have hall : ∀ (rs : List Audit.Record) (s : Service), (rs.foldl hand s).pending = s.pending := by
    intro rs
    induction rs with
    | nil => exact fun _ => rfl
    | cons r rs ih => exact fun s => (ih (s.hand r)).trans (s.hand_pending r)
  exact hall _ _

theorem pending_run {xs : List Step} : ∀ {s : Service}, s.pending = [] →
    (s.run xs).2.pending = [] := by
  induction xs with
  | nil => exact fun h => h
  | cons x xs ih => exact fun _ => ih (pending_settle _)

/-! ## The theorem -/

/-- In every schedule the records that the sink was handed and those still on their way are the
ones of what the calls changed, one for one, with those that were on their way before. What the sink
accepts is the trail, and what it refuses is counted, each operation by itself. No other sink, and
no other time or order of handing over, makes a difference to an answer, to the store or to a relay.
In a run with rest after every step all records were handed over at its end, and there too the sink
makes no difference. -/
theorem audit_exact (s : Service) (sink : Audit.Sink) :
    (∀ es : List Event, ∃ records, List.Forall₂ Change.Recorded (changes es s) records ∧
      (handed es s ++ (s.play es).2.pending).Perm (s.pending ++ records) ∧
      s.Handed (handed es s) (s.play es).2) ∧
    (∀ es es' : List Event, (es.filter fun e => !e.isHand) = es'.filter (fun e => !e.isHand) →
      let s' : Service := { s with sink }
      s.answers es = s'.answers es' ∧ (s.play es).2.store = (s'.play es').2.store ∧
        (s.play es).2.relays = (s'.play es').2.relays) ∧
    (∀ xs : List Step, s.pending = [] →
      ∃ records handed, List.Forall₂ Change.Recorded (changesOf xs s) records ∧
        handed.Perm records ∧ s.Handed handed (s.run xs).2) ∧
    (∀ xs : List Step,
      let s' : Service := { s with sink }
      (s.run xs).1 = (s'.run xs).1 ∧ (s.run xs).2.store = (s'.run xs).2.store ∧
        (s.run xs).2.relays = (s'.run xs).2.relays) := by
  have halike : s.Alike { s with sink } := ⟨rfl, rfl, rfl, rfl, rfl, rfl⟩
  refine ⟨fun es => ?_, fun es es' hsame => ?_, fun xs hpending => ?_, fun xs => ?_⟩
  · obtain ⟨records, hrecorded, haudits⟩ := audits_play es s
    exact ⟨records, hrecorded, haudits.perm, haudits.handed⟩
  · obtain ⟨hanswers, hend⟩ := Alike.play es (Alike.refl s)
    obtain ⟨hanswers', hend'⟩ := Alike.play es' halike.symm
    rw [hsame] at hanswers hend
    exact ⟨hanswers.trans hanswers'.symm, hend.store.symm.trans hend'.store,
      hend.relays.symm.trans hend'.relays⟩
  · obtain ⟨es, hplay, hchanges⟩ := plays_run xs s
    obtain ⟨records, hrecorded, haudits⟩ := audits_play es s
    refine ⟨records, handed es s, hchanges ▸ hrecorded, ?_, hplay ▸ haudits.handed⟩
    have hperm := haudits.perm
    rw [hplay, pending_run hpending, hpending, List.append_nil, List.nil_append] at hperm
    exact hperm
  · obtain ⟨hanswers, hend⟩ := Alike.run xs halike
    exact ⟨hanswers, hend.store.symm, hend.relays.symm⟩

/-- A lock and a message of Bob, of which the sink refuses the record that comes first. It is the one
of the message that does, and Ann, who asks for the same name without having the token, leaves none. -/
theorem audit_exact_lost :
    let bob : Tenant := ⟨"bob", some "org"⟩
    let s : Service := { clock := ⟨⟨0⟩, default⟩, store := .ofCapacity 4,
                         sink := .flaky [some (.rejected "full")] }
    let acquire : Step := .call bob (.acquire "job" ⟨10⟩) { fresh := "B" }
    let publish : Step := .call bob (.publish "news" "é") {}
    let release : Step := .call ⟨"ann", none⟩ (.release "job" "B") {}
    let es : List Event := [.act acquire rfl, .act publish rfl, .hand 1, .act release rfl, .hand 0]
    let es' : List Event := [.act acquire rfl, .hand 0, .act publish rfl, .act release rfl]
    (changes es s).map (·.request) = [.acquire "job" ⟨10⟩, .publish "news" "é"] ∧
      (handed es s).map (·.operation) = [.publish, .acquireLock] ∧
      ((s.play es).2.trail.map fun r => (r.user, r.organization, r.operation)) =
        [("bob", some "org", .acquireLock)] ∧
      (s.play es).2.failures .publish = 1 ∧ (s.play es).2.failures .acquireLock = 0 ∧
      s.answers es = { s with sink := .recording }.answers es' ∧
      (∃ handed, handed.length = 2 ∧ s.Handed handed (s.run [acquire, publish, release]).2) ∧
      (s.run [acquire, publish, release]).1 =
        ({ s with sink := .recording }.run [acquire, publish, release]).1 := by
  intro bob s acquire publish release es es'
  obtain ⟨hexact, hblind, hrun, hsame⟩ := audit_exact s .recording
  obtain ⟨records, -, -, hhanded⟩ := hexact es
  obtain ⟨records', handed', hrecorded, hperm, hhanded'⟩ := hrun [acquire, publish, release] rfl
  have htwo : (changesOf [acquire, publish, release] s).length = 2 := by decide +kernel
  have hlength : handed'.length = 2 := by rw [hperm.length_eq, ← hrecorded.length_eq, htwo]
  refine ⟨by decide +kernel, by decide +kernel, ?_, ?_, ?_, (hblind es es' rfl).1,
    ⟨handed', hlength, hhanded'⟩, (hsame _).1⟩
  · rw [hhanded.trail]
    decide +kernel
  · rw [hhanded.failures]
    decide +kernel
  · rw [hhanded.failures]
    decide +kernel

end Service

end Tenancy
