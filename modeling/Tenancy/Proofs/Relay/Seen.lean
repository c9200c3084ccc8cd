import Tenancy.Proofs.Relay.Move

/-!
# Relays as their callers see them

A caller knows nothing of the id that the hub gave to the subscription of its relay; what counts is
what the subscription holds. `Relay.seen` is a relay without the id and with the inboxes, and over a
plain store the moves of a relay are a function of that (`Relay.move?_seen`).
-/

namespace Tenancy

/-- A relay whose subscription has no id, beside what the subscription holds; a relay that gave it
back has nothing. -/
structure SeenRelay where
  relay : Relay
  boxes : Option (List Inbox)

namespace Relay

/-- The relay without the id of its subscription. -/
def faceless (r : Relay) : Relay := { r with source := r.source.map fun _ => 0 }

def seen (r : Relay) (h : Hub) : SeenRelay :=
  ⟨r.faceless, (r.source.bind h.find?).map (·.inboxes)⟩

theorem finish_faceless (r : Relay) (o : RelayOutcome) :
    r.faceless.finish o = ((r.finish o).1.faceless, (r.finish o).2) := by
  unfold finish faceless
  cases r.source <;> rfl

theorem accept_faceless (r : Relay) (a : Arrival) (now : Timestamp) :
    (r.faceless.accept a now).1 = (r.accept a now).1.faceless := by
  cases a <;> rfl

theorem heed_faceless (r : Relay) :
    r.faceless.heed = r.heed.map fun x => (x.1.faceless, x.2) := by
  have hi : r.faceless.interruption? = r.interruption? := rfl
  unfold heed
  rw [hi, Option.map_map]
  exact Option.map_congr fun o _ => r.finish_faceless o

theorem handOver_faceless (r : Relay) :
    r.faceless.handOver = r.handOver.map fun x => (x.1.faceless, x.2) := by
  have hi : r.faceless.interruption? = r.interruption? := rfl
  have hphase : r.faceless.phase = r.phase := rfl
  have hmailbox : r.faceless.mailbox = r.mailbox := rfl
  unfold handOver
  rw [hphase, hi, hmailbox]
  cases r.phase with
  | sending m =>
    cases r.interruption? with
    | some o => simp only [finish_faceless, Option.map_some]
    | none =>
      by_cases hroom : r.mailbox.hasRoom = true
      · simp only [hroom, if_true, Option.map_some]
        rfl
      · simp only [hroom, Bool.false_eq_true, if_false, Option.map_none]
  | reporting e o =>
    cases r.interruption? with
    | some _ => simp only [finish_faceless, Option.map_some]
    | none =>
      by_cases hroom : r.mailbox.hasRoom = true
      · simp only [hroom, if_true, Option.map_some]
        rw [← finish_faceless]
        rfl
      · simp only [hroom, Bool.false_eq_true, if_false, Option.map_none]
  | _ => rfl

end Relay

namespace SeenRelay

/-- Whether taking would give anything. -/
def isReady (v : SeenRelay) : Bool :=
  match v.boxes with
  | none => true
  | some bs => 0 < (Subscription.mk 0 bs).waiting || (Subscription.mk 0 bs).isOver

/-- What the relay takes next, and what its subscription holds then. -/
def offer (v : SeenRelay) : Arrival × Option (List Inbox) :=
  match v.boxes with
  | none => (.ended, none)
  | some bs =>
    (.ofDelivery ((Subscription.mk 0 bs).receive v.relay.turn).1,
      some ((Subscription.mk 0 bs).receive v.relay.turn).2.2.inboxes)

def ask? (v : SeenRelay) (now : Timestamp) : Option SeenRelay :=
  match v.relay.heed, v.relay.source with
  | some (r, _), _ => some ⟨r, none⟩
  | none, none => none
  | none, some _ =>
    if v.relay.isWaiting && !v.isReady then none
    else some ⟨(v.relay.accept v.offer.1 now).1, v.offer.2⟩

def give? (v : SeenRelay) : Option SeenRelay :=
  v.relay.handOver.map fun x => ⟨x.1, if x.1.isEnded then none else v.boxes⟩

/-- The next move, as far as it is seen. -/
def move? (v : SeenRelay) (now : Timestamp) : Option SeenRelay :=
  match v.relay.phase with
  | .asking | .waiting => v.ask? now
  | .sending _ | .reporting .. => v.give?
  | .ended _ => none

end SeenRelay

namespace Relay

variable {s : Store}

theorem isReady_seen (hp : s.Plain) {r : Relay} {id : Nat} (hid : r.source = some id) :
    (r.seen s.hub).isReady = s.isReady id := by
  unfold SeenRelay.isReady Store.isReady seen
  rw [hid, hp.line?_eq, Option.bind_some]
  cases s.hub.find? id with
  | none => rfl
  | some t => rfl

theorem offer_seen (hp : s.Plain) {r : Relay} {id : Nat} (hid : r.source = some id) :
    (r.seen s.hub).offer =
      ((s.receive id r.turn).1, ((s.receive id r.turn).2.2.hub.find? id).map (·.inboxes)) := by
  have hturn : r.faceless.turn = r.turn := rfl
  rw [hp.receive_eq]
  unfold SeenRelay.offer seen
  simp only [hid, Option.bind_some, hturn, Hub.find?_receive, if_true]
  cases hf : s.hub.find? id with
  | none => rw [Hub.receive_of_none hf]; rfl
  | some t =>
    have hrec := t.receive_withId 0 r.turn
    rw [Hub.receive_of_some hf]
    simp only [Option.map_some]
    rw [hrec]

/-- A relay that has given its subscription back holds nothing. -/
theorem seen_release (hp : s.Plain) (r : Relay) :
    r.seen (r.release s).hub = ⟨r.faceless, none⟩ := by
  unfold seen release
  cases r.source with
  | none => rfl
  | some id =>
    have hnone : (s.hub.unsubscribe id).find? id = none :=
      (hp.tidy.find?_unsubscribe id id).trans (if_pos rfl)
    simp only [hp.unsubscribe_eq, Option.bind_some, hnone, Option.map_none]

theorem ask?_seen (hp : s.Plain) (r : Relay) (now : Timestamp) :
    (r.ask? s now).map (fun x => x.1.seen x.2.1.hub) = (r.seen s.hub).ask? now := by
  have hrelay : (r.seen s.hub).relay = r.faceless := rfl
  have hwaiting : r.faceless.isWaiting = r.isWaiting := rfl
  unfold ask? SeenRelay.ask?
  rw [hrelay, heed_faceless, hwaiting]
  cases hheed : r.heed with
  | some x => simp only [Option.map_some, seen_release hp x.1]
  | none =>
    cases hid : r.source with
    | none =>
      have hnone : r.faceless.source = none := by
        unfold faceless
        rw [hid]
        rfl
      simp only [hnone, Option.map_none]
    | some id =>
      have hsome : r.faceless.source = some 0 := by
        unfold faceless
        rw [hid]
        rfl
      simp only [hsome, Option.map_none, isReady_seen hp hid, offer_seen hp hid, accept_faceless]
      split
      · rfl
      · have hsource : (r.accept (s.receive id r.turn).1 now).1.source = some id := by
          unfold accept
          split <;> exact hid
        simp only [Option.map_some, seen, hsource, Option.bind_some]

theorem give?_seen (hp : s.Plain) (r : Relay) :
    (r.give? s).map (fun x => x.1.seen x.2.1.hub) = (r.seen s.hub).give? := by
  have hrelay : (r.seen s.hub).relay = r.faceless := rfl
  unfold give? SeenRelay.give?
  rw [hrelay, handOver_faceless, Option.map_map, Option.map_map]
  refine Option.map_congr fun x hx => ?_
  have hgive : r.give? s = some (x.1, if x.1.isEnded then x.1.release s else s, x.2) := by
    unfold give?
    rw [hx]
    rfl
  have hmoves : r.Moves s default x.1 _ := moves_of_give? hgive
  have hsource := hmoves.source_eq
  simp only [Function.comp]
  have hended : x.1.faceless.isEnded = x.1.isEnded := rfl
  rw [hended]
  split
  · exact seen_release hp x.1
  · unfold seen
    rw [hsource]

/-- A move is seen as a move of what is seen, and of nothing else. -/
theorem move?_seen (hp : s.Plain) (r : Relay) (now : Timestamp) :
    (r.move? s now).map (fun x => x.1.seen x.2.1.hub) = (r.seen s.hub).move? now := by
  have hphase : (r.seen s.hub).relay.phase = r.phase := rfl
  unfold move? SeenRelay.move?
  rw [hphase]
  cases r.phase with
  | asking => exact ask?_seen hp r now
  | waiting => exact ask?_seen hp r now
  | sending m => exact give?_seen hp r
  | reporting e o => exact give?_seen hp r
  | ended o => rfl

end Relay

end Tenancy
