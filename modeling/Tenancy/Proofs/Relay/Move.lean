import Tenancy.Proofs.Store.Plain
import Tenancy.Relay.Move

/-!
# Moves of relays

What a move can be: a relay stops, takes what its source offers, or hands a message over
(`Relay.Moves`). Over a plain store a move brings a relay closer to rest (`Moves.reach_lt`), and
leaves every other subscription as it was.
-/

namespace Tenancy

namespace Relay

/-- A move of a relay, by what becomes of it and of its store. -/
inductive Moves (r : Relay) (s : Store) (now : Timestamp) : Relay → Store → Prop where
  | stop (o : RelayOutcome) (mailbox : Mailbox) (hr : r.isEnded = false) :
    Moves r s now { r with mailbox, phase := .ended o } (r.release s)
  | take (id : Nat) (hr : r.source = some id)
    (hphase : r.phase = .asking ∨ r.phase = .waiting ∧ s.isReady id = true) :
    Moves r s now (r.accept (s.receive id r.turn).1 now).1 (s.receive id r.turn).2.2
  | give (m : RelayedMessage) (hr : r.phase = .sending m) :
    Moves r s now { r with mailbox := r.mailbox.put (.message m), phase := .asking } s

variable {r r' : Relay} {s s' : Store} {now : Timestamp} {e : Effects}

/-- A relay that has ended makes no move. -/
theorem Moves.unended (h : r.Moves s now r' s') : r.isEnded = false := by
  cases h with
  | stop o mailbox hr => exact hr
  | take id hr hphase =>
    unfold isEnded
    rcases hphase with hp | ⟨hp, -⟩ <;> rw [hp]
  | give m hr =>
    unfold isEnded
    rw [hr]

theorem moves_of_ask? (hphase : r.phase = .asking ∨ r.phase = .waiting)
    (h : r.ask? s now = some (r', s', e)) : r.Moves s now r' s' := by
  have hended : r.isEnded = false := by
    unfold isEnded
    rcases hphase with hp | hp <;> rw [hp]
  unfold ask? at h
  split at h
  · rename_i r₁ e₁ hheed
    obtain ⟨o, -, ho⟩ := Option.map_eq_some_iff.1 hheed
    cases h
    cases ho
    exact .stop o r.mailbox hended
  · cases h
  · rename_i id hheed hsource
    split at h
    · cases h
    · rename_i hready
      have hready' : r.phase = .asking ∨ r.phase = .waiting ∧ s.isReady id = true := by
        rcases hphase with hp | hp
        · exact .inl hp
        · refine .inr ⟨hp, ?_⟩
          have hw : r.isWaiting = true := by
            unfold isWaiting
            rw [hp]
          rw [hw] at hready
          cases hr : s.isReady id with
          | true => rfl
          | false => exact absurd (by rw [hr]; rfl) hready
      cases h
      exact .take id hsource hready'

theorem moves_of_give? (h : r.give? s = some (r', s', e)) : r.Moves s now r' s' := by
  obtain ⟨⟨r₁, e₁⟩, hover, heq⟩ := Option.map_eq_some_iff.1 h
  cases heq
  unfold handOver at hover
  split at hover
  · rename_i m hp
    have hended : r.isEnded = false := by
      unfold isEnded
      rw [hp]
    split at hover
    · rename_i o ho
      cases hover
      exact .stop o r.mailbox hended
    · split at hover
      · cases hover
        exact .give m hp
      · cases hover
  · rename_i err o hp
    have hended : r.isEnded = false := by
      unfold isEnded
      rw [hp]
    split at hover
    · cases hover
      exact .stop o r.mailbox hended
    · split at hover
      · cases hover
        exact .stop o _ hended
      · cases hover
  · cases hover

/-- The inversion of `move?`. -/
theorem moves_of_move? (h : r.move? s now = some (r', s', e)) : r.Moves s now r' s' := by
  unfold move? at h
  split at h
  · rename_i hp
    exact moves_of_ask? (.inl hp) h
  · rename_i hp
    exact moves_of_ask? (.inr hp) h
  · exact moves_of_give? h
  · exact moves_of_give? h
  · cases h

/-- How far from rest a relay is after it took what its source offered. -/
theorem weight_accept (a : Arrival) :
    (r.accept a now).1.weight =
      match a with
      | .message _ => 4
      | .nothing => 2
      | _ => 1 := by
  cases a <;> rfl

/-- Taking brings a relay closer to rest: it has a message less to take, or is told that there is
nothing, which a relay that waits already is told only at the end. -/
theorem reach_accept_lt (hp : s.Plain) {id : Nat} (hr : r.source = some id)
    (hphase : r.phase = .asking ∨ r.phase = .waiting ∧ s.isReady id = true) :
    (r.accept (s.receive id r.turn).1 now).1.reach (s.receive id r.turn).2.2 < r.reach s := by
  have hplain : ({ s with hub := (s.hub.receive id r.turn).2.2 } : Store).Plain :=
    hp.withHub (hp.tidy.receive id r.turn)
  have hsource : (r.accept (s.receive id r.turn).1 now).1.source = some id := by
    unfold accept
    split <;> exact hr
  have hweight : 2 ≤ r.weight := by
    rcases hphase with h | ⟨h, -⟩ <;> simp [weight, h]
  have hafter := Hub.find?_receive (h := s.hub) id r.turn id
  rw [if_pos rfl] at hafter
  unfold reach
  rw [hsource, hr, weight_accept, hp.receive_eq]
  simp only [Option.map_some, Option.getD_some, hplain.waiting_eq, hp.waiting_eq, hafter]
  cases hf : s.hub.find? id with
  | none =>
    rw [Hub.receive_of_none hf]
    simp only [Arrival.ofDelivery, Option.map_none, Option.getD_none]
    omega
  | some t =>
    have hwhole := hp.tidy.whole t (Hub.mem_of_find? hf).1
    rw [Hub.receive_of_some hf]
    simp only [Option.map_some, Option.getD_some]
    rcases t.receive_cases r.turn with ⟨c, m, lag, htake, hrec⟩ | ⟨hnone, hrec⟩
    · have hless := hwhole.waiting_taken htake
      simp only [hrec, Arrival.ofDelivery]
      omega
    · cases hover : t.isOver with
      | true =>
        simp only [hrec, hover, Arrival.ofDelivery, if_true]
        omega
      | false =>
        have hasks : r.phase = .asking := by
          rcases hphase with h | ⟨-, hready⟩
          · exact h
          · have hpos : 0 < t.waiting := by
              unfold Store.isReady at hready
              simpa [hf, hp.line?_eq, hover] using hready
            obtain ⟨c, m, lag, -, hrec'⟩ :=
              Subscription.takes_of_nodup hwhole.channels_nodup hpos r.turn
            simp [hrec, hover] at hrec'
        have hthree : r.weight = 3 := by
          unfold weight
          rw [hasks]
        simp only [hrec, hover, Arrival.ofDelivery, Bool.false_eq_true, if_false]
        omega

namespace Moves

theorem tenant_eq (h : r.Moves s now r' s') : r'.tenant = r.tenant := by
  cases h with
  | stop o mailbox hr => rfl
  | take id hr hphase => unfold accept; split <;> rfl
  | give m hr => rfl

theorem source_eq (h : r.Moves s now r' s') : r'.source = r.source := by
  cases h with
  | stop o mailbox hr => rfl
  | take id hr hphase => unfold accept; split <;> rfl
  | give m hr => rfl

/-- A move changes the hub of a plain store, if anything. -/
theorem store_eq (h : r.Moves s now r' s') (hp : s.Plain) : s' = { s with hub := s'.hub } := by
  cases h with
  | stop o mailbox hr =>
    unfold release
    split
    · rw [hp.unsubscribe_eq]
    · rfl
  | take id hr hphase => rw [hp.receive_eq]
  | give m hr => rfl

theorem tidy (h : r.Moves s now r' s') (hp : s.Plain) : s'.hub.Tidy := by
  cases h with
  | stop o mailbox hr =>
    unfold release
    split
    · rw [hp.unsubscribe_eq]
      exact hp.tidy.unsubscribe _
    · exact hp.tidy
  | take id hr hphase =>
    rw [hp.receive_eq]
    exact hp.tidy.receive id r.turn
  | give m hr => exact hp.tidy

theorem plain (h : r.Moves s now r' s') (hp : s.Plain) : s'.Plain :=
  h.store_eq hp ▸ hp.withHub (h.tidy hp)

theorem nextId_eq (h : r.Moves s now r' s') (hp : s.Plain) :
    s'.hub.nextId = s.hub.nextId ∧ s'.hub.capacity = s.hub.capacity := by
  cases h with
  | stop o mailbox hr =>
    unfold release
    split
    · rw [hp.unsubscribe_eq]
      exact (hp.tidy.unsubscribe_capacity _).symm
    · exact ⟨rfl, rfl⟩
  | take id hr hphase =>
    rw [hp.receive_eq]
    exact (Hub.receive_counts id r.turn).2
  | give m hr => exact ⟨rfl, rfl⟩

/-- The frame of a move: it touches no subscription but its own. -/
theorem find?_eq (h : r.Moves s now r' s') (hp : s.Plain) {j : Nat} (hj : r.source ≠ some j) :
    s'.hub.find? j = s.hub.find? j := by
  cases h with
  | stop o mailbox hr =>
    unfold release
    split
    · rename_i id hid
      have hne : j ≠ id := fun e => hj (e ▸ hid)
      rw [hp.unsubscribe_eq]
      exact (hp.tidy.find?_unsubscribe id j).trans (if_neg hne)
    · rfl
  | take id hr hphase =>
    have hne : j ≠ id := fun e => hj (e ▸ hr)
    rw [hp.receive_eq]
    exact (Hub.find?_receive id r.turn j).trans (if_neg hne)
  | give m hr => rfl

/-- What is left of its own subscription listens where it did. -/
theorem find?_own (h : r.Moves s now r' s') (hp : s.Plain) {id : Nat} (hid : r.source = some id)
    {t : Subscription} (ht : s'.hub.find? id = some t) :
    ∃ t₀, s.hub.find? id = some t₀ ∧ t.ears = t₀.ears := by
  cases h with
  | stop o mailbox hr =>
    have hnone : (r.release s).hub.find? id = none := by
      unfold release
      rw [hid]
      simp only [hp.unsubscribe_eq]
      exact (hp.tidy.find?_unsubscribe id id).trans (if_pos rfl)
    cases hnone.symm.trans ht
  | take j hr hphase =>
    cases hid.symm.trans hr
    rw [hp.receive_eq] at ht
    have hrec := (Hub.find?_receive id r.turn id).symm.trans ht
    rw [if_pos rfl] at hrec
    obtain ⟨t₀, h₀, rfl⟩ := Option.map_eq_some_iff.1 hrec
    exact ⟨t₀, h₀, t₀.ears_receive r.turn⟩
  | give m hr => exact ⟨t, ht, rfl⟩

/-- The listeners on a channel change by what the subscription of the relay changes. -/
theorem listeners_shift (h : r.Moves s now r' s') (hp : s.Plain) (c : String) :
    s.hub.listeners c + ((r.source.bind s'.hub.find?).map (·.listens c)).getD 0 =
      s'.hub.listeners c + ((r.source.bind s.hub.find?).map (·.listens c)).getD 0 := by
  cases h with
  | stop o mailbox hr =>
    unfold release
    split
    · rename_i id hid
      have hnone : (s.hub.unsubscribe id).find? id = none :=
        (hp.tidy.find?_unsubscribe id id).trans (if_pos rfl)
      have hsum := hp.tidy.listeners_unsubscribe id c
      rw [hp.unsubscribe_eq, hid, Option.bind_some, Option.bind_some, hnone]
      exact hsum
    · rfl
  | take id hr hphase =>
    have hsame := hp.tidy.listeners_receive id r.turn c
    have hown : ((s.hub.receive id r.turn).2.2.find? id).map (·.listens c) =
        (s.hub.find? id).map (·.listens c) := by
      rw [Hub.find?_receive, if_pos rfl, Option.map_map]
      refine Option.map_congr fun t _ => ?_
      rw [Function.comp, Subscription.listens_eq_countP_ears, t.ears_receive,
        ← Subscription.listens_eq_countP_ears]
    rw [hp.receive_eq, hr, Option.bind_some, Option.bind_some, hown, hsame]
  | give m hr => rfl

/-! ## The way to rest -/

/-- A move leaves nothing of a stopped relay to take, takes one message, or takes nothing. -/
theorem reach_lt (h : r.Moves s now r' s') (hp : s.Plain) : r'.reach s' < r.reach s := by
  cases h with
  | stop o mailbox hr =>
    have hwaiting : (r.source.map (r.release s).waiting).getD 0 = 0 := by
      unfold release
      cases hid : r.source with
      | none => rfl
      | some id =>
        have hplain : ({ s with hub := s.hub.unsubscribe id } : Store).Plain :=
          hp.withHub (hp.tidy.unsubscribe id)
        have hnone : (s.hub.unsubscribe id).find? id = none :=
          (hp.tidy.find?_unsubscribe id id).trans (if_pos rfl)
        simp only [hp.unsubscribe_eq, Option.map_some, Option.getD_some, hplain.waiting_eq, hnone]
        rfl
    have hweight : 0 < r.weight := by
      unfold isEnded at hr
      unfold weight
      cases hphase : r.phase with
      | ended o => simp [hphase] at hr
      | _ => simp
    simp only [reach, hwaiting]
    unfold weight at hweight ⊢
    simp only
    omega
  | take id hr hphase => exact reach_accept_lt hp hr hphase
  | give m hr =>
    simp only [reach, weight, hr]
    omega

end Moves

end Relay

end Tenancy
