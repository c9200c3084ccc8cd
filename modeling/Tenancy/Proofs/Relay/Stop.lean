import Tenancy.Proofs.Relay.Move
import Tenancy.Proofs.Store.Memory

/-!
# Relays that are stopped

A relay that is interrupted ends in its next move, wherever it stands, and gives its subscription
back (`Relay.move?_of_interrupted`). Only one that is telling its caller of a failure keeps the
outcome that it had decided on. Over stores in memory a move touches no subscription but the own one
(`Moves.twins_left`), and twins make a relay move alike (`Relay.move?_twins`).
-/

namespace Tenancy

/-- How a relay ends that stands here when it is made to stop with the outcome `o`. -/
def RelayPhase.endsAs (p : RelayPhase) (o : RelayOutcome) : RelayOutcome :=
  match p with
  | .reporting _ o' | .ended o' => o'
  | _ => o

namespace Relay

variable {r r' : Relay} {s s' s₁ : Store} {now : Timestamp} {e : Effects} {D : List Nat}

theorem isEnded_iff : r.isEnded = true ↔ ∃ o, r.phase = .ended o := by
  unfold isEnded
  split
  · rename_i o ho
    exact ⟨fun _ => ⟨o, ho⟩, fun _ => rfl⟩
  · rename_i hno
    exact ⟨(nomatch ·), fun ⟨o, ho⟩ => absurd ho (hno o)⟩

theorem isEnded_congr (h : r'.phase = r.phase) : r'.isEnded = r.isEnded := by
  unfold isEnded
  rw [h]

theorem move?_of_ended (hr : r.isEnded = true) (s : Store) (now : Timestamp) :
    r.move? s now = none := by
  obtain ⟨o, ho⟩ := isEnded_iff.1 hr
  unfold move?
  rw [ho]

theorem isSome_interruption? (r : Relay) :
    r.interruption?.isSome = (r.cancelled || !r.mailbox.isOpen) := by
  unfold interruption?
  cases r.cancelled <;> cases r.mailbox.isOpen <;> rfl

/-- An interrupted relay does not wait for anything. -/
theorem move?_of_interrupted {o : RelayOutcome} (hr : r.isEnded = false)
    (ho : r.interruption? = some o) (s : Store) (now : Timestamp) :
    ∃ e, r.move? s now =
      some ({ r with phase := .ended (r.phase.endsAs o) }, r.release s, e) := by
  have hask : r.ask? s now = some ({ r with phase := .ended o }, r.release s, (r.finish o).2) := by
    unfold ask? heed
    rw [ho]
    rfl
  unfold move? RelayPhase.endsAs
  cases hp : r.phase with
  | asking => exact ⟨_, hask⟩
  | waiting => exact ⟨_, hask⟩
  | sending m =>
    have hover : r.handOver =
        some ({ r with phase := .ended o }, .ofSamples [.relayMessage false] ++ (r.finish o).2) := by
      unfold handOver
      rw [hp, ho]
      rfl
    refine ⟨.ofSamples [.relayMessage false] ++ (r.finish o).2, ?_⟩
    simp only [give?, hover]
    rfl
  | reporting err o' =>
    have hover : r.handOver = some ({ r with phase := .ended o' }, (r.finish o').2) := by
      unfold handOver
      rw [hp, ho]
      rfl
    refine ⟨(r.finish o').2, ?_⟩
    simp only [give?, hover]
    rfl
  | ended o' =>
    rw [isEnded_iff.2 ⟨o', hp⟩] at hr
    cases hr

/-! ## Frames -/

theorem Moves.follows (h : r.Moves s now r' s₁) (hm : s.InMemory) : s.Follows s₁ := by
  cases h with
  | stop o mailbox hr =>
    unfold release
    split
    · exact .unsubscribe hm _
    · exact .refl hm
  | take id hr hphase => exact .receive hm id r.turn
  | give m hr => exact .refl hm

theorem Moves.closed_eq (h : r.Moves s now r' s₁) (hm : s.InMemory) : s₁.closed = s.closed := by
  cases h with
  | stop o mailbox hr =>
    unfold release
    split
    · exact (hm.unsubscribe_kept _).2.1
    · rfl
  | take id hr hphase => exact (hm.receive_kept id r.turn).2.1
  | give m hr => rfl

theorem Moves.channels_eq (h : r.Moves s now r' s₁) : r'.channels = r.channels := by
  cases h with
  | stop o mailbox hr => rfl
  | take id hr hphase => unfold accept; split <;> rfl
  | give m hr => rfl

/-- A relay that ends gives its subscription back, and a relay that does not end keeps it. -/
theorem Moves.find?_of_ended (h : r.Moves s now r' s₁) (hm : s.InMemory) (he : r'.isEnded = true)
    {id : Nat} (hid : r.source = some id) (j : Nat) :
    s₁.hub.find? j = if j = id then none else s.hub.find? j := by
  cases h with
  | stop o mailbox hr =>
    unfold release
    rw [hid]
    exact hm.find?_unsubscribe id j
  | take id' hr hphase =>
    have hnot : (r.accept (s.receive id' r.turn).1 now).1.isEnded = false := by
      cases (s.receive id' r.turn).1 <;> rfl
    cases hnot.symm.trans he
  | give m hr => cases he

/-- The subscription of a relay on one side is nothing to the other. -/
theorem Moves.twins_left (h : r.Moves s now r' s₁) (ht : s.Twins D s')
    (hD : ∀ id, r.source = some id → id ∈ D) : s₁.Twins D s' := by
  cases h with
  | stop o mailbox hr =>
    unfold release
    split
    · rename_i id hid
      exact ht.unsubscribe_left (hD id hid)
    · exact ht
  | take id hr hphase => exact ht.receive_left (hD id hr) r.turn
  | give m hr => exact ht

/-- A relay with a subscription that twins share cannot tell one from the other. -/
theorem move?_twins (ht : s.Twins D s') (hD : ∀ id, r.source = some id → id ∉ D)
    (now : Timestamp) :
    Option.Rel (fun x x' => x'.1 = x.1 ∧ x.2.1.Twins D x'.2.1) (r.move? s now)
      (r.move? s' now) := by
  have hrelease : (r.release s).Twins D (r.release s') := by
    unfold release
    cases r.source with
    | none => exact ht
    | some id => exact ht.unsubscribe id
  have hask : Option.Rel (fun x x' => x'.1 = x.1 ∧ x.2.1.Twins D x'.2.1) (r.ask? s now)
      (r.ask? s' now) := by
    unfold ask?
    cases hheed : r.heed with
    | some x =>
      obtain ⟨o, -, rfl⟩ := Option.map_eq_some_iff.1 hheed
      exact .some ⟨rfl, hrelease⟩
    | none =>
      cases hsource : r.source with
      | none => exact .none
      | some id =>
        have hid := hD id hsource
        obtain ⟨harrival, -, htwins⟩ := ht.receive hid r.turn
        simp only [ht.isReady_eq hid]
        split
        · exact .none
        · rw [harrival]
          exact .some ⟨rfl, htwins⟩
  have hgive : Option.Rel (fun x x' => x'.1 = x.1 ∧ x.2.1.Twins D x'.2.1) (r.give? s)
      (r.give? s') := by
    unfold give?
    cases hover : r.handOver with
    | none => exact .none
    | some x =>
      have hmoves : r.Moves s now x.1 (if x.1.isEnded then x.1.release s else s) :=
        moves_of_give? (e := x.2) (by unfold give?; rw [hover]; rfl)
      have hsource := hmoves.source_eq
      have hsame : ∀ s : Store, x.1.release s = r.release s := by
        intro s
        unfold release
        rw [hsource]
      refine .some ⟨rfl, ?_⟩
      simp only [hsame]
      split
      · exact hrelease
      · exact ht
  unfold move?
  cases r.phase with
  | asking => exact hask
  | waiting => exact hask
  | sending m => exact hgive
  | reporting err o => exact hgive
  | ended o => exact .none

end Relay

end Tenancy
