import Mathlib.Data.List.TakeWhile
import Tenancy.Proofs.Service.Session

/-!
# Turns, as tenants see them

Turns are to tenants what steps are: the service stays orderly, others do not see them, and what a
tenant sees decides what its own turns come to.
-/

namespace Tenancy

namespace Turn

def actor? (owner : Nat → Tenant) : Turn → Option Tenant
  | act x => x.actor? owner
  | take handle | move handle => some (owner handle)
  | wall _ => none

/-- The turns of a session. Readers take items one by one. -/
def InSession (owner : Nat → Tenant) : Turn → Prop
  | act (.read _ _) => False
  | act x => x.InSession owner
  | _ => True

end Turn

namespace Service

variable {owner : Nat → Tenant} {s s' : Service} {a : Tenant} {handle : Nat}

/-! ## Moves by handle -/

/-- Either no relay has the handle, or the first that has it moves or cannot. -/
theorem moveOf?_cases (s : Service) (handle : Nat) :
    (s.moveOf? handle = none ∧ ∀ t ∈ s.relays, t.handle ≠ handle) ∨
    ∃ l₁ t l₂, s.relays = l₁ ++ t :: l₂ ∧ t.handle = handle ∧ (∀ u ∈ l₁, u.handle ≠ handle) ∧
      ((s.moveOf? handle = none ∧ t.relay.move? s.store s.clock.wall = none) ∨
        ∃ t' s₁, s.moveOf? handle = some s₁ ∧ s.MovesAt l₁ t l₂ t' s₁) := by
  unfold moveOf?
  cases hi : s.relays.findIdx? (·.handle = handle) with
  | none =>
    refine .inl ⟨rfl, fun t ht => ?_⟩
    simpa using List.findIdx?_eq_none_iff.1 hi t ht
  | some i =>
    obtain ⟨hlt, hhandle, hbefore⟩ := List.findIdx?_eq_some_iff_getElem.1 hi
    have hsplit : s.relays = s.relays.take i ++ s.relays[i] :: s.relays.drop (i + 1) := by
      rw [List.getElem_cons_drop, List.take_append_drop]
    have hlen : (s.relays.take i).length = i := List.length_take_of_le (Nat.le_of_lt hlt)
    have hnone : ∀ u ∈ s.relays.take i, u.handle ≠ handle := by
      intro u hu
      obtain ⟨j, hj, rfl⟩ := List.mem_iff_getElem.1 hu
      have hji : j < i := by omega
      simpa using hbefore j hji
    refine .inr ⟨_, _, _, hsplit, of_decide_eq_true hhandle, hnone, ?_⟩
    rw [Option.bind_some]
    cases hm : s.moveAt? i with
    | none => exact .inl ⟨rfl, moveAt?_eq_none hsplit (hlen.symm ▸ hm)⟩
    | some s₁ =>
      obtain ⟨l₁, t, l₂, t', hlen', hmoves⟩ := movesAt_of_moveAt? hm
      have heq := hsplit.symm.trans hmoves.relays_eq
      obtain ⟨rfl, htail⟩ := List.append_inj heq (hlen.trans hlen'.symm)
      obtain ⟨rfl, rfl⟩ := List.cons.inj htail
      exact .inr ⟨t', s₁, rfl, hmoves⟩

end Service

/-- The move of the relay with the given handle, as it is seen. -/
def View.moveOf? (v : View) (a : Tenant) (handle : Nat) : Option View :=
  match v.relays.dropWhile (·.task.handle ≠ handle) with
  | [] => none
  | x :: l₂ =>
    (x.move? v.clock.wall).map fun x' =>
      v.moved a (v.relays.takeWhile (·.task.handle ≠ handle)) x x' l₂

namespace Service

variable {owner : Nat → Tenant} {s s' : Service} {a : Tenant} {handle : Nat}

theorem Orderly.view_moveOf? (ho : s.Orderly owner a) (hh : owner handle = a) :
    (s.moveOf? handle).map (·.view a) = (s.view a).moveOf? a handle := by
  unfold View.moveOf?
  rcases s.moveOf?_cases handle with ⟨hnone, hall⟩ | ⟨l₁, t, l₂, hsplit, hhandle, hbefore, hcase⟩
  · have hdrop : (s.view a).relays.dropWhile (·.task.handle ≠ handle) = [] := by
      refine List.dropWhile_eq_nil_iff.2 fun v hv => ?_
      obtain ⟨t, ht, rfl⟩ := List.mem_map.1 hv
      exact decide_eq_true (hall t (List.mem_filter.1 ht).1)
    rw [hnone, hdrop]
    rfl
  · have hmem : t ∈ s.relays := by
      rw [hsplit]
      exact List.mem_append_right l₁ List.mem_cons_self
    have htenant : t.relay.tenant = a := by rw [ho.tenant_of_handle hmem, hhandle, hh]
    have hrelays : (s.view a).relays =
        (l₁.filter (·.relay.tenant = a)).map (·.seen s.store.hub) ++
          t.seen s.store.hub :: (l₂.filter (·.relay.tenant = a)).map (·.seen s.store.hub) := by
      show (s.relaysOf a).map (·.seen s.store.hub) = _
      unfold relaysOf
      rw [hsplit, List.filter_append, List.filter_cons_of_pos (by simpa using htenant),
        List.map_append, List.map_cons]
    have hfirst : ∀ v ∈ (l₁.filter (·.relay.tenant = a)).map (·.seen s.store.hub),
        decide (v.task.handle ≠ handle) = true := by
      intro v hv
      obtain ⟨u, hu, rfl⟩ := List.mem_map.1 hv
      exact decide_eq_true (hbefore u (List.mem_filter.1 hu).1)
    have hself : ¬ decide ((t.seen s.store.hub).task.handle ≠ handle) = true := by
      have hsame : (t.seen s.store.hub).task.handle = t.handle := rfl
      simp [hsame, hhandle]
    rw [hrelays, List.dropWhile_append_of_pos hfirst, List.takeWhile_append_of_pos hfirst,
      List.dropWhile_cons_of_neg (p := fun v : SeenTask => decide (v.task.handle ≠ handle)) hself,
      List.takeWhile_cons_of_neg (p := fun v : SeenTask => decide (v.task.handle ≠ handle)) hself,
      List.append_nil]
    have hclock : (s.view a).clock = s.clock := rfl
    simp only [hclock]
    rcases hcase with ⟨hnone, hrest⟩ | ⟨t', s₁, hsome, hm⟩
    · rw [hnone, (seen_move?_eq_none ho.sound).2 hrest]
      rfl
    · rw [hsome, seen_move? hm ho.sound, Option.map_some, Option.map_some, (hm.view_own ho htenant).2]

theorem Orderly.moveOf? (ho : s.Orderly owner a) {s₁ : Service} (h : s.moveOf? handle = some s₁) :
    s₁.Orderly owner a := by
  obtain ⟨i, -, hi⟩ := Option.bind_eq_some_iff.1 h
  obtain ⟨l₁, t, l₂, t', -, hm⟩ := movesAt_of_moveAt? hi
  exact hm.orderly ho

theorem Orderly.view_moveOf?_other (ho : s.Orderly owner a) (hh : owner handle ≠ a) {s₁ : Service}
    (h : s.moveOf? handle = some s₁) : s₁.view a = s.view a := by
  rcases s.moveOf?_cases handle with ⟨hnone, -⟩ | ⟨l₁, t, l₂, hsplit, hhandle, -, hcase⟩
  · cases hnone.symm.trans h
  · rcases hcase with ⟨hnone, -⟩ | ⟨t', s₂, hsome, hm⟩
    · cases hnone.symm.trans h
    · cases hsome.symm.trans h
      refine hm.view_other ho fun htenant => hh ?_
      rw [← htenant, ho.tenant_of_handle hm.mem_moved, hhandle]

/-! ## Turns of a session -/

theorem pick_congr (ho : s.Orderly owner a) (ho' : s'.Orderly owner a) (hv : s.view a = s'.view a)
    (hh : owner handle = a) :
    (s.pick handle).1 = (s'.pick handle).1 ∧
      (s.pick handle).2.view a = (s'.pick handle).2.view a := by
  have hpick := picked?_congr ho ho' hv hh
  have hended := relay?_congr (·.isEnded) (fun _ => rfl) ho ho' hv hh
  unfold pick
  rw [hasReader_congr ho ho' hv hh, hended]
  split
  · cases hp : s.picked? handle with
    | none =>
      rw [hp] at hpick
      rw [Option.map_eq_none_iff.1 hpick.symm]
      exact ⟨rfl, hv⟩
    | some x =>
      rw [hp, Option.map_some] at hpick
      obtain ⟨x', hp', hx'⟩ := Option.map_eq_some_iff.1 hpick.symm
      obtain ⟨hitem, hview⟩ := Prod.mk.inj hx'
      rw [hp']
      exact ⟨congrArg (fun i => Answer.read [i] false) hitem.symm, hview.symm⟩
  · exact ⟨rfl, hv⟩

theorem Orderly.pick (ho : s.Orderly owner a) (handle : Nat) :
    (s.pick handle).2.Orderly owner a ∧
      (owner handle ≠ a → (s.pick handle).2.view a = s.view a) := by
  unfold Service.pick
  split
  · cases hp : s.picked? handle with
    | none => exact ⟨ho, fun _ => rfl⟩
    | some x => exact ⟨ho.picked? hp, fun hh => ho.view_picked?_other hh hp⟩
  · exact ⟨ho, fun _ => rfl⟩

variable {x : Turn}

theorem Orderly.turn (ho : s.Orderly owner a) (hx : x.InSession owner)
    (hapart : a.ApartFrom (x.actor? owner)) :
    (s.turn x).2.Orderly owner a := by
  cases x with
  | act x =>
    have hx' : x.InSession owner := by
      cases x with
      | read => exact absurd hx id
      | _ => exact hx
    exact ho.act hx' hapart
  | take handle => exact (ho.pick handle).1
  | move handle =>
    rw [Service.turn]
    cases hm : s.moveOf? handle with
    | none => exact ho
    | some s₁ => exact ho.moveOf? hm
  | wall now => exact ⟨⟨ho.sound.plain, ho.sound.sources_nodup, ho.sound.sources_lt⟩, ho.unswept,
      ho.owner_eq, ho.apart, ho.within⟩

theorem Orderly.view_turn_other (ho : s.Orderly owner a) (hx : x.InSession owner) {b : Tenant}
    (hb : x.actor? owner = some b) (hne : b ≠ a) (hapart : a.Apart b) :
    (s.turn x).2.view a = s.view a := by
  cases x with
  | act x =>
    refine ho.view_act_other hb hne hapart fun handle limit he => ?_
    subst he
    exact absurd hx id
  | take handle =>
    cases hb
    exact (ho.pick handle).2 hne
  | move handle =>
    cases hb
    rw [Service.turn]
    cases hm : s.moveOf? handle with
    | none => rfl
    | some s₁ => exact ho.view_moveOf?_other hne hm
  | wall now => cases hb

theorem turn_congr (ho : s.Orderly owner a) (ho' : s'.Orderly owner a) (hv : s.view a = s'.view a)
    (hx : x.InSession owner) (hactor : ∀ b, x.actor? owner = some b → b = a) :
    (s.turn x).2.view a = (s'.turn x).2.view a ∧
      (x.actor? owner = some a → (s.turn x).1 = (s'.turn x).1) := by
  cases x with
  | act x =>
    have hx' : x.InSession owner := by
      cases x with
      | read => exact absurd hx id
      | _ => exact hx
    exact act_congr ho ho' hv hx' hactor
  | take handle =>
    obtain ⟨hans, hview⟩ := pick_congr ho ho' hv (hactor (owner handle) rfl)
    exact ⟨hview, fun _ => hans⟩
  | move handle =>
    have hh := hactor (owner handle) rfl
    have hmove : (s.moveOf? handle).map (·.view a) = (s'.moveOf? handle).map (·.view a) := by
      rw [ho.view_moveOf? hh, ho'.view_moveOf? hh, hv]
    rw [Service.turn, Service.turn]
    cases hm : s.moveOf? handle with
    | none =>
      rw [hm] at hmove
      rw [Option.map_eq_none_iff.1 hmove.symm]
      exact ⟨hv, fun _ => rfl⟩
    | some s₁ =>
      rw [hm, Option.map_some] at hmove
      obtain ⟨s₁', hm', hview⟩ := Option.map_eq_some_iff.1 hmove.symm
      rw [hm']
      exact ⟨hview.symm, fun _ => rfl⟩
  | wall now =>
    have hw : ∀ v v' : View, v = v' →
        ({ v with clock := { v.clock with wall := now } } : View) =
          { v' with clock := { v'.clock with wall := now } } := by
      rintro v _ rfl
      rfl
    exact ⟨hw _ _ hv, fun h => by cases h⟩

end Service

end Tenancy
