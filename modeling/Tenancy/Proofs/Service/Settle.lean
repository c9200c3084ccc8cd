import Tenancy.Proofs.Service.View

/-!
# Coming to rest, as it is seen

Where a service comes to rest is for a tenant a function of its view: the moves of others change
nothing, and which own relay moves next is seen (`Settles.unique`).
-/

namespace Tenancy

namespace View

def Rests (v : View) : Prop := ∀ x ∈ v.relays, x.move? v.clock.wall = none

/-- Moves of the first relay that can move, until none can. -/
inductive Settles (a : Tenant) : View → View → Prop where
  | rest {v : View} (h : v.Rests) : Settles a v v
  | move {v w : View} {l₁ l₂ : List SeenTask} {x x' : SeenTask} (hv : v.relays = l₁ ++ x :: l₂)
    (hnone : ∀ y ∈ l₁, y.move? v.clock.wall = none) (hx : x.move? v.clock.wall = some x')
    (h : Settles a (v.moved a l₁ x x' l₂) w) : Settles a v w

end View

namespace View.Settles

variable {a : Tenant} {v w w' : View}

theorem eq_of_rests (h : Settles a v w) (hr : v.Rests) : w = v := by
  cases h with
  | rest _ => rfl
  | move hv _ hx _ =>
    have hmem := hv ▸ List.mem_append_right _ List.mem_cons_self
    cases (hr _ hmem).symm.trans hx

/-- Where a view comes to rest is a function of the view. -/
theorem unique (h : Settles a v w) (h' : Settles a v w') : w = w' := by
  induction h generalizing w' with
  | rest hr => exact (h'.eq_of_rests hr).symm
  | @move v w l₁ l₂ x x' hv hnone hx hrest ih =>
    cases h' with
    | rest hr =>
      have hmem := hv ▸ List.mem_append_right l₁ List.mem_cons_self
      cases (hr x hmem).symm.trans hx
    | @move _ _ k₁ k₂ y y' hv' hnone' hy hrest' =>
      have hsplit := hv.symm.trans hv'
      obtain ⟨rfl, rfl, rfl⟩ := append_cons_inj (p := fun z => z.move? v.clock.wall ≠ none) hsplit
        (fun z hz hm => hm (hnone z hz)) (by simp [hx]) (fun z hz hm => hm (hnone' z hz))
        (by simp [hy])
      cases hx.symm.trans hy
      exact ih hrest'

end View.Settles

/-! ## Settling -/

namespace Service

variable {owner : Nat → Tenant} {a : Tenant}

theorem Orderly.view_rests_iff {s : Service} (ho : s.Orderly owner a) :
    (s.view a).Rests ↔
      ∀ t ∈ s.relaysOf a, t.relay.move? s.store s.clock.wall = none := by
  constructor
  · intro h t ht
    exact (seen_move?_eq_none ho.sound).1 (h _ (List.mem_map_of_mem ht))
  · intro h x hx
    obtain ⟨t, ht, rfl⟩ := List.mem_map.1 hx
    exact (seen_move?_eq_none ho.sound).2 (h t ht)

/-- With fuel for all moves, a service comes to rest where its view does. -/
theorem Orderly.settleIn {n : Nat} :
    ∀ {s : Service}, s.Orderly owner a → s.reach ≤ n →
      (settleIn n s).Orderly owner a ∧ View.Settles a (s.view a) ((Service.settleIn n s).view a) := by
  have hrest : ∀ {s : Service}, s.Orderly owner a → s.move? = none →
      View.Settles a (s.view a) (s.view a) := by
    intro s ho hmove
    refine .rest (ho.view_rests_iff.2 fun t ht => rests_of_move? hmove t ?_)
    exact (List.mem_filter.1 ht).1
  induction n with
  | zero =>
    intro s ho hn
    cases hmove : s.move? with
    | none => exact ⟨ho, hrest ho hmove⟩
    | some s' =>
      obtain ⟨l₁, t, l₂, t', hm, -⟩ := movesAt_of_move? hmove
      have := hm.reach_lt ho.sound
      omega
  | succ n ih =>
    intro s ho hn
    rw [Service.settleIn]
    cases hmove : s.move? with
    | none => exact ⟨ho, hrest ho hmove⟩
    | some s' =>
      obtain ⟨l₁, t, l₂, t', hm, hnone⟩ := movesAt_of_move? hmove
      have hlt := hm.reach_lt ho.sound
      obtain ⟨ho', hsettles⟩ := ih (hm.orderly ho) (by omega)
      refine ⟨ho', ?_⟩
      by_cases ht : t.relay.tenant = a
      · obtain ⟨hrelays, hview⟩ := hm.view_own ho ht
        refine .move hrelays (fun y hy => ?_) (seen_move? hm ho.sound) (hview ▸ hsettles)
        obtain ⟨u, hu, rfl⟩ := List.mem_map.1 hy
        exact (seen_move?_eq_none ho.sound).2 (hnone u (List.mem_filter.1 hu).1)
      · rw [← hm.view_other ho ht]
        exact hsettles

theorem Orderly.settle {s : Service} (ho : s.Orderly owner a) :
    s.settle.Orderly owner a ∧ View.Settles a (s.view a) (s.settle.view a) := by
  obtain ⟨ho', hsettles⟩ := ho.settleIn (Nat.le_refl s.reach)
  have halike := alike_deliver (Service.settleIn s.reach s)
  refine ⟨halike.orderly ho', ?_⟩
  rw [Service.settle, halike.view_eq]
  exact hsettles

end Service

end Tenancy
