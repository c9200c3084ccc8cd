/-!
# Lists

Facts about lists that several modules use.
-/

namespace Tenancy

variable {α : Type}

theorem map_eq_self {f : α → α} {l : List α} (h : ∀ a ∈ l, f a = a) : l.map f = l := by
  induction l with
  | nil => rfl
  | cons a l ih =>
    rw [List.map_cons, h a List.mem_cons_self, ih fun b hb => h b (List.mem_cons_of_mem a hb)]

/-- Looking for what can only be among the elements kept. -/
theorem find?_filter_of_imp {p q : α → Bool} {l : List α}
    (h : ∀ a ∈ l, q a = true → p a = true) : (l.filter p).find? q = l.find? q := by
  induction l with
  | nil => rfl
  | cons a l ih =>
    have hl := ih fun b hb => h b (List.mem_cons_of_mem a hb)
    by_cases hq : q a = true
    · have hp := h a List.mem_cons_self hq
      rw [List.filter_cons_of_pos hp, List.find?_cons_of_pos hq, List.find?_cons_of_pos hq]
    · rw [List.find?_cons_of_neg hq]
      by_cases hp : p a = true
      · rw [List.filter_cons_of_pos hp, List.find?_cons_of_neg hq, hl]
      · rw [List.filter_cons_of_neg hp, hl]

/-- The first element with a property is where it is, whatever the list is split into. -/
theorem append_cons_inj {p : α → Prop} {l₁ l₂ k₁ k₂ : List α} {x y : α}
    (h : l₁ ++ x :: l₂ = k₁ ++ y :: k₂) (hl : ∀ a ∈ l₁, ¬ p a) (hx : p x) (hk : ∀ a ∈ k₁, ¬ p a)
    (hy : p y) : l₁ = k₁ ∧ x = y ∧ l₂ = k₂ := by
  induction l₁ generalizing k₁ with
  | nil =>
    cases k₁ with
    | nil =>
      obtain ⟨rfl, rfl⟩ := List.cons.inj h
      exact ⟨rfl, rfl, rfl⟩
    | cons b k₁ =>
      obtain ⟨rfl, -⟩ := List.cons.inj h
      exact absurd hx (hk x List.mem_cons_self)
  | cons b l₁ ih =>
    cases k₁ with
    | nil =>
      obtain ⟨rfl, -⟩ := List.cons.inj h
      exact absurd hy (hl b List.mem_cons_self)
    | cons c k₁ =>
      obtain ⟨rfl, htail⟩ := List.cons.inj h
      obtain ⟨rfl, rfl, rfl⟩ := ih htail (fun a ha => hl a (List.mem_cons_of_mem b ha))
        fun a ha => hk a (List.mem_cons_of_mem b ha)
      exact ⟨rfl, rfl, rfl⟩

end Tenancy
