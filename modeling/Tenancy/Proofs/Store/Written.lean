import Tenancy.Proofs.Store.Books

/-!
# What operations write

Each operation leaves entries that were held before, and at most one that it wrote. What it wrote does
not end before the time of the operation (`Store.addsFrom_call`).
-/

namespace Tenancy

variable {now : Instant}

theorem Entry.le_deadlineAfter (ttl : Option Span) {d : Instant}
    (h : deadlineAfter now ttl = some d) : now ≤ d := by
  obtain ⟨span, -, hafter⟩ := Option.bind_eq_some_iff.1 h
  cases (Instant.after?_eq_some_iff.1 hafter).2
  exact Nat.le_add_right _ _

/-! ## Entries -/

namespace Entries

variable {es es' es'' : Entries} {k : String} {e : Entry}

theorem mem_insert {k' : String} {e' : Entry} (h : (k', e') ∈ insert k e es) :
    (k', e') ∈ es ∨ k' = k ∧ e' = e := by
  induction es with
  | nil =>
    cases List.mem_singleton.1 h
    exact .inr ⟨rfl, rfl⟩
  | cons z rest ih =>
    obtain ⟨k₀, old⟩ := z
    rw [insert] at h
    split at h
    · rcases List.mem_cons.1 h with he | hm
      · cases he
        exact .inr ⟨rfl, rfl⟩
      · exact .inl (List.mem_cons_of_mem _ hm)
    · rcases List.mem_cons.1 h with he | hm
      · exact .inl (he ▸ List.mem_cons_self)
      · exact (ih hm).imp (List.mem_cons_of_mem _) id

theorem erase_subset (es : Entries) (k : String) : es.erase k ⊆ es := List.filter_subset_self _

theorem purge_subset (es : Entries) (now : Instant) : (es.purge now).2 ⊆ es :=
  List.filter_subset_self _

theorem get_subset (es : Entries) (now : Instant) (k : String) : (es.get now k).2 ⊆ es := by
  unfold get
  split
  · exact List.Subset.refl es
  · split
    · exact es.erase_subset k
    · exact List.Subset.refl es

theorem delete_subset (es : Entries) (now : Instant) (k : String) : (es.delete now k).2 ⊆ es := by
  unfold delete
  split
  · exact List.Subset.refl es
  · exact es.erase_subset k

theorem compareAndDelete_subset (es : Entries) (now : Instant) (k v : String) :
    (es.compareAndDelete now k v).2 ⊆ es := by
  unfold compareAndDelete
  split
  · split
    · exact es.erase_subset k
    · exact List.Subset.refl es
  · exact List.Subset.refl es

theorem mem_setIfAbsent {v k' : String} {ttl : Option Span} {e' : Entry}
    (h : (k', e') ∈ (es.setIfAbsent now k v ttl).2) :
    (k', e') ∈ es ∨ (es.setIfAbsent now k v ttl).1 = true ∧
      k' = k ∧ e' = ⟨v, Entry.deadlineAfter now ttl⟩ := by
  unfold setIfAbsent at h ⊢
  split at h
  · exact .inl h
  · exact (mem_insert h).imp_right fun hnew => ⟨rfl, hnew⟩

theorem mem_compareAndExpire {v k' : String} {ttl : Span} {e' : Entry}
    (h : (k', e') ∈ (es.compareAndExpire now k v ttl).2) :
    (k', e') ∈ es ∨ (es.compareAndExpire now k v ttl).1 = true ∧
      k' = k ∧ e' = ⟨v, Entry.deadlineAfter now (some ttl)⟩ := by
  unfold compareAndExpire at h ⊢
  cases hl : es.live? k now with
  | none =>
    rw [hl] at h
    exact .inl h
  | some held =>
    simp only [hl] at h ⊢
    by_cases hv : held.value = v
    · rw [if_pos hv, hv] at h
      rw [if_pos hv]
      exact (mem_insert h).imp_right fun hnew => ⟨rfl, hnew⟩
    · rw [if_neg hv] at h
      exact .inl h

/-- What is new in `es'` does not end before `now`. -/
def AddsFrom (now : Instant) (es es' : Entries) : Prop :=
  ∀ k e, (k, e) ∈ es' → (k, e) ∈ es ∨ ∀ d, e.deadline = some d → now ≤ d

theorem addsFrom_of_subset (h : es' ⊆ es) : es.AddsFrom now es' := fun _ _ he => .inl (h he)

theorem AddsFrom.trans (h : es.AddsFrom now es') (h' : es'.AddsFrom now es'') :
    es.AddsFrom now es'' :=
  fun k e he => (h' k e he).elim (h k e) .inr

theorem addsFrom_insert (es : Entries) (k v : String) (ttl : Option Span) :
    es.AddsFrom now (insert k ⟨v, Entry.deadlineAfter now ttl⟩ es) := by
  intro k' e he
  refine (mem_insert he).imp_right ?_
  rintro ⟨rfl, rfl⟩ d hd
  exact Entry.le_deadlineAfter ttl hd

theorem addsFrom_setIfAbsent (es : Entries) (k v : String) (ttl : Option Span) :
    es.AddsFrom now (es.setIfAbsent now k v ttl).2 := by
  intro k' e he
  refine (mem_setIfAbsent he).imp_right ?_
  rintro ⟨-, rfl, rfl⟩ d hd
  exact Entry.le_deadlineAfter ttl hd

theorem addsFrom_compareAndExpire (es : Entries) (k v : String) (ttl : Span) :
    es.AddsFrom now (es.compareAndExpire now k v ttl).2 := by
  intro k' e he
  refine (mem_compareAndExpire he).imp_right ?_
  rintro ⟨-, rfl, rfl⟩ d hd
  exact Entry.le_deadlineAfter (some ttl) hd

theorem addsFrom_expire (es : Entries) (k : String) (ttl : Span) :
    es.AddsFrom now (es.expire now k ttl).2 := by
  unfold expire
  split
  · exact es.addsFrom_insert k _ (some ttl)
  · exact addsFrom_of_subset (List.Subset.refl es)

end Entries

/-! ## Stores -/

namespace Store

variable {s : Store}

/-- The store with what a call adds to its entries. -/
def AddsFrom (now : Instant) (s s' : Store) : Prop := s.entries.AddsFrom now s'.entries

theorem addsFrom_of_eq {s' : Store} (h : s'.entries = s.entries) : s.AddsFrom now s' :=
  Entries.addsFrom_of_subset (h ▸ List.Subset.refl _)

theorem addsFrom_onEntries {α : Type} {f : Entries → α × Entries}
    (h : s.entries.AddsFrom now (f s.entries).2) : s.AddsFrom now (s.onEntries f).2 := by
  unfold onEntries
  split
  · exact addsFrom_of_eq rfl
  · exact h

theorem entries_publish (s : Store) (channel payload : String) :
    (s.publish channel payload).2.entries = s.entries := by
  unfold publish
  split <;> rfl

theorem entries_subscribe (s : Store) (channels : List String) :
    (s.subscribe channels).2.entries = s.entries := by
  unfold subscribe
  split <;> rfl

theorem entries_passTurn (s : Store) (id : Nat) : (s.passTurn id).entries = s.entries := by
  unfold passTurn
  split <;> rfl

theorem entries_receive (s : Store) (id turn : Nat) :
    (s.receive id turn).2.2.entries = s.entries := by
  unfold receive
  split
  · rfl
  · split
    · rfl
    · split
      · rfl
      · split <;> rfl

theorem addsFrom_call (s : Store) (now : Instant) (c : StoreCall) :
    s.AddsFrom now (s.call now c).2 := by
  cases c with
  | get key =>
    exact addsFrom_onEntries (Entries.addsFrom_of_subset (s.entries.get_subset now key))
  | set key value ttl => exact addsFrom_onEntries (s.entries.addsFrom_insert key value ttl)
  | setIfAbsent key value ttl =>
    exact addsFrom_onEntries (s.entries.addsFrom_setIfAbsent key value ttl)
  | delete key =>
    exact addsFrom_onEntries (Entries.addsFrom_of_subset (s.entries.delete_subset now key))
  | compareAndDelete key expected =>
    exact addsFrom_onEntries
      (Entries.addsFrom_of_subset (s.entries.compareAndDelete_subset now key expected))
  | compareAndExpire key expected ttl =>
    exact addsFrom_onEntries (s.entries.addsFrom_compareAndExpire key expected ttl)
  | expire key ttl => exact addsFrom_onEntries (s.entries.addsFrom_expire key ttl)
  | publish channel payload => exact addsFrom_of_eq (s.entries_publish channel payload)
  | subscribe channels => exact addsFrom_of_eq (s.entries_subscribe channels)
  | ping => exact addsFrom_of_eq rfl

end Store

end Tenancy
