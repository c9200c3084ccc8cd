import Tenancy.Store.Entries

/-!
# Live entries

What a caller can learn of held entries is `Entries.live?`. Each operation is described by its
answer and by the live entries it leaves, both in terms of the live entries it finds, so an entry
that is expired and still held never matters. `Entries.Distinct` says that each key is held once;
every operation keeps it.
-/

namespace Tenancy

/-! ## Time -/

namespace Instant

theorem le_refl (t : Instant) : t ≤ t := Nat.le_refl t.ns

theorem le_trans {a b c : Instant} (hab : a ≤ b) (hbc : b ≤ c) : a ≤ c := Nat.le_trans hab hbc

theorem after?_eq_some_iff {t t' : Instant} {d : Span} :
    t.after? d = some t' ↔ t.ns + d.ns ≤ last.ns ∧ ⟨t.ns + d.ns⟩ = t' := by
  unfold after?
  rw [Option.ite_none_right_eq_some, Option.some.injEq]

end Instant

namespace Entry

theorem isExpired_iff {e : Entry} {now : Instant} :
    e.isExpired now = true ↔ ∃ d, e.deadline = some d ∧ d ≤ now := by
  unfold isExpired
  cases e.deadline with
  | none => simp
  | some d => simp

/-- What is expired stays expired. -/
theorem isExpired_mono {e : Entry} {now later : Instant} (h : now ≤ later)
    (he : e.isExpired now = true) : e.isExpired later = true := by
  obtain ⟨d, hd, hle⟩ := isExpired_iff.1 he
  exact isExpired_iff.2 ⟨d, hd, Instant.le_trans hle h⟩

theorem deadline_gt_of_live {e : Entry} {now d : Instant} (h : e.isExpired now = false)
    (hd : e.deadline = some d) : now < d := by
  refine Nat.lt_of_not_le fun hle => ?_
  rw [isExpired_iff.2 ⟨d, hd, hle⟩] at h
  cases h

end Entry

namespace Entries

variable {es : Entries} {now later : Instant}

/-- The representation invariant: each key is held once. -/
def Distinct (es : Entries) : Prop := (es.map (·.1)).Nodup

/-! ## Looking up -/

theorem find?_eq_some_of_mem (hd : es.Distinct) {k : String} {e : Entry} (h : (k, e) ∈ es) :
    es.find? k = some e := by
  induction es with
  | nil => cases h
  | cons x rest ih =>
    obtain ⟨k', e'⟩ := x
    obtain ⟨hk', hrest⟩ := List.nodup_cons.1 hd
    rcases List.mem_cons.1 h with he | hr
    · cases he
      simp [find?]
    · have hne : k' ≠ k := by
        rintro rfl
        exact hk' (List.mem_map.2 ⟨_, hr, rfl⟩)
      rw [find?, if_neg hne]
      exact ih hrest hr

theorem mem_of_find? {k : String} {e : Entry} (h : es.find? k = some e) : (k, e) ∈ es := by
  induction es with
  | nil => cases h
  | cons x rest ih =>
    obtain ⟨k', e'⟩ := x
    unfold find? at h
    split at h
    · rename_i hk
      cases h
      exact hk ▸ List.mem_cons_self
    · exact List.mem_cons_of_mem _ (ih h)

/-- An entry, unless it is expired. -/
def ifLive (now : Instant) (e : Entry) : Option Entry := if e.isExpired now then none else some e

theorem live?_eq_bind (es : Entries) (now : Instant) (k : String) :
    es.live? k now = (es.find? k).bind (ifLive now) := by
  unfold live?
  cases es.find? k <;> rfl

theorem ifLive_eq_some_iff {e e' : Entry} :
    ifLive now e = some e' ↔ e = e' ∧ e.isExpired now = false := by
  unfold ifLive
  cases e.isExpired now <;> simp

theorem live?_eq_some_iff {k : String} {e : Entry} :
    es.live? k now = some e ↔ es.find? k = some e ∧ e.isExpired now = false := by
  rw [live?_eq_bind, Option.bind_eq_some_iff]
  constructor
  · rintro ⟨e', hf, h⟩
    obtain ⟨rfl, hx⟩ := ifLive_eq_some_iff.1 h
    exact ⟨hf, hx⟩
  · rintro ⟨hf, hx⟩
    exact ⟨e, hf, ifLive_eq_some_iff.2 ⟨rfl, hx⟩⟩

/-- What is live later is live now. -/
theorem ifLive_later (h : now ≤ later) (e : Entry) :
    (ifLive now e).bind (ifLive later) = ifLive later e := by
  cases hx : e.isExpired now with
  | false => simp [ifLive, hx]
  | true => simp [ifLive, hx, Entry.isExpired_mono h hx]

theorem live?_later (h : now ≤ later) (k : String) :
    es.live? k later = (es.live? k now).bind (ifLive later) := by
  rw [live?_eq_bind, live?_eq_bind, Option.bind_assoc]
  simp only [ifLive_later h]

theorem live?_insert (k k' : String) (e : Entry) :
    (insert k e es).live? k' now = if k = k' then ifLive now e else es.live? k' now := by
  rw [live?_eq_bind, live?_eq_bind, find?_insert]
  split <;> rfl

theorem live?_erase (k k' : String) :
    (es.erase k).live? k' now = if k = k' then none else es.live? k' now := by
  rw [live?_eq_bind, live?_eq_bind, find?_erase]
  split <;> rfl

/-! ## Operations on live entries -/

section Operations

variable (es now)

theorem live?_get (k k' : String) : (es.get now k).2.live? k' now = es.live? k' now := by
  unfold get
  cases hf : es.find? k with
  | none => rfl
  | some e =>
    cases hx : e.isExpired now with
    | false => simp [hx]
    | true =>
      -- only the expired entry goes
      by_cases hk : k = k'
      · subst hk
        simp only [hx, if_true]
        rw [live?_erase, if_pos rfl, live?_eq_bind, hf]
        simp [ifLive, hx]
      · simp [hx, live?_erase, hk]

theorem live?_set (k v : String) (ttl : Option Span) (k' : String) :
    (es.set now k v ttl).live? k' now =
      if k = k' then ifLive now ⟨v, Entry.deadlineAfter now ttl⟩ else es.live? k' now :=
  live?_insert ..

theorem setIfAbsent_fst (k v : String) (ttl : Option Span) :
    (es.setIfAbsent now k v ttl).1 = (es.live? k now).isNone := by
  unfold setIfAbsent
  cases es.live? k now <;> rfl

theorem live?_setIfAbsent (k v : String) (ttl : Option Span) (k' : String) :
    (es.setIfAbsent now k v ttl).2.live? k' now =
      if k = k' ∧ es.live? k now = none then ifLive now ⟨v, Entry.deadlineAfter now ttl⟩
      else es.live? k' now := by
  unfold setIfAbsent
  cases hl : es.live? k now with
  | none => simp [live?_set]
  | some e => simp

theorem live?_delete (k k' : String) :
    (es.delete now k).2.live? k' now = if k = k' then none else es.live? k' now := by
  unfold delete
  cases hf : es.find? k with
  | none =>
    by_cases hk : k = k'
    · subst hk
      simp [live?_eq_bind, hf]
    · simp [hk]
  | some e => exact live?_erase k k'

theorem compareAndDelete_fst (k v : String) :
    (es.compareAndDelete now k v).1 = decide ((es.live? k now).map (·.value) = some v) := by
  unfold compareAndDelete
  cases es.live? k now with
  | none => rfl
  | some e => by_cases hv : e.value = v <;> simp [hv]

theorem live?_compareAndDelete (k v k' : String) :
    (es.compareAndDelete now k v).2.live? k' now =
      if k = k' ∧ (es.live? k now).map (·.value) = some v then none else es.live? k' now := by
  unfold compareAndDelete
  cases hl : es.live? k now with
  | none => simp
  | some e => by_cases hv : e.value = v <;> simp [hv, live?_erase]

theorem compareAndExpire_fst (k v : String) (ttl : Span) :
    (es.compareAndExpire now k v ttl).1 = decide ((es.live? k now).map (·.value) = some v) := by
  unfold compareAndExpire
  cases es.live? k now with
  | none => rfl
  | some e => by_cases hv : e.value = v <;> simp [hv]

theorem live?_compareAndExpire (k v : String) (ttl : Span) (k' : String) :
    (es.compareAndExpire now k v ttl).2.live? k' now =
      if k = k' ∧ (es.live? k now).map (·.value) = some v then
        ifLive now ⟨v, Entry.deadlineAfter now (some ttl)⟩
      else es.live? k' now := by
  unfold compareAndExpire
  cases hl : es.live? k now with
  | none => simp
  | some e => by_cases hv : e.value = v <;> simp [hv, live?_insert]

theorem live?_expire (k : String) (ttl : Span) (k' : String) :
    (es.expire now k ttl).2.live? k' now =
      if k = k' then
        (es.live? k now).bind fun e => ifLive now ⟨e.value, Entry.deadlineAfter now (some ttl)⟩
      else es.live? k' now := by
  unfold expire
  cases hl : es.live? k now with
  | none =>
    by_cases hk : k = k'
    · subst hk
      simp [hl]
    · simp [hk]
  | some e => simp [live?_insert]

end Operations

/-! ## Distinct keys -/

theorem Distinct.erase (hd : es.Distinct) (k : String) : (es.erase k).Distinct :=
  hd.sublist (List.filter_sublist.map _)

theorem keys_insert (k : String) (e : Entry) :
    (insert k e es).map (·.1) =
      if k ∈ es.map (·.1) then es.map (·.1) else es.map (·.1) ++ [k] := by
  induction es with
  | nil => simp [insert]
  | cons x rest ih =>
    obtain ⟨k', e'⟩ := x
    by_cases hk : k' = k
    · simp [insert, hk]
    · simp only [insert, if_neg hk, List.map_cons, ih, List.mem_cons, Ne.symm hk, false_or]
      split <;> simp

theorem Distinct.insert (hd : es.Distinct) (k : String) (e : Entry) :
    Distinct (Entries.insert k e es) := by
  unfold Distinct
  rw [keys_insert]
  split
  · exact hd
  · rename_i hk
    exact List.nodup_append.2 ⟨hd, by simp, fun a ha b hb => by
      rintro rfl
      exact hk (List.mem_singleton.1 hb ▸ ha)⟩

theorem Distinct.get (hd : es.Distinct) (k : String) : (es.get now k).2.Distinct := by
  unfold Entries.get
  split
  · exact hd
  · split
    · exact hd.erase k
    · exact hd

theorem Distinct.setIfAbsent (hd : es.Distinct) (k v : String) (ttl : Option Span) :
    (es.setIfAbsent now k v ttl).2.Distinct := by
  unfold Entries.setIfAbsent
  split
  · exact hd
  · exact hd.insert ..

theorem Distinct.delete (hd : es.Distinct) (k : String) : (es.delete now k).2.Distinct := by
  unfold Entries.delete
  split
  · exact hd
  · exact hd.erase k

theorem Distinct.compareAndDelete (hd : es.Distinct) (k v : String) :
    (es.compareAndDelete now k v).2.Distinct := by
  unfold Entries.compareAndDelete
  split
  · split
    · exact hd.erase k
    · exact hd
  · exact hd

theorem Distinct.compareAndExpire (hd : es.Distinct) (k v : String) (ttl : Span) :
    (es.compareAndExpire now k v ttl).2.Distinct := by
  unfold Entries.compareAndExpire
  split
  · split
    · exact hd.insert ..
    · exact hd
  · exact hd

theorem Distinct.expire (hd : es.Distinct) (k : String) (ttl : Span) :
    (es.expire now k ttl).2.Distinct := by
  unfold Entries.expire
  split
  · exact hd.insert ..
  · exact hd

theorem Distinct.purge (hd : es.Distinct) : (es.purge now).2.Distinct :=
  hd.sublist (List.filter_sublist.map _)

/-! ## Sweeping -/

theorem mem_purge {x : String × Entry} : x ∈ (es.purge now).2 ↔ x ∈ es ∧ x.2.isExpired now = false := by
  simp [purge]

/-- With distinct keys nothing was hidden behind an expired entry. -/
theorem find?_purge (hd : es.Distinct) (k : String) : (es.purge now).2.find? k = es.live? k now := by
  apply Option.ext
  intro e
  rw [live?_eq_some_iff]
  constructor
  · intro h
    obtain ⟨hm, hx⟩ := mem_purge.1 (mem_of_find? h)
    exact ⟨find?_eq_some_of_mem hd hm, hx⟩
  · rintro ⟨hf, hx⟩
    exact find?_eq_some_of_mem hd.purge (mem_purge.2 ⟨mem_of_find? hf, hx⟩)

theorem live?_purge (hd : es.Distinct) (k : String) :
    (es.purge now).2.live? k now = es.live? k now := by
  apply Option.ext
  intro e
  rw [live?_eq_some_iff, find?_purge hd]
  exact ⟨fun h => h.1, fun h => ⟨h, (live?_eq_some_iff.1 h).2⟩⟩

end Entries

end Tenancy
