import Tenancy.Proofs.Relay.Move
import Tenancy.Service.Basic

/-!
# Coming to rest

A service in order (`Service.Sound`) has a plain store and relays that share no subscription. A move
of one relay keeps that, leaves the subscriptions of the others alone and brings the whole service
closer to rest (`MovesAt.reach_lt`); so the moves that `settle` allows are enough, and no relay can
move when it is through (`Sound.settle_rests`).
-/

namespace Tenancy

namespace Service

/-! ## What the log and the audit leave alone -/

/-- The same but for the log, the samples and the way of audit records. -/
structure Alike (s s' : Service) : Prop where
  gateway : s'.gateway = s.gateway
  clock : s'.clock = s.clock
  store : s'.store = s.store
  relays : s'.relays = s.relays
  sweepers : s'.sweepers = s.sweepers
  isShutDown : s'.isShutDown = s.isShutDown

theorem Alike.refl (s : Service) : s.Alike s := ⟨rfl, rfl, rfl, rfl, rfl, rfl⟩

theorem Alike.trans {s s' s'' : Service} (h : s.Alike s') (h' : s'.Alike s'') : s.Alike s'' :=
  ⟨h'.gateway.trans h.gateway, h'.clock.trans h.clock, h'.store.trans h.store,
    h'.relays.trans h.relays, h'.sweepers.trans h.sweepers, h'.isShutDown.trans h.isShutDown⟩

theorem alike_hand (s : Service) (r : Audit.Record) : s.Alike (s.hand r) := by
  unfold hand
  split
  · exact ⟨rfl, rfl, rfl, rfl, rfl, rfl⟩
  · simp only
    split <;> exact ⟨rfl, rfl, rfl, rfl, rfl, rfl⟩

theorem alike_deliver (s : Service) : s.Alike s.deliver := by
  have hfold : ∀ (rs : List Audit.Record) (s : Service), s.Alike (rs.foldl hand s) := by
    intro rs
    induction rs with
    | nil => exact Alike.refl
    | cons r rs ih => exact fun s => (s.alike_hand r).trans (ih (s.hand r))
  have hclear : s.Alike { s with pending := [] } := ⟨rfl, rfl, rfl, rfl, rfl, rfl⟩
  exact hclear.trans (hfold s.pending { s with pending := [] })

/-! ## Moves -/

/-- `s'` is `s` after a move of the relay `t`, which stands between `l₁` and `l₂`. -/
structure MovesAt (s : Service) (l₁ : List RelayTask) (t : RelayTask) (l₂ : List RelayTask)
    (t' : RelayTask) (s' : Service) : Prop where
  relays_eq : s.relays = l₁ ++ t :: l₂
  relay_moves : t.relay.Moves s.store s.clock.wall t'.relay s'.store
  relay_eq : ∃ e, t.relay.move? s.store s.clock.wall = some (t'.relay, s'.store, e)
  task_eq : t' = { t with relay := t'.relay }
  alike : Alike { s with relays := l₁ ++ t' :: l₂, store := s'.store } s'

/-- The inversion of `moveAt?`. -/
theorem moveAt?_eq_some {s s' : Service} {i : Nat} (h : s.moveAt? i = some s') :
    ∃ l₁ t l₂ r e, l₁.length = i ∧ s.relays = l₁ ++ t :: l₂ ∧
      t.relay.move? s.store s.clock.wall = some (r, s'.store, e) ∧
      s' = leaving { s with relays := l₁ ++ { t with relay := r } :: l₂, store := s'.store } e := by
  unfold moveAt? at h
  obtain ⟨t, ht, h⟩ := Option.bind_eq_some_iff.1 h
  obtain ⟨⟨r, st, e⟩, hmove, h⟩ := Option.bind_eq_some_iff.1 h
  obtain ⟨hi, rfl⟩ := List.getElem?_eq_some_iff.1 ht
  have hsplit : s.relays = s.relays.take i ++ s.relays[i] :: s.relays.drop (i + 1) := by
    rw [List.getElem_cons_drop, List.take_append_drop]
  have hset : ∀ u, s.relays.set i u = s.relays.take i ++ u :: s.relays.drop (i + 1) :=
    fun u => List.set_eq_take_append_cons_drop.trans (if_pos hi)
  simp only [hset, Option.some.injEq] at h
  subst h
  exact ⟨_, _, _, r, e, List.length_take_of_le (Nat.le_of_lt hi), hsplit, hmove, rfl⟩

theorem movesAt_of_moveAt? {s s' : Service} {i : Nat} (h : s.moveAt? i = some s') :
    ∃ l₁ t l₂ t', l₁.length = i ∧ s.MovesAt l₁ t l₂ t' s' := by
  obtain ⟨l₁, t, l₂, r, e, hlen, hsplit, hmove, heq⟩ := moveAt?_eq_some h
  refine ⟨l₁, t, l₂, { t with relay := r }, hlen, hsplit, Relay.moves_of_move? hmove, ⟨e, hmove⟩,
    rfl, ?_⟩
  rw [heq]
  exact ⟨rfl, rfl, rfl, rfl, rfl, rfl⟩

theorem moveAt?_eq_none {s : Service} {l₁ l₂ : List RelayTask} {t : RelayTask}
    (hr : s.relays = l₁ ++ t :: l₂) (h : s.moveAt? l₁.length = none) :
    t.relay.move? s.store s.clock.wall = none := by
  unfold moveAt? at h
  have ht : s.relays[l₁.length]? = some t := by rw [hr]; simp
  rw [ht] at h
  cases hm : t.relay.move? s.store s.clock.wall with
  | none => rfl
  | some x => simp [hm] at h

/-- The service is at rest where no relay can move. -/
def Rests (s : Service) : Prop := ∀ t ∈ s.relays, t.relay.move? s.store s.clock.wall = none

theorem rests_of_move? {s : Service} (h : s.move? = none) : s.Rests := by
  intro t ht
  obtain ⟨l₁, l₂, hl⟩ := List.append_of_mem ht
  refine moveAt?_eq_none hl (List.findSome?_eq_none_iff.1 h l₁.length (List.mem_range.2 ?_))
  rw [hl]
  simp

/-- The first relay that can move does. -/
theorem movesAt_of_move? {s s' : Service} (h : s.move? = some s') :
    ∃ l₁ t l₂ t', s.MovesAt l₁ t l₂ t' s' ∧
      ∀ u ∈ l₁, u.relay.move? s.store s.clock.wall = none := by
  obtain ⟨is, i, js, hrange, hmove, hnone⟩ := List.findSome?_eq_some_iff.1 h
  obtain ⟨l₁, t, l₂, t', hlen, hm⟩ := movesAt_of_moveAt? hmove
  refine ⟨l₁, t, l₂, t', hm, fun u hu => ?_⟩
  obtain ⟨k₁, k₂, hk⟩ := List.append_of_mem hu
  have hlt : k₁.length < i := by
    rw [← hlen, hk]
    simp
  -- indices are tried in order, so the one of `u` was tried before
  have htried : k₁.length ∈ is := by
    have hsorted := List.pairwise_lt_range (n := s.relays.length)
    have hmem : k₁.length ∈ List.range s.relays.length := by
      rw [List.mem_range, hm.relays_eq, List.length_append, List.length_cons]
      omega
    rw [hrange] at hsorted hmem
    rcases List.mem_append.1 hmem with his | hjs
    · exact his
    · have hle : i ≤ k₁.length := by
        rcases List.mem_cons.1 hjs with heq | hjs
        · omega
        · have := (List.pairwise_cons.1 (List.pairwise_append.1 hsorted).2.1).1 _ hjs
          omega
      omega
  have hu' : s.relays = k₁ ++ u :: (k₂ ++ t :: l₂) := by
    rw [hm.relays_eq, hk]
    simp
  exact moveAt?_eq_none hu' (hnone _ htried)

/-! ## Order -/

/-- A plain store, and relays with subscriptions of their own. -/
structure Sound (s : Service) : Prop where
  plain : s.store.Plain
  sources_nodup : (s.relays.filterMap (·.relay.source)).Nodup
  sources_lt : ∀ t ∈ s.relays, ∀ id, t.relay.source = some id → id < s.store.hub.nextId

theorem Alike.sound {s s' : Service} (h : s.Alike s') (hs : s.Sound) : s'.Sound := by
  refine ⟨?_, ?_, ?_⟩
  · rw [h.store]
    exact hs.plain
  · rw [h.relays]
    exact hs.sources_nodup
  · rw [h.relays, h.store]
    exact hs.sources_lt

/-- A change of relays that leaves their subscriptions to them. -/
theorem Sound.mapTask {s : Service} (hs : s.Sound) {f : RelayTask → RelayTask}
    (hf : ∀ t, (f t).relay.source = t.relay.source) (handle : Nat) :
    (s.mapTask handle f).Sound := by
  have hsource : ∀ t : RelayTask, (if t.handle = handle then f t else t).relay.source =
      t.relay.source := by
    intro t
    split
    · exact hf t
    · rfl
  refine ⟨hs.plain, ?_, fun t ht id hid => ?_⟩
  · have hsources : (s.mapTask handle f).relays.filterMap (·.relay.source) =
        s.relays.filterMap (·.relay.source) := by
      simp only [Service.mapTask, List.filterMap_map]
      exact List.filterMap_congr fun t _ => hsource t
    rw [hsources]
    exact hs.sources_nodup
  · obtain ⟨t₀, ht₀, rfl⟩ := List.mem_map.1 ht
    exact hs.sources_lt t₀ ht₀ id ((hsource t₀).symm.trans hid)

theorem reach_eq_sum (s : Service) :
    s.reach = (s.relays.map fun t => t.relay.reach s.store).sum := rfl

namespace MovesAt

variable {s s' : Service} {l₁ l₂ : List RelayTask} {t t' : RelayTask}

/-- What a relay that does not move reads is not what the one that moves reads. -/
theorem source_ne (hm : s.MovesAt l₁ t l₂ t' s') (hs : s.Sound) {u : RelayTask}
    (hu : u ∈ l₁ ∨ u ∈ l₂) {id : Nat} (hid : u.relay.source = some id) :
    t.relay.source ≠ some id := by
  intro ht
  have hn := hs.sources_nodup
  rw [hm.relays_eq, List.filterMap_append,
    List.filterMap_cons_some (f := fun u : RelayTask => u.relay.source) ht, List.nodup_append,
    List.nodup_cons] at hn
  obtain ⟨-, ⟨h₂, -⟩, h₁⟩ := hn
  rcases hu with hu | hu
  · exact h₁ id (List.mem_filterMap.2 ⟨u, hu, hid⟩) id List.mem_cons_self rfl
  · exact h₂ (List.mem_filterMap.2 ⟨u, hu, hid⟩)

/-- The frame of a move: it touches no subscription of another relay. -/
theorem find?_other (hm : s.MovesAt l₁ t l₂ t' s') (hs : s.Sound) {u : RelayTask}
    (hu : u ∈ l₁ ∨ u ∈ l₂) :
    u.relay.source.bind s'.store.hub.find? = u.relay.source.bind s.store.hub.find? := by
  cases hid : u.relay.source with
  | none => rfl
  | some id => exact hm.relay_moves.find?_eq hs.plain (hm.source_ne hs hu hid)

theorem relays_after (hm : s.MovesAt l₁ t l₂ t' s') : s'.relays = l₁ ++ t' :: l₂ := hm.alike.relays

theorem sources_eq (hm : s.MovesAt l₁ t l₂ t' s') :
    s'.relays.filterMap (·.relay.source) = s.relays.filterMap (·.relay.source) := by
  have hsource := hm.relay_moves.source_eq
  rw [hm.relays_after, hm.relays_eq, List.filterMap_append, List.filterMap_append,
    List.filterMap_cons, List.filterMap_cons, hsource]

theorem sound (hm : s.MovesAt l₁ t l₂ t' s') (hs : s.Sound) : s'.Sound := by
  refine ⟨hm.relay_moves.plain hs.plain, ?_, fun u hu id hid => ?_⟩
  · rw [hm.sources_eq]
    exact hs.sources_nodup
  · have hmem : id ∈ s.relays.filterMap (·.relay.source) :=
      hm.sources_eq ▸ List.mem_filterMap.2 ⟨u, hu, hid⟩
    obtain ⟨v, hv, hvid⟩ := List.mem_filterMap.1 hmem
    rw [(hm.relay_moves.nextId_eq hs.plain).1]
    exact hs.sources_lt v hv id hvid

/-- A move brings the service closer to rest. -/
theorem reach_lt (hm : s.MovesAt l₁ t l₂ t' s') (hs : s.Sound) : s'.reach < s.reach := by
  have hother : ∀ u, u ∈ l₁ ∨ u ∈ l₂ → u.relay.reach s'.store = u.relay.reach s.store := by
    intro u hu
    have hfind := hm.find?_other hs hu
    unfold Relay.reach
    cases hid : u.relay.source with
    | none => rfl
    | some id =>
      rw [hid, Option.bind_some, Option.bind_some] at hfind
      rw [Option.map_some, Option.map_some, (hm.relay_moves.plain hs.plain).waiting_eq,
        hs.plain.waiting_eq, hfind]
  have h₁ : l₁.map (fun u => u.relay.reach s'.store) = l₁.map fun u => u.relay.reach s.store :=
    List.map_congr_left fun u hu => hother u (.inl hu)
  have h₂ : l₂.map (fun u => u.relay.reach s'.store) = l₂.map fun u => u.relay.reach s.store :=
    List.map_congr_left fun u hu => hother u (.inr hu)
  have hlt := hm.relay_moves.reach_lt hs.plain
  rw [reach_eq_sum, reach_eq_sum, hm.relays_after, hm.relays_eq]
  simp only [List.map_append, List.map_cons, List.sum_append, List.sum_cons, h₁, h₂]
  omega

end MovesAt

/-! ## Settling -/

/-- Settling keeps what every move keeps. -/
theorem settleIn_keeps {p : Service → Prop}
    (hmove : ∀ {s s' : Service}, p s → s.move? = some s' → p s') (n : Nat) :
    ∀ {s : Service}, p s → p (settleIn n s) := by
  induction n with
  | zero => exact fun h => h
  | succ n ih =>
    intro s h
    rw [settleIn]
    cases hm : s.move? with
    | none => exact h
    | some s' => exact ih (hmove h hm)

/-- With fuel for all moves, the service comes to rest. -/
theorem Sound.settleIn_rests {n : Nat} :
    ∀ {s : Service}, s.Sound → s.reach ≤ n → (settleIn n s).Sound ∧ (settleIn n s).Rests := by
  induction n with
  | zero =>
    intro s hs hn
    refine ⟨hs, ?_⟩
    cases hmove : s.move? with
    | none => exact rests_of_move? hmove
    | some s' =>
      obtain ⟨l₁, t, l₂, t', hm, -⟩ := movesAt_of_move? hmove
      have := hm.reach_lt hs
      omega
  | succ n ih =>
    intro s hs hn
    rw [settleIn]
    cases hmove : s.move? with
    | none => exact ⟨hs, rests_of_move? hmove⟩
    | some s' =>
      obtain ⟨l₁, t, l₂, t', hm, -⟩ := movesAt_of_move? hmove
      have := hm.reach_lt hs
      exact ih (hm.sound hs) (by omega)

/-- The moves that `settle` allows are enough. -/
theorem Sound.settle_rests {s : Service} (hs : s.Sound) : s.settle.Rests := by
  obtain ⟨-, hrests⟩ := hs.settleIn_rests (Nat.le_refl s.reach)
  have halike := alike_deliver (settleIn s.reach s)
  intro t ht
  rw [settle, halike.relays] at ht
  rw [settle, halike.store, halike.clock]
  exact hrests t ht

end Service

end Tenancy
