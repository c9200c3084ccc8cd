import Tenancy.Proofs.Hub.Frozen
import Tenancy.Proofs.Store.Open
import Tenancy.Proofs.Store.Written

/-!
# Deeds on a store

A `Store.Deed` is anything that is done to a store: a call, a sweep, what the reader of a subscription
does, and what the owner of the store and of its fault switch does. A run is a list of deeds, each with
its time (`Store.undergo`).

Whether a store answers depends on two things, where its switch stands and whether it was closed, and a
run leaves them as its history says (`failing?_undergo`, `closed_undergo`). What a closed store holds
only becomes less: `Store.Wanes` says what is left after a run (`wanes_undergo`).
-/

namespace Tenancy

namespace Store

/-- What can be done to a store. -/
inductive Deed where
  | call (c : StoreCall)
  | sweep
  /-- A subscription is asked for its next item. -/
  | receive (id turn : Nat)
  | passTurn (id : Nat)
  | unsubscribe (id : Nat)
  | setFailing (on : Bool)
  | breakSubscriptions (e : StoreError)
  | close
  deriving DecidableEq, Repr, Inhabited

/-- The store after a deed at `now`. -/
def after (s : Store) (now : Instant) : Deed → Store
  | .call c => (s.call now c).2
  | .sweep => (s.purge now).2
  | .receive id turn => (s.receive id turn).2.2
  | .passTurn id => s.passTurn id
  | .unsubscribe id => s.unsubscribe id
  | .setFailing on => s.setFailing on
  | .breakSubscriptions e => (s.breakSubscriptions e).2
  | .close => s.close

/-- The store after a run of deeds, each at its time. -/
def undergo (s : Store) (ds : List (Instant × Deed)) : Store :=
  ds.foldl (fun s d => s.after d.1 d.2) s

variable {s s' s'' : Store} {now : Instant} {ds ds' : List (Instant × Deed)}

theorem undergo_append (s : Store) (ds ds' : List (Instant × Deed)) :
    s.undergo (ds ++ ds') = (s.undergo ds).undergo ds' := List.foldl_append

/-- `s'` comes out of `s` by deeds at `now`. -/
def Becomes (now : Instant) (s s' : Store) : Prop :=
  ∃ ds : List Deed, s' = s.undergo (ds.map (now, ·))

namespace Becomes

theorem refl (now : Instant) (s : Store) : s.Becomes now s := ⟨[], rfl⟩

theorem deed (d : Deed) : s.Becomes now (s.after now d) := ⟨[d], rfl⟩

theorem trans (h : s.Becomes now s') (h' : s'.Becomes now s'') : s.Becomes now s'' := by
  obtain ⟨ds, rfl⟩ := h
  obtain ⟨ds', rfl⟩ := h'
  exact ⟨ds ++ ds', by rw [List.map_append, undergo_append]⟩

/-- What every deed keeps is kept. -/
theorem keeps {p : Store → Prop} (hdeed : ∀ {s : Store} (d : Deed), p s → p (s.after now d))
    (h : s.Becomes now s') (hs : p s) : p s' := by
  obtain ⟨ds, rfl⟩ := h
  induction ds generalizing s with
  | nil => exact hs
  | cons d ds ih => exact ih (hdeed d hs)

end Becomes

/-! ## Whether it answers -/

/-- Where the switch stands, if there is one; a store behind a switch that is on is cut off. -/
def failing? (s : Store) : Option Bool := s.faults.map (·.failing)

theorem available_eq (s : Store) :
    s.available =
      if s.failing? = some true then .error (.connection "injected fault")
      else if s.closed = true then .error .closed
      else .ok () := by
  unfold available failing?
  cases s.faults with
  | none => rfl
  | some switch => simp

theorem unavailable_iff :
    (∃ e, s.available = .error e) ↔ s.failing? = some true ∨ s.closed = true := by
  rw [available_eq]
  split
  · rename_i hfailing
    exact ⟨fun _ => .inl hfailing, fun _ => ⟨_, rfl⟩⟩
  · rename_i hworking
    split
    · rename_i hclosed
      exact ⟨fun _ => .inr hclosed, fun _ => ⟨_, rfl⟩⟩
    · rename_i hopen
      exact ⟨nofun, fun h => absurd h (not_or.2 ⟨hworking, hopen⟩)⟩

/-- The switch and the state of the store stay as they are. -/
structure SameDoor (s s' : Store) : Prop where
  failing? : s'.failing? = s.failing?
  closed : s'.closed = s.closed

theorem SameDoor.available_eq (h : s.SameDoor s') : s'.available = s.available := by
  rw [Store.available_eq, Store.available_eq, h.failing?, h.closed]

/-- The lines of a switch are not its position. -/
theorem failing?_mapLines (s : Store) (f : List FaultLine → List FaultLine) (hub : Hub) :
    failing? { s with hub, faults := s.faults.map fun x => { x with lines := f x.lines } } =
      s.failing? := by
  unfold failing?
  rw [Option.map_map]
  rfl

theorem sameDoor_onEntries {α : Type} (s : Store) (f : Entries → α × Entries) :
    s.SameDoor (s.onEntries f).2 := by
  unfold onEntries
  split <;> exact ⟨rfl, rfl⟩

theorem sameDoor_setLine (s : Store) (line : FaultLine) : s.SameDoor (s.setLine line) :=
  ⟨s.failing?_mapLines (List.map fun l : FaultLine => if l.id = line.id then line else l) s.hub, rfl⟩

theorem sameDoor_call (s : Store) (now : Instant) (c : StoreCall) :
    s.SameDoor (s.call now c).2 := by
  have hentries : ∀ {α : Type} (g : α → StoreAnswer) (f : Entries → α × Entries),
      s.SameDoor (answered g (s.onEntries f)).2 := fun _ f => s.sameDoor_onEntries f
  cases c with
  | publish channel payload =>
    show s.SameDoor (s.publish channel payload).2
    unfold publish
    split <;> exact ⟨rfl, rfl⟩
  | subscribe channels =>
    show s.SameDoor (s.subscribe channels).2
    unfold subscribe
    split
    · exact ⟨rfl, rfl⟩
    · exact ⟨s.failing?_mapLines (· ++ [_]) _, rfl⟩
  | ping => exact ⟨rfl, rfl⟩
  | _ => exact hentries _ _

theorem sameDoor_passTurn (s : Store) (id : Nat) : s.SameDoor (s.passTurn id) := by
  unfold passTurn
  split
  · exact s.sameDoor_setLine _
  · exact ⟨rfl, rfl⟩

/-- A subscription takes from the hub, or from its fault line. -/
theorem sameDoor_receive (s : Store) (id turn : Nat) : s.SameDoor (s.receive id turn).2.2 := by
  unfold receive
  split
  · exact ⟨rfl, rfl⟩
  · split
    · exact s.sameDoor_setLine _
    · split
      · exact ⟨(s.sameDoor_setLine _).failing?, rfl⟩
      · split <;> exact s.sameDoor_setLine _

/-- Where a deed puts the switch. -/
def Deed.switch? : Deed → Option Bool
  | .setFailing on => some on
  | _ => none

theorem map_getD_none {α : Type} (o : Option α) : o.map (Option.getD none) = o := by
  cases o <;> rfl

/-- Only two deeds touch what decides whether the store answers. -/
theorem door_after (s : Store) (now : Instant) (d : Deed) :
    (s.after now d).failing? = s.failing?.map d.switch?.getD ∧
      ((s.after now d).closed = true ↔ s.closed = true ∨ d = .close) := by
  have hsame : ∀ s' : Store, s.SameDoor s' → d.switch? = none → d ≠ .close →
      s'.failing? = s.failing?.map d.switch?.getD ∧
        (s'.closed = true ↔ s.closed = true ∨ d = .close) := by
    intro s' hdoor hswitch hclose
    rw [hswitch, hdoor.failing?, hdoor.closed]
    exact ⟨(map_getD_none _).symm, (or_iff_left hclose).symm⟩
  cases d with
  | call c => exact hsame _ (s.sameDoor_call now c) rfl nofun
  | sweep => exact hsame _ ⟨rfl, rfl⟩ rfl nofun
  | receive id turn => exact hsame _ (s.sameDoor_receive id turn) rfl nofun
  | passTurn id => exact hsame _ (s.sameDoor_passTurn id) rfl nofun
  | unsubscribe id =>
    exact hsame _ ⟨s.failing?_mapLines (·.filter (·.id ≠ id)) _, rfl⟩ rfl nofun
  | setFailing on =>
    refine ⟨?_, (or_iff_left nofun).symm⟩
    show (s.setFailing on).failing? = _
    unfold setFailing failing?
    rw [Option.map_map, Option.map_map]
    rfl
  | breakSubscriptions e => exact hsame _ ⟨s.failing?_mapLines _ s.hub, rfl⟩ rfl nofun
  | close => exact ⟨(map_getD_none _).symm, ⟨fun _ => .inr rfl, fun _ => rfl⟩⟩

/-- Where a run puts the switch at last. -/
def lastSwitch? (ds : List (Instant × Deed)) : Option Bool :=
  ((ds.map (·.2)).filterMap Deed.switch?).getLast?

/-- A switch stands where the last deed put it that did, or else as before. -/
theorem failing?_undergo (s : Store) (ds : List (Instant × Deed)) :
    (s.undergo ds).failing? = s.failing?.map (lastSwitch? ds).getD := by
  induction ds generalizing s with
  | nil => exact (map_getD_none _).symm
  | cons d ds ih =>
    show ((s.after d.1 d.2).undergo ds).failing? = _
    -- where the first deed puts the switch counts only if no later one does
    rw [ih, (s.door_after d.1 d.2).1, Option.map_map]
    unfold lastSwitch?
    rw [List.map_cons]
    cases hd : d.2.switch? with
    | none => rw [List.filterMap_cons_none hd, ← Option.map_map, map_getD_none]
    | some on =>
      rw [List.filterMap_cons_some hd, List.getLast?_cons]
      rfl

theorem closed_undergo (s : Store) (ds : List (Instant × Deed)) :
    (s.undergo ds).closed = true ↔ s.closed = true ∨ ∃ d ∈ ds, d.2 = .close := by
  induction ds generalizing s with
  | nil => simp [undergo]
  | cons d ds ih =>
    show ((s.after d.1 d.2).undergo ds).closed = true ↔ _
    rw [ih, (s.door_after d.1 d.2).2, List.exists_mem_cons_iff, or_assoc]

/-- A store without a switch gets none. -/
theorem available_undergo_of_closed (hplain : s.faults = none) (hclosed : s.closed = true)
    (ds : List (Instant × Deed)) : (s.undergo ds).available = .error .closed := by
  have hfailing : (s.undergo ds).failing? = none := by
    rw [failing?_undergo, failing?, hplain]
    rfl
  rw [available_eq, hfailing, if_neg nofun, if_pos ((closed_undergo s ds).2 (.inl hclosed))]

/-! ## Closed for good -/

/-- What is left of a closed store after a run: entries that were held before, of which only sweeps
that found them expired took any, and subscriptions that were open before, to which nothing comes any
more. -/
structure Wanes (s : Store) (ds : List (Instant × Deed)) (s' : Store) : Prop where
  closed : s'.closed = true
  frozen : s'.hub.Frozen
  ids : (s'.hub.subscriptions.map (·.id)).Sublist (s.hub.subscriptions.map (·.id))
  held : s'.entries.Sublist s.entries
  gone_iff : ∀ x ∈ s.entries,
    x ∉ s'.entries ↔ ∃ d ∈ ds, d.2 = .sweep ∧ x.2.isExpired d.1 = true

namespace Wanes

theorem trans (h : s.Wanes ds s') (h' : s'.Wanes ds' s'') : s.Wanes (ds ++ ds') s'' where
  closed := h'.closed
  frozen := h'.frozen
  ids := h'.ids.trans h.ids
  held := h'.held.trans h.held
  gone_iff x hx := by
    constructor
    · intro hgone
      by_cases hx' : x ∈ s'.entries
      · obtain ⟨d, hd, hswept⟩ := (h'.gone_iff x hx').1 hgone
        exact ⟨d, List.mem_append_right ds hd, hswept⟩
      · obtain ⟨d, hd, hswept⟩ := (h.gone_iff x hx).1 hx'
        exact ⟨d, List.mem_append_left ds' hd, hswept⟩
    · rintro ⟨d, hd, hswept⟩ hheld
      -- nothing comes in, so what is held at the end was held all the time
      have hx' : x ∈ s'.entries := h'.held.subset hheld
      rcases List.mem_append.1 hd with hd | hd
      · exact (h.gone_iff x hx).2 ⟨d, hd, hswept⟩ hx'
      · exact (h'.gone_iff x hx').2 ⟨d, hd, hswept⟩ hheld

/-- A deed that is no sweep leaves the entries. -/
theorem of_entries_eq {d : Deed} (hclosed : s'.closed = true) (hfrozen : s'.hub.Frozen)
    (hids : (s'.hub.subscriptions.map (·.id)).Sublist (s.hub.subscriptions.map (·.id)))
    (hentries : s'.entries = s.entries) (hd : d ≠ .sweep) : s.Wanes [(now, d)] s' where
  closed := hclosed
  frozen := hfrozen
  ids := hids
  held := hentries ▸ List.Sublist.refl _
  gone_iff x hx := by
    refine iff_of_false (not_not_intro (hentries ▸ hx)) ?_
    rintro ⟨d', hd', hsweep, -⟩
    cases List.mem_singleton.1 hd'
    exact hd hsweep

end Wanes

theorem wanes_sweep (hclosed : s.closed = true) (hfrozen : s.hub.Frozen) (now : Instant) :
    s.Wanes [(now, .sweep)] (s.purge now).2 where
  closed := hclosed
  frozen := hfrozen
  ids := List.Sublist.refl _
  held := List.filter_sublist
  gone_iff x hx := by
    show x ∉ (s.entries.purge now).2 ↔ _
    rw [Entries.mem_purge, and_iff_right hx, Bool.not_eq_false]
    constructor
    · exact fun hexpired => ⟨_, List.mem_singleton_self _, rfl, hexpired⟩
    · rintro ⟨d, hd, -, hexpired⟩
      cases List.mem_singleton.1 hd
      exact hexpired

/-- A subscription takes from the hub, or leaves it alone. -/
theorem hub_receive (s : Store) (id turn : Nat) :
    (s.receive id turn).2.2.hub = s.hub ∨
      (s.receive id turn).2.2.hub = (s.hub.receive id turn).2.2 := by
  unfold receive
  split
  · exact .inr rfl
  · split
    · exact .inl rfl
    · split
      · rename_i heq
        exact .inr (heq ▸ rfl)
      · split <;> exact .inl rfl

/-- What one deed does to a closed store. -/
theorem wanes_after (hclosed : s.closed = true) (hfrozen : s.hub.Frozen) (now : Instant) (d : Deed) :
    s.Wanes [(now, d)] (s.after now d) := by
  have hstays : (s.after now d).closed = true := (s.door_after now d).2.2 (.inl hclosed)
  have hsame : (s.after now d).hub = s.hub → (s.after now d).entries = s.entries → d ≠ .sweep →
      s.Wanes [(now, d)] (s.after now d) := fun hhub hentries hd =>
    .of_entries_eq hstays (hhub ▸ hfrozen) (hhub ▸ List.Sublist.refl _) hentries hd
  cases d with
  | call c =>
    -- whatever the switch says, the call is refused
    obtain ⟨e, he⟩ := unavailable_iff.2 (.inr hclosed)
    have hs : s.after now (.call c) = s := congrArg Prod.snd (call_of_unavailable he now c)
    exact hsame (congrArg hub hs) (congrArg entries hs) nofun
  | sweep => exact wanes_sweep hclosed hfrozen now
  | receive id turn =>
    rcases s.hub_receive id turn with hhub | hhub
    · exact hsame hhub (s.entries_receive id turn) nofun
    · have hids : (s.after now (.receive id turn)).hub.subscriptions.map (·.id) =
          s.hub.subscriptions.map (·.id) := by
        show (s.receive id turn).2.2.hub.subscriptions.map (·.id) = _
        rw [hhub, Hub.ids_receive]
      have hreceived : (s.after now (.receive id turn)).hub.Frozen := by
        show (s.receive id turn).2.2.hub.Frozen
        rw [hhub]
        exact hfrozen.receive id turn
      exact .of_entries_eq hstays hreceived (hids ▸ List.Sublist.refl _) (s.entries_receive id turn)
        nofun
  | passTurn id =>
    refine hsame ?_ (s.entries_passTurn id) nofun
    show (s.passTurn id).hub = _
    unfold passTurn
    split <;> rfl
  | unsubscribe id =>
    refine .of_entries_eq hstays (hfrozen.unsubscribe id) ?_ rfl nofun
    show ((s.hub.unsubscribe id).subscriptions.map (·.id)).Sublist _
    rw [hfrozen.unsubscribe_eq]
    exact List.filter_sublist.map _
  | setFailing on => exact hsame rfl rfl nofun
  | breakSubscriptions e => exact hsame rfl rfl nofun
  | close =>
    refine .of_entries_eq hstays s.hub.frozen_close ?_ rfl nofun
    exact Hub.ids_close s.hub ▸ List.Sublist.refl _

theorem wanes_undergo (hclosed : s.closed = true) (hfrozen : s.hub.Frozen)
    (ds : List (Instant × Deed)) : s.Wanes ds (s.undergo ds) := by
  induction ds generalizing s with
  | nil =>
    exact ⟨hclosed, hfrozen, List.Sublist.refl _, List.Sublist.refl _,
      fun x hx => iff_of_false (not_not_intro hx) (by simp)⟩
  | cons d ds ih =>
    have hone : s.Wanes [d] (s.after d.1 d.2) := wanes_after hclosed hfrozen d.1 d.2
    exact hone.trans (ih hone.closed hone.frozen)

end Store

end Tenancy
