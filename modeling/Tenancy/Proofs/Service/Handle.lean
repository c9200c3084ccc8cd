import Tenancy.Proofs.Service.Call

/-!
# Callers of relays, as tenants see them

What the callers of relays do to them: they cancel, leave, hang up, ask for the outcome and read.
As for calls there are three lemmas for each: the service stays orderly, the others do not see it,
and what a tenant sees decides what it is answered and what it sees then.
-/

namespace Tenancy

namespace Service

variable {owner : Nat → Tenant} {s s' : Service} {a : Tenant} {handle : Nat}

/-! ## Finding a relay -/

theorem Orderly.tenant_of_handle (ho : s.Orderly owner a) {t : RelayTask} (ht : t ∈ s.relays) :
    t.relay.tenant = owner t.handle := (ho.owner_eq t ht).symm

/-- A tenant finds its relay among those it sees. -/
theorem Orderly.seen_task? (ho : s.Orderly owner a) (hh : owner handle = a) :
    (s.task? handle).map (·.seen s.store.hub) =
      (s.view a).relays.find? (·.task.handle = handle) := by
  have hfilter : (s.relaysOf a).find? (·.handle = handle) = s.task? handle := by
    refine find?_filter_of_imp fun t ht hhandle => ?_
    rw [decide_eq_true_eq] at hhandle ⊢
    rw [ho.tenant_of_handle ht, hhandle, hh]
  rw [← hfilter]
  simp only [view, List.find?_map]
  rfl

theorem task?_congr (ho : s.Orderly owner a) (ho' : s'.Orderly owner a)
    (hv : s.view a = s'.view a) (hh : owner handle = a) :
    (s.task? handle).map (·.seen s.store.hub) = (s'.task? handle).map (·.seen s'.store.hub) := by
  rw [ho.seen_task? hh, ho'.seen_task? hh, hv]

/-- What is read off a relay without the id of its subscription is the same where it looks the
same. -/
theorem task_eq_of_seen {α : Type} (f : RelayTask → α)
    (hf : ∀ t h, f (t.seen h).task = f t) {x x' : Option RelayTask} {h h' : Hub}
    (hx : x.map (·.seen h) = x'.map (·.seen h')) : x.map f = x'.map f := by
  have hsame := congrArg (Option.map fun v : SeenTask => f v.task) hx
  rw [Option.map_map, Option.map_map] at hsame
  simpa only [Function.comp_def, hf] using hsame

/-! ## Changing a relay -/

/-- A change of a relay that has nothing to do with its subscription. -/
structure Blind (f : RelayTask → RelayTask) : Prop where
  handle_eq : ∀ t, (f t).handle = t.handle
  tenant_eq : ∀ t, (f t).relay.tenant = t.relay.tenant
  source_eq : ∀ t, (f t).relay.source = t.relay.source
  seen_eq : ∀ t h, (f t).seen h = ⟨f (t.seen h).task, (t.seen h).boxes⟩

section Blind

variable {f : RelayTask → RelayTask} (hf : Blind f)

include hf

theorem Orderly.mapTask (ho : s.Orderly owner a) (handle : Nat) :
    (s.mapTask handle f).Orderly owner a := by
  have hforall : ∀ {p : RelayTask → Prop}, (∀ t ∈ s.relays, p t ∧ p (f t)) →
      ∀ t ∈ (s.mapTask handle f).relays, p t := by
    intro p hp t ht
    obtain ⟨t₀, ht₀, rfl⟩ := List.mem_map.1 ht
    split
    · exact (hp t₀ ht₀).2
    · exact (hp t₀ ht₀).1
  refine ⟨ho.sound.mapTask hf.source_eq handle, ho.unswept, ?_, ?_, ?_⟩
  · refine hforall fun t ht => ⟨ho.owner_eq t ht, ?_⟩
    rw [hf.handle_eq, hf.tenant_eq]
    exact ho.owner_eq t ht
  · refine hforall fun t ht => ⟨ho.apart t ht, ?_⟩
    rw [hf.tenant_eq]
    exact ho.apart t ht
  · refine hforall fun t ht => ⟨ho.within t ht, ?_⟩
    unfold RelayTask.Within
    rw [hf.source_eq, hf.tenant_eq]
    exact ho.within t ht

theorem view_mapTask (s : Service) (a : Tenant) (handle : Nat) :
    (s.mapTask handle f).view a =
      { s.view a with
        relays := (s.view a).relays.map fun v =>
          if v.task.handle = handle then ⟨f v.task, v.boxes⟩ else v } := by
  refine View.ext rfl rfl rfl rfl rfl rfl ?_
  have htenant : ((fun t : RelayTask => decide (t.relay.tenant = a)) ∘
      fun t => if t.handle = handle then f t else t) = fun t => decide (t.relay.tenant = a) := by
    funext t
    simp only [Function.comp]
    split
    · rw [hf.tenant_eq]
    · rfl
  simp only [view, relaysOf, Service.mapTask, List.filter_map, htenant, List.map_map]
  refine List.map_congr_left fun t _ => ?_
  have hhandle : ∀ h, (t.seen h).task.handle = t.handle := fun _ => rfl
  simp only [Function.comp, hhandle]
  split
  · exact hf.seen_eq t s.store.hub
  · rfl

theorem Orderly.view_mapTask_other (ho : s.Orderly owner a) (hh : owner handle ≠ a) :
    (s.mapTask handle f).view a = s.view a := by
  rw [view_mapTask hf]
  have hsame : (s.view a).relays.map (fun v =>
      if v.task.handle = handle then (⟨f v.task, v.boxes⟩ : SeenTask) else v) =
      (s.view a).relays := by
    refine map_eq_self fun v hv => if_neg fun hhandle => hh ?_
    obtain ⟨t, ht, rfl⟩ := List.mem_map.1 hv
    obtain ⟨hmem, htenant⟩ := List.mem_filter.1 ht
    have heq : t.handle = handle := hhandle
    rw [← heq, ho.owner_eq t hmem]
    exact of_decide_eq_true htenant
  rw [hsame]

theorem mapTask_congr (hv : s.view a = s'.view a) (handle : Nat) :
    (s.mapTask handle f).view a = (s'.mapTask handle f).view a := by
  rw [view_mapTask hf, view_mapTask hf, hv]

end Blind

theorem blind_relay {f : Relay → Relay} (htenant : ∀ r, (f r).tenant = r.tenant)
    (hsource : ∀ r, (f r).source = r.source) (hface : ∀ r, (f r).faceless = f r.faceless) :
    Blind fun t => { t with relay := f t.relay } where
  handle_eq _ := rfl
  tenant_eq t := htenant t.relay
  source_eq t := hsource t.relay
  seen_eq t h := by
    unfold RelayTask.seen Relay.seen
    simp only [hsource, hface]

end Service

end Tenancy
