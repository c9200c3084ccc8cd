import Tenancy.Proofs.Codec
import Tenancy.Proofs.Relay.Seen
import Tenancy.Proofs.Service.Rest

/-!
# What a tenant sees of a service

`Service.view` is all of a service that can ever make a difference to a tenant: the live entries
under its names, the listeners on its channels, and its relays with what they hold. An orderly
service keeps the channels of tenants apart, so a move of another relay does not change the view
(`MovesAt.view_other`), and a move of an own one changes it by the view alone
(`MovesAt.view_own`).
-/

namespace Tenancy

/-- No name of one tenant is a name of the other. -/
def Tenant.Apart (a b : Tenant) : Prop := ∀ k l, a.isolate k ≠ b.isolate l

theorem Tenant.apart_of_safe {a b : Tenant} (ha : a.isDelimiterSafe) (hb : b.isDelimiterSafe)
    (hab : ¬ a.SameIds b) : a.Apart b := by
  intro k l h
  obtain ⟨huser, horg, -⟩ := (isolate_inj_iff ha hb).1 h
  exact hab ⟨huser, horg⟩

/-- Whoever acts is the tenant itself, or apart from it. -/
def Tenant.ApartFrom (a : Tenant) (actor : Option Tenant) : Prop :=
  ∀ b, actor = some b → b ≠ a → a.Apart b

theorem Tenant.apartFrom_of_own {a : Tenant} {actor : Option Tenant}
    (h : ∀ b, actor = some b → b = a) : a.ApartFrom actor :=
  fun b hb hne => absurd (h b hb) hne

theorem Tenant.apartFrom_of_other {a b : Tenant} {actor : Option Tenant} (hb : actor = some b)
    (h : a.Apart b) : a.ApartFrom actor := by
  intro c hc _
  cases hb.symm.trans hc
  exact h

/-! ## Views -/

/-- A relay under way as its caller sees it. -/
structure SeenTask where
  task : RelayTask
  boxes : Option (List Inbox)

def RelayTask.seen (t : RelayTask) (h : Hub) : SeenTask :=
  ⟨{ t with relay := (t.relay.seen h).relay }, (t.relay.seen h).boxes⟩

namespace SeenTask

def move? (v : SeenTask) (now : Timestamp) : Option SeenTask :=
  (SeenRelay.move? ⟨v.task.relay, v.boxes⟩ now).map fun w =>
    ⟨{ v.task with relay := w.relay }, w.boxes⟩

/-- The listeners that the relay has on a channel. -/
def listens (v : SeenTask) (c : String) : Nat :=
  (v.boxes.map fun bs => (Subscription.mk 0 bs).listens c).getD 0

end SeenTask

/-- What one tenant sees, under its logical names. -/
@[ext]
structure View where
  gateway : Gateway
  clock : Clock
  isShutDown : Bool
  entries : String → Option Entry
  capacity : Nat
  listeners : String → Nat
  relays : List SeenTask

/-- The view after the relay `x` became `x'`, between `l₁` and `l₂`; `a` is whose view it is. -/
def View.moved (v : View) (a : Tenant) (l₁ : List SeenTask) (x x' : SeenTask) (l₂ : List SeenTask) :
    View :=
  { v with
    listeners := fun c => v.listeners c + x'.listens (a.isolate c) - x.listens (a.isolate c)
    relays := l₁ ++ x' :: l₂ }

namespace Service

/-- The relays of a tenant. -/
def relaysOf (s : Service) (a : Tenant) : List RelayTask :=
  s.relays.filter (·.relay.tenant = a)

def view (s : Service) (a : Tenant) : View where
  gateway := s.gateway
  clock := s.clock
  isShutDown := s.isShutDown
  entries k := s.store.entries.live? (a.isolate k) s.clock.now
  capacity := s.store.hub.capacity
  listeners c := s.store.hub.listeners (a.isolate c)
  relays := (s.relaysOf a).map (·.seen s.store.hub)

theorem Alike.view_eq {s s' : Service} (h : s.Alike s') (a : Tenant) : s'.view a = s.view a := by
  unfold view relaysOf
  rw [h.gateway, h.clock, h.isShutDown, h.store, h.relays]

end Service

/-! ## Order among tenants -/

/-- The relay reads channels of its tenant only. -/
def RelayTask.Within (t : RelayTask) (h : Hub) : Prop :=
  ∀ sub, t.relay.source.bind h.find? = some sub →
    ∀ p ∈ sub.ears, ∃ c, p.2 = t.relay.tenant.isolate c

/-- A service in order, without sweepers, in which every relay is known by a handle of its tenant
and reads channels of its tenant, and all tenants but `a` are apart from `a`. -/
structure Service.Orderly (owner : Nat → Tenant) (a : Tenant) (s : Service) : Prop where
  sound : s.Sound
  unswept : s.sweepers = []
  owner_eq : ∀ t ∈ s.relays, owner t.handle = t.relay.tenant
  apart : ∀ t ∈ s.relays, t.relay.tenant ≠ a → a.Apart t.relay.tenant
  within : ∀ t ∈ s.relays, t.Within s.store.hub

namespace Service

variable {owner : Nat → Tenant} {a : Tenant} {s s' : Service}

theorem Alike.orderly (h : s.Alike s') (ho : s.Orderly owner a) : s'.Orderly owner a := by
  refine ⟨h.sound ho.sound, h.sweepers.trans ho.unswept, ?_, ?_, ?_⟩
  · rw [h.relays]
    exact ho.owner_eq
  · rw [h.relays]
    exact ho.apart
  · rw [h.relays, h.store]
    exact ho.within

namespace Orderly

/-- A relay of another tenant has no listener on a channel of `a`. -/
theorem listens_other (ho : s.Orderly owner a) {t : RelayTask} (ht : t ∈ s.relays)
    (hne : t.relay.tenant ≠ a) (c : String) : (t.seen s.store.hub).listens (a.isolate c) = 0 := by
  unfold SeenTask.listens RelayTask.seen Relay.seen
  cases hsub : t.relay.source.bind s.store.hub.find? with
  | none => rfl
  | some sub =>
    refine Subscription.listens_eq_zero fun p hp heq => ?_
    obtain ⟨d, hd⟩ := ho.within t ht sub hsub p hp
    exact ho.apart t ht hne c d (heq.symm.trans hd)

end Orderly

/-! ## Moves -/

theorem seen_move? {t t' : RelayTask} {l₁ l₂ : List RelayTask} (hm : s.MovesAt l₁ t l₂ t' s')
    (hs : s.Sound) :
    (t.seen s.store.hub).move? s.clock.wall = some (t'.seen s'.store.hub) := by
  obtain ⟨e, he⟩ := hm.relay_eq
  have hseen := t.relay.move?_seen hs.plain s.clock.wall
  rw [he, Option.map_some] at hseen
  have htask := hm.task_eq
  unfold SeenTask.move? RelayTask.seen
  simp only [← hseen, Option.map_some]
  rw [htask]

theorem seen_move?_eq_none (hs : s.Sound) {t : RelayTask} :
    (t.seen s.store.hub).move? s.clock.wall = none ↔
      t.relay.move? s.store s.clock.wall = none := by
  have hseen := t.relay.move?_seen hs.plain s.clock.wall
  have hpair : (⟨(t.seen s.store.hub).task.relay, (t.seen s.store.hub).boxes⟩ : SeenRelay) =
      t.relay.seen s.store.hub := rfl
  unfold SeenTask.move?
  rw [Option.map_eq_none_iff, hpair, ← hseen, Option.map_eq_none_iff]

namespace MovesAt

variable {t t' : RelayTask} {l₁ l₂ : List RelayTask}

theorem tenant_eq (hm : s.MovesAt l₁ t l₂ t' s') : t'.relay.tenant = t.relay.tenant :=
  hm.relay_moves.tenant_eq

theorem mem_moved (hm : s.MovesAt l₁ t l₂ t' s') : t ∈ s.relays := by
  rw [hm.relays_eq]
  exact List.mem_append_right l₁ List.mem_cons_self

theorem mem_other (hm : s.MovesAt l₁ t l₂ t' s') {u : RelayTask} (hu : u ∈ l₁ ∨ u ∈ l₂) :
    u ∈ s.relays := by
  rw [hm.relays_eq]
  rcases hu with hu | hu
  · exact List.mem_append_left _ hu
  · exact List.mem_append_right _ (List.mem_cons_of_mem t hu)

/-- Whatever holds of relays before a move, and of the one that moved after it, holds after it. -/
theorem forall_after (hm : s.MovesAt l₁ t l₂ t' s') {p : RelayTask → Prop}
    (hother : ∀ u, u ∈ l₁ ∨ u ∈ l₂ → p u) (hself : p t') : ∀ u ∈ s'.relays, p u := by
  intro u hu
  rw [hm.relays_after, List.mem_append, List.mem_cons] at hu
  rcases hu with hu | rfl | hu
  · exact hother u (.inl hu)
  · exact hself
  · exact hother u (.inr hu)

theorem seen_other (hm : s.MovesAt l₁ t l₂ t' s') (hs : s.Sound) {u : RelayTask}
    (hu : u ∈ l₁ ∨ u ∈ l₂) : u.seen s'.store.hub = u.seen s.store.hub := by
  unfold RelayTask.seen Relay.seen
  rw [hm.find?_other hs hu]

theorem orderly (hm : s.MovesAt l₁ t l₂ t' s') (ho : s.Orderly owner a) : s'.Orderly owner a := by
  have hhandle : t'.handle = t.handle := by rw [hm.task_eq]
  refine ⟨hm.sound ho.sound, hm.alike.sweepers.trans ho.unswept, ?_, ?_, ?_⟩
  · refine hm.forall_after (fun u hu => ho.owner_eq u (hm.mem_other hu)) ?_
    rw [hhandle, hm.tenant_eq]
    exact ho.owner_eq t hm.mem_moved
  · refine hm.forall_after (fun u hu => ho.apart u (hm.mem_other hu)) ?_
    rw [hm.tenant_eq]
    exact ho.apart t hm.mem_moved
  · refine hm.forall_after (fun u hu sub hsub => ?_) fun sub hsub => ?_
    · rw [hm.find?_other ho.sound hu] at hsub
      exact ho.within u (hm.mem_other hu) sub hsub
    · rw [hm.relay_moves.source_eq] at hsub
      obtain ⟨id, hid, hfind⟩ := Option.bind_eq_some_iff.1 hsub
      obtain ⟨sub₀, hsub₀, hears⟩ := hm.relay_moves.find?_own ho.sound.plain hid hfind
      have hbind : t.relay.source.bind s.store.hub.find? = some sub₀ := by
        rw [hid]
        exact hsub₀
      rw [hm.tenant_eq, hears]
      exact ho.within t hm.mem_moved sub₀ hbind

theorem listeners_shift (hm : s.MovesAt l₁ t l₂ t' s') (hs : s.Sound) (c : String) :
    s.store.hub.listeners c + (t'.seen s'.store.hub).listens c =
      s'.store.hub.listeners c + (t.seen s.store.hub).listens c := by
  have hlistens : ∀ (u : RelayTask) (h : Hub),
      (u.seen h).listens c = ((u.relay.source.bind h.find?).map (·.listens c)).getD 0 := by
    intro u h
    unfold SeenTask.listens RelayTask.seen Relay.seen
    rw [Option.map_map]
    rfl
  rw [hlistens, hlistens, hm.relay_moves.source_eq]
  exact hm.relay_moves.listeners_shift hs.plain c

/-- The view after a move, when the relays of the tenant and what listens on its channels are as
given. -/
theorem view_eq (hm : s.MovesAt l₁ t l₂ t' s') (hs : s.Sound) {listeners : String → Nat}
    {relays : List SeenTask} (hl : ∀ c, s'.store.hub.listeners (a.isolate c) = listeners c)
    (hr : (s'.relaysOf a).map (·.seen s'.store.hub) = relays) :
    s'.view a = { s.view a with listeners, relays } := by
  have hstore := hm.relay_moves.store_eq hs.plain
  have hentries : s'.store.entries = s.store.entries := by rw [hstore]
  refine View.ext hm.alike.gateway hm.alike.clock hm.alike.isShutDown ?_ ?_ (funext hl) hr
  · simp only [view, hentries, hm.alike.clock]
  · exact (hm.relay_moves.nextId_eq hs.plain).2

/-- The others of a tenant look the same after a move. -/
theorem map_seen_other (hm : s.MovesAt l₁ t l₂ t' s') (hs : s.Sound) {l : List RelayTask}
    (hl : l = l₁ ∨ l = l₂) :
    (l.filter (·.relay.tenant = a)).map (·.seen s'.store.hub) =
      (l.filter (·.relay.tenant = a)).map (·.seen s.store.hub) := by
  refine List.map_congr_left fun u hu => hm.seen_other hs ?_
  have hmem := (List.mem_filter.1 hu).1
  rcases hl with rfl | rfl
  · exact .inl hmem
  · exact .inr hmem

/-- A move of a relay of another tenant cannot be seen. -/
theorem view_other (hm : s.MovesAt l₁ t l₂ t' s') (ho : s.Orderly owner a)
    (hne : t.relay.tenant ≠ a) : s'.view a = s.view a := by
  have ho' := hm.orderly ho
  have hne' : t'.relay.tenant ≠ a := hm.tenant_eq ▸ hne
  refine hm.view_eq ho.sound (fun c => ?_) ?_
  · have hshift := hm.listeners_shift ho.sound (a.isolate c)
    have hbefore := ho.listens_other hm.mem_moved hne c
    have hmem : t' ∈ s'.relays := by
      rw [hm.relays_after]
      exact List.mem_append_right l₁ List.mem_cons_self
    have hafter := ho'.listens_other hmem hne' c
    show s'.store.hub.listeners (a.isolate c) = s.store.hub.listeners (a.isolate c)
    omega
  · unfold relaysOf
    rw [hm.relays_after, hm.relays_eq, List.filter_append, List.filter_append,
      List.filter_cons_of_neg (by simpa using hne'), List.filter_cons_of_neg (by simpa using hne),
      List.map_append, List.map_append, hm.map_seen_other ho.sound (.inl rfl),
      hm.map_seen_other ho.sound (.inr rfl)]

/-- A move of an own relay is seen as a move of what is seen of it. -/
theorem view_own (hm : s.MovesAt l₁ t l₂ t' s') (ho : s.Orderly owner a)
    (ht : t.relay.tenant = a) :
    let before := (l₁.filter (·.relay.tenant = a)).map (·.seen s.store.hub)
    let behind := (l₂.filter (·.relay.tenant = a)).map (·.seen s.store.hub)
    (s.view a).relays = before ++ t.seen s.store.hub :: behind ∧
      s'.view a =
        (s.view a).moved a before (t.seen s.store.hub) (t'.seen s'.store.hub) behind := by
  intro before behind
  have ht' : t'.relay.tenant = a := hm.tenant_eq.trans ht
  constructor
  · show (s.relaysOf a).map (·.seen s.store.hub) = _
    unfold relaysOf
    rw [hm.relays_eq, List.filter_append, List.filter_cons_of_pos (by simpa using ht),
      List.map_append, List.map_cons]
  · refine hm.view_eq ho.sound (fun c => ?_) ?_
    · have hshift := hm.listeners_shift ho.sound (a.isolate c)
      show s'.store.hub.listeners (a.isolate c) = s.store.hub.listeners (a.isolate c) +
        (t'.seen s'.store.hub).listens (a.isolate c) - (t.seen s.store.hub).listens (a.isolate c)
      omega
    · unfold relaysOf
      rw [hm.relays_after, List.filter_append, List.filter_cons_of_pos (by simpa using ht'),
        List.map_append, List.map_cons, hm.map_seen_other ho.sound (.inl rfl),
        hm.map_seen_other ho.sound (.inr rfl)]

end MovesAt

end Service

end Tenancy

