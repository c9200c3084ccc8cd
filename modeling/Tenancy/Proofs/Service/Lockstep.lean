import Mathlib.Data.List.Forall2
import Tenancy.Proofs.Rpc.Refinement
import Tenancy.Proofs.Service.Stop

/-!
# In lockstep

Two services go through one schedule; on the left side some relays were stopped, on the right side
they were not. They stay in lockstep (`Service.Lockstep`): all other relays are the same on both
sides, and so is whatever does not have to do with the stopped ones, the counts of subscribers apart.
Every rightful turn keeps the sides in lockstep, and is answered alike unless it is about a stopped
relay (`Lockstep.turn`).
-/

namespace Tenancy

/-! ## What is compared -/

/-- The relay that a step is about. -/
def Step.relay? : Step → Option Nat
  | .read handle _ | .cancel handle | .leave handle | .hangUp handle | .outcome handle => some handle
  | _ => none

/-- The relay that a turn is about. -/
def Turn.relay? : Turn → Option Nat
  | .act x => x.relay?
  | .take handle | .move handle => some handle
  | .wall _ => none

/-- The turn is not about a relay that is stopped. After a shutdown that is certain only of turns
that are about no relay at all. -/
def Stop.spares (x : Stop) (y : Turn) : Bool :=
  match x.handle?, y.relay? with
  | _, none => true
  | some handle, some other => other ≠ handle
  | none, some _ => false

/-- A turn that is spared is about no relay that is stopped. -/
theorem Stop.stops_of_spares {x : Stop} {y : Turn} {t : RelayTask} (hy : y.relay? = some t.handle)
    (hspared : x.spares y = true) : x.stops t = false := by
  unfold Stop.spares at hspared
  unfold Stop.stops
  rw [hy] at hspared
  cases hx : x.handle? with
  | none =>
    rw [hx] at hspared
    cases hspared
  | some stopped =>
    rw [hx] at hspared
    exact decide_eq_false (of_decide_eq_true hspared)

/-- The same answer, but perhaps with a smaller number of subscribers that a publish reached. -/
inductive Answer.Within : Answer → Answer → Prop where
  | same (a : Answer) : Within a a
  | stored {m n : Nat} (h : m ≤ n) : Within (.stored (.ok (.count m))) (.stored (.ok (.count n)))
  | called {m n : Nat} (h : m ≤ n) :
    Within (.called (.ok (.published m))) (.called (.ok (.published n)))
  | replied {m n : Nat} (h : m ≤ n) :
    Within (.replied (.ok (.publish ⟨Rpc.countWord m⟩)))
      (.replied (.ok (.publish ⟨Rpc.countWord n⟩)))

/-- The ledger has nothing to do with how many subscribers a publish reached. -/
theorem Answer.Within.ledger_eq {a a' : Answer} (h : a.Within a') (l : Holdings) (y : Turn) :
    y.ledger l a' = y.ledger l a := by
  cases y with
  | act x =>
    cases x with
    | store c => cases h <;> cases c <;> rfl
    | _ => cases h <;> rfl
  | _ => rfl

/-- Nor has what callers do with their relays. -/
theorem Turn.ledger_of_relay? {y : Turn} {handle : Nat} (hy : y.relay? = some handle) (l : Holdings)
    (a : Answer) : y.ledger l a = l := by
  cases y with
  | act x =>
    cases x with
    | read | cancel | leave | hangUp | outcome => rfl
    | _ => cases hy
  | _ => rfl

/-! ## Pairs of relays -/

/-- A relay on the left and on the right side. It is the same, with a subscription that both sides
share; or it was stopped on the left side, so that it has ended there or is about to. -/
inductive Stop.Pair (x : Stop) (D : List Nat) : RelayTask → RelayTask → Prop where
  | same {t : RelayTask} (hx : x.stops t = false)
    (hD : ∀ id, t.relay.source = some id → id ∉ D) : Pair x D t t
  | stopped {t t' : RelayTask} (hx : x.stops t = true)
    (hD : ∀ id, t.relay.source = some id → id ∈ D)
    (handle : t'.handle = t.handle) (ofGateway : t'.ofGateway = t.ofGateway)
    (source : t'.relay.source = t.relay.source) (channels : t'.relay.channels = t.relay.channels)
    (hstop : t.relay.isEnded = true ∨
      t.relay.interruption?.isSome = true ∧ t'.relay.isEnded = false) : Pair x D t t'

namespace Stop.Pair

variable {x : Stop} {D D' : List Nat} {t t' u u' : RelayTask}

theorem handle_eq (h : x.Pair D t t') : t'.handle = t.handle := by
  cases h with
  | same => rfl
  | stopped hx hD handle => exact handle

/-- The sides agree on what is stopped. -/
theorem stops_eq (h : x.Pair D t t') : x.stops t' = x.stops t := by
  cases h with
  | same => rfl
  | stopped hx hD handle ofGateway =>
    unfold Stop.stops
    rw [handle, ofGateway]

theorem eq_of_spared (h : x.Pair D t t') (hx : x.stops t = false) : t' = t := by
  cases h with
  | same => rfl
  | stopped hx' => cases hx.symm.trans hx'

/-- Nothing is held on the left side that is not held on the right side. -/
theorem holding? (h : x.Pair D t t') :
    t.relay.holding? = none ∨ t.relay.holding? = t'.relay.holding? := by
  cases h with
  | same => exact .inr rfl
  | stopped hx hD handle ofGateway source channels hstop =>
    cases he : t.relay.isEnded with
    | true => exact .inl (if_pos he)
    | false =>
      rcases hstop with he' | ⟨-, he'⟩
      · cases he.symm.trans he'
      · exact .inr (Relay.holding?_congr source.symm channels.symm (he.trans he'.symm))

theorem mono (h : x.Pair D t t') (hD : D ⊆ D')
    (hnew : ∀ id, t.relay.source = some id → id ∈ D' → id ∈ D) : x.Pair D' t t' := by
  cases h with
  | same hx hid => exact .same hx fun id hs hmem => hid id hs (hnew id hs hmem)
  | stopped hx hid handle ofGateway source channels hstop =>
    exact .stopped hx (fun id hs => hD (hid id hs)) handle ofGateway source channels hstop

/-- The caller does the same on both sides. -/
theorem map (h : x.Pair D t t') {f : RelayTask → RelayTask}
    (hf : ∀ t : RelayTask, t.Handled (f t)) : x.Pair D (f t) (f t') := by
  have hstops : ∀ t, x.stops (f t) = x.stops t := by
    intro t
    unfold Stop.stops
    rw [(hf t).handle, (hf t).ofGateway]
  cases h with
  | same hx hD =>
    refine .same ((hstops t).trans hx) fun id hs => hD id ?_
    rwa [(hf t).source] at hs
  | stopped hx hD handle ofGateway source channels hstop =>
    refine .stopped ((hstops t).trans hx) (fun id hs => hD id ?_) ?_ ?_ ?_ ?_ ?_
    · rwa [(hf t).source] at hs
    · rw [(hf t).handle, (hf t').handle, handle]
    · rw [(hf t).ofGateway, (hf t').ofGateway, ofGateway]
    · rw [(hf t).source, (hf t').source, source]
    · rw [(hf t).channels, (hf t').channels, channels]
    · rw [(hf t).isEnded_eq, (hf t').isEnded_eq]
      exact hstop.imp_right (And.imp_left (hf t).interrupted)

end Stop.Pair

/-! ## Sides -/

theorem forall₂_split {α β : Type} {R : α → β → Prop} {l₁ l₂ : List α} {a : α} {bs : List β}
    (h : List.Forall₂ R (l₁ ++ a :: l₂) bs) :
    ∃ k₁ b k₂, bs = k₁ ++ b :: k₂ ∧ List.Forall₂ R l₁ k₁ ∧ R a b ∧ List.Forall₂ R l₂ k₂ := by
  induction l₁ generalizing bs with
  | nil =>
    obtain ⟨b, k₂, hab, hrest, rfl⟩ := List.forall₂_cons_left_iff.1 h
    exact ⟨[], b, k₂, rfl, .nil, hab, hrest⟩
  | cons c l₁ ih =>
    obtain ⟨d, ds, hcd, hrest, rfl⟩ := List.forall₂_cons_left_iff.1 h
    obtain ⟨k₁, b, k₂, rfl, h₁, hab, h₂⟩ := ih hrest
    exact ⟨d :: k₁, b, k₂, rfl, .cons hcd h₁, hab, h₂⟩

namespace Service

/-- The relays that `x` stops were stopped on the left side. Their subscriptions are in `D`, and
callers hold those in `l`. -/
structure Lockstep (x : Stop) (D : List Nat) (l : Holdings) (s s' : Service) : Prop where
  twins : s.store.Twins D s'.store
  gateway : s'.gateway = s.gateway
  clock : s'.clock = s.clock
  relays : List.Forall₂ (x.Pair D) s.relays s'.relays
  held : ∀ p ∈ l, p.1 ∉ D
  lt : ∀ id ∈ D, id < s.store.hub.nextId
  /-- The handle of a stopped relay is not free. -/
  aimed : ∀ handle, x.handle? = some handle → ∃ t ∈ s.relays, t.handle = handle
  /-- Only a shutdown is remembered, so that it stops later relays too. -/
  shut : match x.handle? with
    | some _ => s'.isShutDown = s.isShutDown
    | none => s.isShutDown = true

namespace Lockstep

variable {x : Stop} {D : List Nat} {l : Holdings} {s s' : Service} {handle : Nat}

theorem task? (h : Lockstep x D l s s') (handle : Nat) :
    Option.Rel (x.Pair D) (s.task? handle) (s'.task? handle) := by
  have hrelays := h.relays
  unfold Service.task?
  generalize s.relays = ts, s'.relays = ts' at hrelays
  induction hrelays with
  | nil => exact .none
  | @cons t t' ts ts' ht _ ih =>
    by_cases hh : t.handle = handle
    · have hh' : t'.handle = handle := ht.handle_eq.trans hh
      simpa [hh, hh'] using Option.Rel.some ht
    · have hh' : t'.handle ≠ handle := fun e => hh (ht.handle_eq.symm.trans e)
      simpa [hh, hh'] using ih

theorem isNone_task? (h : Lockstep x D l s s') (handle : Nat) :
    (s'.task? handle).isNone = (s.task? handle).isNone := by
  have ht := h.task? handle
  generalize s.task? handle = t, s'.task? handle = t' at ht
  cases ht <;> rfl

/-- The sides agree on what is rightful. -/
theorem isRightful_eq (h : Lockstep x D l s s') (y : Turn) :
    y.isRightful l s' = y.isRightful l s := by
  cases y with
  | act y =>
    cases y with
    | relayFeed f how => exact congrArg (_ && ·) (h.isNone_task? how.handle)
    | relayChannels t channels how => exact h.isNone_task? how.handle
    | call t r given =>
      cases r with
      | subscribe names => exact h.isNone_task? given.handle
      | _ => rfl
    | rpc caller c given =>
      cases c with
      | subscribe m => exact h.isNone_task? given.handle
      | _ => rfl
    | _ => rfl
  | _ => rfl

/-- A relay with another handle than the stopped one is the same on both sides. -/
theorem task?_of_spared (h : Lockstep x D l s s') {y : Turn} (hy : y.relay? = some handle)
    (hspared : x.spares y = true) : s'.task? handle = s.task? handle := by
  have ht := h.task? handle
  generalize hs : s.task? handle = t, hs' : s'.task? handle = t' at ht
  cases ht with
  | none => rfl
  | @some t t' hpair =>
    rw [← (task?_mem hs).2] at hy
    rw [hpair.eq_of_spared (Stop.stops_of_spares hy hspared)]

/-- A relay with a new handle is stopped by a shutdown alone, if the gateway opens it. -/
theorem stops_fresh (h : Lockstep x D l s s') {u : RelayTask} (hu : s.task? u.handle = none) :
    x.stops u = (x.handle?.isNone && u.ofGateway) := by
  unfold Stop.stops
  cases hx : x.handle? with
  | none => rfl
  | some stopped =>
    refine decide_eq_false fun hhandle => ?_
    obtain ⟨t, ht, hstopped⟩ := h.aimed stopped hx
    exact task?_eq_none_iff.1 hu t ht (hstopped.trans hhandle.symm)

/-- A relay that is started by hand is not stopped. -/
theorem stops_started (h : Lockstep x D l s s') {u : RelayTask} (hu : s.task? u.handle = none)
    (hhand : u.ofGateway = false) : x.stops u = false := by
  rw [h.stops_fresh hu, hhand, Bool.and_false]

/-! ## Counts -/

theorem holdings_sublist (h : Lockstep x D l s s') : s.holdings.Sublist s'.holdings := by
  have hrelays := h.relays
  unfold holdings
  generalize s.relays = ts, s'.relays = ts' at hrelays
  induction hrelays with
  | nil => exact .slnil
  | @cons t t' ts ts' ht _ ih =>
    rw [List.filterMap_cons, List.filterMap_cons]
    rcases ht.holding? with hnone | hsame
    · rw [hnone]
      cases t'.relay.holding? with
      | none => exact ih
      | some p => exact ih.cons p
    · rw [hsame]
      cases t'.relay.holding? with
      | none => exact ih
      | some p => exact ih.cons_cons p

/-- While the stores are open, no channel has more listeners on the left than on the right. -/
theorem listeners_le (h : Lockstep x D l s s') (hs : s.Steady l) (hs' : s'.Steady l)
    (ho : s.store.closed = false) (c : String) :
    s.store.hub.listeners c ≤ s'.store.hub.listeners c := by
  obtain ⟨base, hbooks, -⟩ := hs.accounted
  obtain ⟨base', hbooks', -⟩ := hs'.accounted
  have ho' : s'.store.closed = false := h.twins.closed_eq.trans ho
  rw [← (hs.inMemory.tidy ho).count_eq, ← (hs'.inMemory.tidy ho').count_eq, hbooks.count_eq ho,
    hbooks'.count_eq ho']
  exact (h.holdings_sublist.append_left l).countP_le

/-! ## Parts of turns -/

/-- What is left behind in the log makes no difference. -/
theorem leaving (h : Lockstep x D l s s') (e e' : Effects) :
    Lockstep x D l (s.leaving e) (s'.leaving e') :=
  ⟨h.twins, h.gateway, h.clock, h.relays, h.held, h.lt, h.aimed, h.shut⟩

theorem withStores (h : Lockstep x D l s s') {st st' : Store} (ht : st.Twins D st')
    (hle : s.store.hub.nextId ≤ st.hub.nextId) :
    Lockstep x D l { s with store := st } { s' with store := st' } :=
  ⟨ht, h.gateway, h.clock, h.relays, h.held, fun id hid => Nat.lt_of_lt_of_le (h.lt id hid) hle,
    h.aimed, h.shut⟩

/-- Callers do the same on both sides. -/
theorem mapRelays (h : Lockstep x D l s s') {f : RelayTask → RelayTask}
    (hf : ∀ t : RelayTask, t.Handled (f t)) :
    Lockstep x D l { s with relays := s.relays.map f } { s' with relays := s'.relays.map f } := by
  refine ⟨h.twins, h.gateway, h.clock, ?_, h.held, h.lt, fun handle hx => ?_, h.shut⟩
  · exact List.forall₂_map_left_iff.2 (List.forall₂_map_right_iff.2
      (h.relays.imp fun t t' ht => ht.map hf))
  · obtain ⟨t, ht, hhandle⟩ := h.aimed handle hx
    exact ⟨f t, List.mem_map_of_mem ht, (hf t).handle.trans hhandle⟩

theorem withHeld (h : Lockstep x D l s s') {l' : Holdings} (hl : ∀ p ∈ l', p.1 ∉ D) :
    Lockstep x D l' s s' :=
  { h with held := hl }

/-- A caller holds one more subscription, a new one. -/
theorem addHeld (h : Lockstep x D l s s') {id : Nat} (hid : ∀ j ∈ D, j < id)
    (channels : List String) : Lockstep x D (l ++ [(id, channels)]) s s' := by
  refine h.withHeld fun p hp => ?_
  rcases List.mem_append.1 hp with hp | hp
  · exact h.held p hp
  · rw [List.mem_singleton.1 hp]
    exact fun hmem => Nat.lt_irrefl _ (hid id hmem)

/-- A relay starts that is not stopped. -/
theorem addSame (h : Lockstep x D l s s') {u : RelayTask} (hu : x.stops u = false)
    (hD : ∀ id, u.relay.source = some id → id ∉ D) :
    Lockstep x D l { s with relays := s.relays ++ [u] } { s' with relays := s'.relays ++ [u] } := by
  refine ⟨h.twins, h.gateway, h.clock, ?_, h.held, h.lt, fun handle hx => ?_, h.shut⟩
  · exact List.rel_append h.relays (.cons (.same hu hD) .nil)
  · obtain ⟨t, ht, hhandle⟩ := h.aimed handle hx
    exact ⟨t, List.mem_append_left _ ht, hhandle⟩

/-- A relay starts, on a new subscription, that is stopped from the beginning on the left side. -/
theorem addStopped (h : Lockstep x D l s s') {id : Nat}
    (hnew : ∀ j ∈ l.map (·.1) ++ s.relays.filterMap (·.relay.source), j ≠ id)
    (hlt : id < s.store.hub.nextId) {u u' : RelayTask} (hu : x.Pair (id :: D) u u') :
    Lockstep x (id :: D) l { s with relays := s.relays ++ [u] }
      { s' with relays := s'.relays ++ [u'] } := by
  have hsub : D ⊆ id :: D := List.subset_cons_self _ _
  refine ⟨h.twins.mono hsub, h.gateway, h.clock, ?_, fun p hp hmem => ?_, fun j hj => ?_,
    fun handle hx => ?_, h.shut⟩
  · have hwith := (List.forall₂_and_left _ _).2 ⟨fun t (ht : t ∈ s.relays) => ht, h.relays⟩
    refine List.rel_append (hwith.imp fun t t' ht => ?_) (.cons hu .nil)
    refine ht.2.mono hsub fun j hj hmem => (List.mem_cons.1 hmem).resolve_left ?_
    exact hnew j (List.mem_append_right _ (List.mem_filterMap.2 ⟨t, ht.1, hj⟩))
  · refine h.held p hp ((List.mem_cons.1 hmem).resolve_left ?_)
    exact hnew p.1 (List.mem_append_left _ (List.mem_map_of_mem hp))
  · rcases List.mem_cons.1 hj with rfl | hj
    · exact hlt
    · exact h.lt j hj
  · obtain ⟨t, ht, hhandle⟩ := h.aimed handle hx
    exact ⟨t, List.mem_append_left _ ht, hhandle⟩

/-! ## Moves -/

/-- One relay becomes another on either side. -/
theorem replace (h : Lockstep x D l s s') {l₁ l₂ k₁ k₂ : List RelayTask} {t u u' : RelayTask}
    (hsplit : s.relays = l₁ ++ t :: l₂) (h₁ : List.Forall₂ (x.Pair D) l₁ k₁)
    (hu : x.Pair D u u') (h₂ : List.Forall₂ (x.Pair D) l₂ k₂) (hhandle : u.handle = t.handle) :
    Lockstep x D l { s with relays := l₁ ++ u :: l₂ } { s' with relays := k₁ ++ u' :: k₂ } := by
  refine ⟨h.twins, h.gateway, h.clock, List.rel_append h₁ (.cons hu h₂), h.held, h.lt,
    fun stopped hx => ?_, h.shut⟩
  obtain ⟨v, hv, hstopped⟩ := h.aimed stopped hx
  rw [hsplit] at hv
  rcases List.mem_append.1 hv with hv | hv
  · exact ⟨v, List.mem_append_left _ hv, hstopped⟩
  · rcases List.mem_cons.1 hv with rfl | hv
    · exact ⟨u, List.mem_append_right _ List.mem_cons_self, hhandle.trans hstopped⟩
    · exact ⟨v, List.mem_append_right _ (List.mem_cons_of_mem _ hv), hstopped⟩

theorem handles_eq {ts ts' : List RelayTask} (h : List.Forall₂ (x.Pair D) ts ts') :
    ts'.map (·.handle) = ts.map (·.handle) := by
  induction h with
  | nil => rfl
  | cons ht _ ih => rw [List.map_cons, List.map_cons, ht.handle_eq, ih]

/-- What a relay that was stopped makes of its side: it touches nothing that the sides share. -/
theorem moved {t : RelayTask} {r : Relay} {store store' : Store} {now : Timestamp} {e : Effects}
    (ht : store.Twins D store') (hD : ∀ id, t.relay.source = some id → id ∈ D) {st : Store}
    (hmove : t.relay.move? store now = some (r, st, e) ∨
      t.relay.move? store now = none ∧ r = t.relay ∧ st = store) :
    r.source = t.relay.source ∧ r.channels = t.relay.channels ∧ st.Twins D store' ∧
      store.hub.nextId ≤ st.hub.nextId := by
  rcases hmove with hmove | ⟨-, rfl, rfl⟩
  · have hmoves := Relay.moves_of_move? hmove
    exact ⟨hmoves.source_eq, hmoves.channels_eq, hmoves.twins_left ht hD,
      (hmoves.follows ht.left).nextId_le⟩
  · exact ⟨rfl, rfl, ht, Nat.le_refl _⟩

/-- A stopped relay has ended when it had its turn. -/
theorem ended_of_moved {r r' : Relay} {store st : Store} {now : Timestamp} {e : Effects}
    (hstop : r.isEnded = true ∨ r.interruption?.isSome = true)
    (hmove : r.move? store now = some (r', st, e) ∨
      r.move? store now = none ∧ r' = r ∧ st = store) : r'.isEnded = true := by
  cases he : r.isEnded with
  | true =>
    rcases hmove with hmove | ⟨-, rfl, -⟩
    · cases (Relay.move?_of_ended he store now).symm.trans hmove
    · exact he
  | false =>
    rw [he] at hstop
    obtain ⟨o, ho⟩ := Option.isSome_iff_exists.1 (hstop.resolve_left Bool.noConfusion)
    obtain ⟨e', hends⟩ := Relay.move?_of_interrupted he ho store now
    rcases hmove with hmove | ⟨hnone, -⟩
    · cases hends.symm.trans hmove
      rfl
    · cases hends.symm.trans hnone

theorem move (h : Lockstep x D l s s') (handle : Nat) :
    Lockstep x D l (s.turn (.move handle)).2 (s'.turn (.move handle)).2 ∧
      (x.spares (.move handle) = true →
        (s'.turn (.move handle)).1 = (s.turn (.move handle)).1) := by
  cases ht : s.task? handle with
  | none =>
    have ht' : s'.task? handle = none := by
      rw [← Option.isNone_iff_eq_none, h.isNone_task?, ht]
      rfl
    rw [turn, turn, moveOf?_of_none ht, moveOf?_of_none ht']
    exact ⟨h, fun _ => rfl⟩
  | some t =>
    obtain ⟨l₁, l₂, hsplit, hhandle, hbefore⟩ := split_of_task? ht
    obtain ⟨k₁, t', k₂, hsplit', h₁, hpair, h₂⟩ := forall₂_split (hsplit ▸ h.relays)
    have hhandle' : t'.handle = handle := hpair.handle_eq.trans hhandle
    have hbefore' : ∀ u ∈ k₁, u.handle ≠ handle := by
      intro u hu
      have hmem : u.handle ∈ l₁.map (·.handle) := handles_eq h₁ ▸ List.mem_map_of_mem hu
      obtain ⟨v, hv, hvu⟩ := List.mem_map.1 hmem
      exact hvu ▸ hbefore v hv
    obtain ⟨r, store, e, hflag, hturn, hmove⟩ := turn_move hsplit hhandle hbefore
    obtain ⟨r', store', e', hflag', hturn', hmove'⟩ := turn_move hsplit' hhandle' hbefore'
    rw [h.clock] at hflag' hmove'
    -- both sides after the move, from the relay and the stores after it
    have hafter : store.Twins D store' → s.store.hub.nextId ≤ store.hub.nextId →
        x.Pair D { t with relay := r } { t' with relay := r' } →
        Lockstep x D l (s.turn (.move handle)).2 (s'.turn (.move handle)).2 := by
      intro htwins hle hpair'
      rw [hturn, hturn']
      exact ((h.withStores htwins hle).replace hsplit h₁ hpair' h₂ rfl).leaving e e'
    cases hpair with
    | same hx hD =>
      have hrel := Relay.move?_twins h.twins hD s.clock.wall
      rw [hflag, hflag']
      generalize hm : t.relay.move? s.store s.clock.wall = m,
        hm' : t.relay.move? s'.store s.clock.wall = m' at hrel hmove hmove'
      cases hrel with
      | none =>
        obtain ⟨-, rfl, rfl⟩ := hmove.resolve_left fun hsome => by cases hsome
        obtain ⟨-, rfl, rfl⟩ := hmove'.resolve_left fun hsome => by cases hsome
        exact ⟨hafter h.twins (Nat.le_refl _) (.same hx hD), fun _ => rfl⟩
      | @some y y' hyy' =>
        cases hmove.resolve_right fun hnone => by cases hnone.1
        cases hmove'.resolve_right fun hnone => by cases hnone.1
        obtain ⟨hrelay, htwins⟩ := hyy'
        have hmoves := Relay.moves_of_move? hm
        have hle := (hmoves.follows h.twins.left).nextId_le
        cases hrelay
        refine ⟨hafter htwins hle (.same hx fun id hid => hD id ?_), fun _ => rfl⟩
        exact hmoves.source_eq.symm.trans hid
    | stopped hx hD hhandles hgateway hsource hchannels hstop =>
      have hD' : ∀ id, t'.relay.source = some id → id ∈ D := fun id hid =>
        hD id (hsource.symm.trans hid)
      obtain ⟨hs, hc, htwins, hle⟩ := moved h.twins hD hmove
      obtain ⟨hs', hc', htwins', -⟩ := moved htwins.symm hD' hmove'
      refine ⟨hafter htwins'.symm hle ?_, fun hspared => ?_⟩
      · refine .stopped hx (fun id hid => hD id (hs.symm.trans hid)) hhandles hgateway ?_ ?_ ?_
        · rw [hs, hs', hsource]
        · rw [hc, hc', hchannels]
        · exact .inl (ended_of_moved (hstop.imp_right And.left) hmove)
      · have habout : (Turn.move handle).relay? = some t.handle := congrArg some hhandle.symm
        cases hx.symm.trans (Stop.stops_of_spares habout hspared)

/-! ## Callers -/

theorem pick (h : Lockstep x D l s s') (hs : Roster l s.relays s.store)
    (hs' : Roster l s'.relays s'.store) (handle : Nat) :
    Lockstep x D l (s.pick handle).2 (s'.pick handle).2 ∧
      (x.spares (.take handle) = true → (s'.pick handle).1 = (s.pick handle).1) := by
  rw [pick_eq hs.handles_nodup, pick_eq hs'.handles_nodup]
  refine ⟨h.mapRelays (.ite .taken), fun hspared => ?_⟩
  exact congrArg offered (h.task?_of_spared (y := .take handle) rfl hspared)

theorem outcome (h : Lockstep x D l s s') (hs : Roster l s.relays s.store)
    (hs' : Roster l s'.relays s'.store) (handle : Nat) :
    Lockstep x D l (s.act (.outcome handle)).2 (s'.act (.outcome handle)).2 ∧
      (x.spares (.act (.outcome handle)) = true →
        (s'.act (.outcome handle)).1 = (s.act (.outcome handle)).1) := by
  rw [outcome_eq hs.handles_nodup, outcome_eq hs'.handles_nodup]
  refine ⟨h.mapRelays (.ite .reported), fun hspared => ?_⟩
  have htask := h.task?_of_spared (y := .act (.outcome handle)) rfl hspared
  exact congrArg (fun t => (told t).1) htask

/-! ## Calls -/

/-- A call opens a relay on both sides, or on none. -/
theorem after (h : Lockstep x D l s s') (hs : Roster l s.relays s.store) {fresh : String}
    {t : Tenant} {r : Request} (given : Supply)
    (hfresh : ∀ names, r = .subscribe names → s.task? given.handle = none)
    (hreply : (s.gateway.call s.clock fresh t r s.store).Twins D
      (s'.gateway.call s'.clock fresh t r s'.store)) :
    let reply := s.gateway.call s.clock fresh t r s.store
    let reply' := s'.gateway.call s'.clock fresh t r s'.store
    ∃ D', Lockstep x D' l (s.after reply.store reply.effects reply.feed given)
      (s'.after reply'.store reply'.effects reply'.feed given) := by
  intro reply reply'
  rcases Gateway.call_cases hs.inMemory s.clock fresh t s.gateway r with
    ⟨hfeed, hlater⟩ | ⟨names, store, hr, hlater, hnext, hchannels, hfeed, hstore⟩
  · have hafter := (h.withStores hreply.store hlater.nextId_le).leaving reply.effects reply'.effects
    refine ⟨D, ?_⟩
    rw [hreply.feed, hfeed]
    exact hafter
  · have hle : s.store.hub.nextId < reply.store.hub.nextId := by
      have hsame : reply.store = store := hstore
      rw [hsame]
      omega
    have hstores := (h.withStores hreply.store (Nat.le_of_lt hle)).leaving reply.effects
      reply'.effects
    rw [hreply.feed, hfeed]
    let f : Feed := ⟨t, t.channels names, s.store.hub.nextId⟩
    have hstarts : ∀ (s : Service) (store : Store) (e : Effects), ∃ e',
        s.after store e (some f) given = Service.leaving
          { Service.leaving { s with store } e with
            relays := s.relays ++ [RelayTask.opened s given f] } e' := fun _ _ _ => ⟨_, rfl⟩
    obtain ⟨e, hleft⟩ := hstarts s reply.store reply.effects
    obtain ⟨e', hright⟩ := hstarts s' reply'.store reply'.effects
    have hstops := h.stops_fresh (u := RelayTask.opened s given f) (hfresh names hr)
    have hshut := h.shut
    rw [hleft, hright]
    cases hx : x.handle? with
    | some stopped =>
      rw [hx] at hshut hstops
      have hsame : RelayTask.opened s' given f = RelayTask.opened s given f := by
        unfold RelayTask.opened
        rw [h.gateway, hshut]
      rw [hsame]
      refine ⟨D, (hstores.addSame hstops fun id hid hmem => ?_).leaving e e'⟩
      cases hid
      exact Nat.lt_irrefl _ (h.lt _ hmem)
    | none =>
      -- after the shutdown, the new relay is interrupted on the left side
      rw [hx] at hshut hstops
      refine ⟨s.store.hub.nextId :: D, (hstores.addStopped (fun j hj => ?_) hle ?_).leaving e e'⟩
      · exact Nat.ne_of_lt (hs.ids_lt j hj)
      · refine .stopped hstops (fun id hid => ?_) rfl rfl rfl rfl (.inr ⟨?_, rfl⟩)
        · cases hid
          exact List.mem_cons_self
        · rw [Relay.isSome_interruption?]
          exact Bool.or_eq_true_iff.2 (.inl hshut)

/-! ## Steps -/

/-- Both sides are asked for an item of a subscription that they share. -/
theorem ask (h : Lockstep x D l s s') {id : Nat} (hid : id ∉ D) (left : Nat) :
    (s'.ask id left).1 = (s.ask id left).1 ∧ (s'.ask id left).2.1 = (s.ask id left).2.1 ∧
      Lockstep x D l (s.ask id left).2.2 (s'.ask id left).2.2 := by
  obtain ⟨harrival, hlag, htwins⟩ := h.twins.receive hid 0
  unfold Service.ask
  split
  · refine ⟨rfl, rfl, ?_⟩
    rw [h.twins.left.passTurn_eq, h.twins.right.passTurn_eq]
    exact h
  · have hle := (Store.Follows.receive h.twins.left id 0).nextId_le
    have hleft := congrArg (fun lag : Option Lag => left - 1 - lag.toList.length) hlag
    exact ⟨harrival, hleft, (h.withStores htwins hle).leaving _ _⟩

/-- The outcome of a turn on both sides. -/
structure Kept (x : Stop) (l : Holdings) (y : Turn) (s s' : Service) : Prop where
  lockstep : ∃ D, Lockstep x D (y.ledger l (s.turn y).1) (s.turn y).2 (s'.turn y).2
  within : x.spares y = true → (s.turn y).1.Within (s'.turn y).1

/-- A turn that is answered alike. -/
theorem Kept.of_eq {y : Turn} {a : Answer} {m : Holdings} {s₁ s₁' : Service}
    (hturn : s.turn y = (a, s₁)) (hturn' : s'.turn y = (a, s₁')) (hl : y.ledger l a = m)
    (h : Lockstep x D m s₁ s₁') : Kept x l y s s' := by
  subst hl
  refine ⟨⟨D, ?_⟩, fun _ => ?_⟩
  · rw [hturn, hturn']
    exact h
  · rw [hturn, hturn']
    exact .same a

section Steps

variable (h : Lockstep x D l s s') (hs : s.Steady l) (hs' : s'.Steady l)

include h hs hs'

theorem storeCall (c : StoreCall) : Kept x l (.act (.store c)) s s' := by
  have hle := (Store.Follows.call hs.inMemory s.clock.now c).nextId_le
  by_cases hc : ∃ channel payload, c = .publish channel payload
  · obtain ⟨channel, payload, rfl⟩ := hc
    obtain ⟨hfewer, htwins⟩ := h.twins.publish (h.listeners_le hs hs') channel payload
    refine ⟨⟨D, h.withStores htwins hle⟩, fun _ => ?_⟩
    show Answer.Within (.stored ((s.store.publish channel payload).1.map .count))
      (.stored ((s'.store.publish channel payload).1.map .count))
    generalize (s.store.publish channel payload).1 = a, (s'.store.publish channel payload).1 = a'
      at hfewer
    cases hfewer with
    | error e => exact .same _
    | ok hmn => exact .stored hmn
  · obtain ⟨hanswer, htwins⟩ := h.twins.call s.clock.now fun channel payload hcp =>
      hc ⟨channel, payload, hcp⟩
    have hafter := h.withStores htwins hle
    have hright : s'.turn (.act (.store c)) = (.stored (s'.store.call s.clock.now c).1,
        { s' with store := (s'.store.call s.clock.now c).2 }) := by
      rw [← h.clock]
      rfl
    have hleft : s.turn (.act (.store c)) = (.stored (s.store.call s.clock.now c).1,
        { s with store := (s.store.call s.clock.now c).2 }) := rfl
    rw [hanswer] at hright
    by_cases hsubscribe : ∃ channels, c = .subscribe channels
    · obtain ⟨channels, rfl⟩ := hsubscribe
      rcases Store.Follows.subscribe_cases hs.inMemory channels with ⟨store, heq, -⟩ | heq
      · refine .of_eq hleft hright ?_ (hafter.addHeld h.lt (distinct channels))
        rw [Store.call, heq]
        rfl
      · refine .of_eq hleft hright ?_ hafter
        rw [Store.call, heq]
        rfl
    · refine .of_eq hleft hright ?_ hafter
      cases c with
      | subscribe channels => exact absurd ⟨channels, rfl⟩ hsubscribe
      | _ => rfl

theorem call {t : Tenant} {r : Request} {given : Supply}
    (hr : (Step.call t r given).isRightful l s = true) :
    Kept x l (.act (.call t r given)) s s' := by
  have hreply : (s.gateway.call s.clock given.fresh t r s.store).Twins D
      (s'.gateway.call s'.clock given.fresh t r s'.store) := by
    rw [h.gateway, h.clock]
    exact Gateway.twins_call h.twins s.clock t (h.listeners_le hs hs') given.fresh s.gateway r
  refine ⟨h.after hs.roster given (fun names hnames => ?_) hreply, fun _ => ?_⟩
  · subst hnames
    exact Option.isNone_iff_eq_none.1 hr
  · show Answer.Within (.called (s.gateway.call s.clock given.fresh t r s.store).answer)
      (.called (s'.gateway.call s'.clock given.fresh t r s'.store).answer)
    rcases hreply.answer with heq | ⟨m, n, hmn, heq, heq'⟩
    · rw [heq]
      exact .same _
    · rw [heq, heq']
      exact .called hmn

theorem rpc {caller : Rpc.Caller} {c : Rpc.Call} {given : Supply}
    (hr : (Step.rpc caller c given).isRightful l s = true) :
    Kept x l (.act (.rpc caller c given)) s s' := by
  have hwho := caller.identifies_tenant
  cases htenant : caller.tenant with
  | error status =>
    have hturn : ∀ s : Service,
        s.turn (.act (.rpc caller c given)) = (.replied (.error status), s) := fun s =>
      act_rpc_of_error (htenant ▸ hwho) c given
    exact .of_eq (hturn s) (hturn s') rfl h
  | ok t =>
    have hcall : (Step.call t c.request given).isRightful l s = true := by
      cases c with
      | subscribe m => exact hr
      | _ => rfl
    obtain ⟨⟨D', hafter⟩, hwithin⟩ := call h hs hs' hcall
    have hturn : ∀ s : Service, s.turn (.act (.rpc caller c given)) =
        (.replied (Rpc.replyTo (s.gateway.call s.clock given.fresh t c.request s.store).answer),
          (s.turn (.act (.call t c.request given))).2) := fun s =>
      act_rpc_of_ok (htenant ▸ hwho) c given
    refine ⟨⟨D', ?_⟩, fun hspared => ?_⟩
    · rw [hturn, hturn]
      exact hafter
    · have hanswers : Answer.Within
          (.called (s.gateway.call s.clock given.fresh t c.request s.store).answer)
          (.called (s'.gateway.call s'.clock given.fresh t c.request s'.store).answer) :=
        hwithin rfl
      rw [hturn, hturn]
      generalize (s.gateway.call s.clock given.fresh t c.request s.store).answer = a,
        (s'.gateway.call s'.clock given.fresh t c.request s'.store).answer = a' at hanswers
      cases hanswers with
      | same => exact .same _
      | called hmn => exact .replied hmn

omit hs' in
theorem lock (t : Tenant) (key : String) (c : LockCall) : Kept x l (.act (.lock t key c)) s s' := by
  have hlocked : ∀ {f : Instant → Store → Except StoreError Bool × Store},
      (∀ s : Service, s.act (.lock t key c) =
        (.locked (f s.clock.now s.store).1, { s with store := (f s.clock.now s.store).2 })) →
      Store.TwinAnswers D (f s.clock.now s.store) (f s.clock.now s'.store) →
      s.store.Follows (f s.clock.now s.store).2 → Kept x l (.act (.lock t key c)) s s' := by
    intro f hact htwins hlater
    have hnow : s'.clock.now = s.clock.now := by rw [h.clock]
    have hright := hact s'
    rw [hnow, htwins.answer_eq] at hright
    exact .of_eq (hact s) hright rfl (h.withStores htwins.twins hlater.nextId_le)
  cases c with
  | acquire fresh ttl =>
    exact hlocked (f := fun now s => Lock.acquire (.ofLogical t key) fresh now s ttl) (fun _ => rfl)
      (h.twins.acquire _ fresh s.clock.now ttl) (.onEntries hs.inMemory fun es =>
        es.setIfAbsent s.clock.now _ fresh (some ttl))
  | release token =>
    exact hlocked (f := fun now s => Lock.release (.ofLogical t key) token now s) (fun _ => rfl)
      (h.twins.release _ token s.clock.now) (.onEntries hs.inMemory fun es =>
        es.compareAndDelete s.clock.now _ token)
  | renew token ttl =>
    exact hlocked (f := fun now s => Lock.renew (.ofLogical t key) token now s ttl) (fun _ => rfl)
      (h.twins.renew _ token s.clock.now ttl) (.onEntries hs.inMemory fun es =>
        es.compareAndExpire s.clock.now _ token ttl)

omit hs' in
theorem openFeed (t : Tenant) (channels : List String) :
    Kept x l (.act (.openFeed t channels)) s s' := by
  obtain ⟨hanswer, htwins⟩ := h.twins.feed t channels
  have hturn : ∀ s : Service, s.turn (.act (.openFeed t channels)) =
      (.fed (Feed.subscribe t channels s.store).1,
        { s with store := (Feed.subscribe t channels s.store).2 }) := fun _ => rfl
  have hleft := hturn s
  have hright := hturn s'
  rw [hanswer] at hright
  rcases Store.Follows.feed_cases hs.inMemory t channels with ⟨store, heq, hlater, -⟩ | heq
  · rw [heq] at hleft hright htwins
    exact .of_eq hleft hright rfl ((h.withStores htwins hlater.nextId_le).addHeld h.lt _)
  · rw [heq] at hleft hright htwins
    exact .of_eq hleft hright rfl (h.withStores htwins (Nat.le_refl _))

omit hs hs' in
theorem relayFeed {f : Feed} {how : RelayStart}
    (hr : (Step.relayFeed f how).isRightful l s = true) :
    Kept x l (.act (.relayFeed f how)) s s' := by
  obtain ⟨hmem, hfresh⟩ := Bool.and_eq_true_iff.1 hr
  let started := Relay.start f how.mailbox how.isCancelled how.turns
  let u : RelayTask := { handle := how.handle, relay := started.1 }
  have hstops := h.stops_started (u := u) (Option.isNone_iff_eq_none.1 hfresh) rfl
  have hturn : ∀ s : Service, s.turn (.act (.relayFeed f how)) =
      (.done, Service.leaving { s with relays := s.relays ++ [u] } started.2) := fun _ => rfl
  refine .of_eq (hturn s) (hturn s') rfl (D := D) ?_
  refine ((h.addSame hstops fun id hid => ?_).leaving _ _).withHeld fun p hp => ?_
  · cases hid
    exact h.held _ (List.contains_iff_mem.1 hmem)
  · exact h.held p (List.mem_filter.1 hp).1

omit hs' in
theorem relayChannels {t : Tenant} {channels : List String} {how : RelayStart}
    (hr : (Step.relayChannels t channels how).isRightful l s = true) :
    Kept x l (.act (.relayChannels t channels how)) s s' := by
  obtain ⟨hanswer, htwins⟩ := h.twins.feed t channels
  have hfresh := Option.isNone_iff_eq_none.1 hr
  have hright : Feed.subscribe t channels s'.store =
      ((Feed.subscribe t channels s.store).1, (Feed.subscribe t channels s'.store).2) := by
    rw [← hanswer]
  rcases Store.Follows.feed_cases hs.inMemory t channels with ⟨store, heq, hlater, -⟩ | heq
  · rw [heq] at hright htwins
    let f : Feed := ⟨t, t.channels channels, s.store.hub.nextId⟩
    let started := Relay.start f how.mailbox how.isCancelled how.turns
    let u : RelayTask := { handle := how.handle, relay := started.1 }
    have hturn : ∀ {s : Service} {store : Store},
        Feed.subscribe t channels s.store = (.ok f, store) →
        s.turn (.act (.relayChannels t channels how)) =
          (.done, Service.leaving { s with store, relays := s.relays ++ [u] } started.2) := by
      intro s store heq
      rw [turn, Service.act, heq]
      rfl
    have hstops := h.stops_started (u := u) hfresh rfl
    refine .of_eq (hturn heq) (hturn hright) rfl (D := D) ?_
    refine ((h.withStores htwins hlater.nextId_le).addSame hstops fun id hid hmem => ?_).leaving _ _
    cases hid
    exact Nat.lt_irrefl _ (h.lt _ hmem)
  · rw [heq] at hright htwins
    let started := Relay.startFailed t .closed how.mailbox how.isCancelled
    let u : RelayTask := { handle := how.handle, relay := started.1 }
    have hturn : ∀ {s : Service} {store : Store},
        Feed.subscribe t channels s.store = (.error .closed, store) →
        s.turn (.act (.relayChannels t channels how)) =
          (.done, Service.leaving { s with store, relays := s.relays ++ [u] } started.2) := by
      intro s store heq
      rw [turn, Service.act, heq]
      rfl
    have hstops := h.stops_started (u := u) hfresh rfl
    refine .of_eq (hturn heq) (hturn hright) rfl (D := D) ?_
    have hstores := h.withStores htwins (Nat.le_refl _)
    exact (hstores.addSame hstops fun id hid => by cases hid).leaving _ _

omit hs hs' in
theorem sweep : Kept x l (.act .sweep) s s' := by
  obtain ⟨hanswer, htwins⟩ := h.twins.purge s.clock.now
  have hnow : s'.clock.now = s.clock.now := by rw [h.clock]
  have hturn : ∀ s : Service, s.turn (.act .sweep) =
      (.count (s.store.purge s.clock.now).1,
        { s with store := (s.store.purge s.clock.now).2 }) := fun _ => rfl
  have hright := hturn s'
  rw [hnow, hanswer] at hright
  exact .of_eq (hturn s) hright rfl (h.withStores htwins (Nat.le_refl _))

/-- A store in memory has no subscription that could be broken. -/
theorem breakSubscriptions (e : StoreError) :
    Kept x l (.act (.breakSubscriptions e)) s s' := by
  have hnobody : ∀ {s : Store}, s.InMemory → s.breakSubscriptions e = (0, s) := by
    intro s hm
    refine Prod.ext ?_ (hm.breakSubscriptions_eq e)
    unfold Store.breakSubscriptions
    rw [hm.faults_eq]
    rfl
  have hturn : ∀ {s : Service}, s.store.InMemory →
      s.turn (.act (.breakSubscriptions e)) = (.count 0, s) := by
    intro s hm
    rw [turn, Service.act, hnobody hm]
  exact .of_eq (hturn hs.inMemory) (hturn hs'.inMemory) rfl h

omit hs hs' in
theorem drain {id : Nat} (hid : id ∉ D) (limit : Option Nat) :
    Kept x l (.act (.drain id limit)) s s' := by
  obtain ⟨hitems, hended, hafter⟩ := drainIn_rel (R := Lockstep x D l) id
    (fun left h => h.ask hid left) (s.store.waiting id + 1) stint limit h
  have hturn : ∀ s : Service, s.turn (.act (.drain id limit)) =
      (.drained (drainIn id (s.store.waiting id + 1) stint limit s).1
        (drainIn id (s.store.waiting id + 1) stint limit s).2.1,
        (drainIn id (s.store.waiting id + 1) stint limit s).2.2) := fun _ => rfl
  have hright := hturn s'
  rw [h.twins.waiting_eq hid, hitems, hended] at hright
  exact .of_eq (hturn s) hright rfl hafter

/-- Every rightful step keeps the sides in lockstep. -/
theorem act {y : Step} (hy : y.isRightful l s = true) : Kept x l (.act y) s s' := by
  cases y with
  | advance d =>
    refine .of_eq (D := D) (m := l) rfl rfl rfl ?_
    exact { h with clock := congrArg (·.advance d) h.clock }
  | sweep => exact h.sweep
  | startSweeper interval =>
    refine .of_eq (D := D) (m := l) rfl rfl rfl ?_
    exact { h with }
  | stopSweepers =>
    refine .of_eq (D := D) (m := l) rfl rfl rfl ?_
    exact { h with }
  | shutDown =>
    refine .of_eq (D := D) (m := l) rfl rfl rfl ?_
    refine { h.mapRelays (.ite .cancel) with shut := ?_ }
    cases x.handle? <;> rfl
  | closeStore =>
    refine .of_eq (D := D) (m := l) rfl rfl rfl ?_
    exact (h.withStores h.twins.close (Nat.le_refl _)).leaving _ _
  | setFailing on =>
    refine .of_eq (D := D) (m := l) rfl rfl rfl ?_
    refine h.withStores ?_ ?_
    · rw [hs.inMemory.setFailing_eq, hs'.inMemory.setFailing_eq]
      exact h.twins
    · exact Nat.le_refl _
  | breakSubscriptions e =>
    exact h.breakSubscriptions hs hs' e
  | store c => exact h.storeCall hs hs' c
  | drain id limit =>
    obtain ⟨p, hp, hpid⟩ := List.any_eq_true.1 hy
    exact h.drain (of_decide_eq_true hpid ▸ h.held p hp) limit
  | unsubscribe id =>
    refine .of_eq (D := D) rfl rfl rfl ?_
    have hle := (Store.Follows.unsubscribe hs.inMemory id).nextId_le
    refine (h.withStores (h.twins.unsubscribe id) hle).withHeld fun p hp => ?_
    exact h.held p (List.mem_filter.1 hp).1
  | lock t key c => exact h.lock hs t key c
  | call t r given => exact h.call hs hs' hy
  | rpc caller c given => exact h.rpc hs hs' hy
  | openFeed t channels => exact h.openFeed hs t channels
  | relayFeed f how => exact h.relayFeed hy
  | relayChannels t channels how => exact h.relayChannels hs hy
  | read handle limit => cases hy
  | cancel handle =>
    refine .of_eq (D := D) (m := l) rfl rfl rfl ?_
    exact h.mapRelays (.ite .cancel)
  | leave handle =>
    refine ⟨⟨D, h.mapRelays (.ite .leave)⟩, fun hspared => ?_⟩
    have htask := h.task?_of_spared (y := .act (.leave handle)) rfl hspared
    have hreader : s'.hasReader handle = s.hasReader handle := by
      unfold hasReader relay?
      rw [htask]
    show Answer.Within (.flag (s.hasReader handle)) (.flag (s'.hasReader handle))
    rw [hreader]
    exact .same _
  | hangUp handle =>
    refine .of_eq (D := D) (m := l) rfl rfl rfl ?_
    exact h.mapRelays (.ite .hangUp)
  | outcome handle =>
    obtain ⟨hafter, hans⟩ := h.outcome hs.roster hs'.roster handle
    refine ⟨⟨D, hafter⟩, fun hspared => ?_⟩
    have hsame : (s'.turn (.act (.outcome handle))).1 = (s.turn (.act (.outcome handle))).1 :=
      hans hspared
    rw [hsame]
    exact .same _

/-- Every rightful turn keeps the sides in lockstep, and is answered alike unless it is about a
stopped relay. -/
theorem turn {y : Turn} (hy : y.isRightful l s = true) : Kept x l y s s' := by
  cases y with
  | act y => exact h.act hs hs' hy
  | take handle =>
    obtain ⟨hafter, hans⟩ := h.pick hs.roster hs'.roster handle
    refine ⟨⟨D, hafter⟩, fun hspared => ?_⟩
    have hsame : (s'.turn (.take handle)).1 = (s.turn (.take handle)).1 := hans hspared
    rw [hsame]
    exact .same _
  | move handle =>
    obtain ⟨hafter, hans⟩ := h.move handle
    refine ⟨⟨D, hafter⟩, fun hspared => ?_⟩
    rw [hans hspared]
    exact .same _
  | wall now =>
    refine .of_eq (D := D) (m := l) rfl rfl rfl ?_
    exact { h with clock := congrArg (fun c => { c with wall := now }) h.clock }

end Steps

/-! ## Runs -/

theorem Kept.ledger_eq {y : Turn} (h : Kept x l y s s') :
    y.ledger l (s'.turn y).1 = y.ledger l (s.turn y).1 := by
  cases hspared : x.spares y with
  | true => exact (h.within hspared).ledger_eq l y
  | false =>
    have hrelay : ∃ handle, y.relay? = some handle := by
      cases hy : y.relay? with
      | some handle => exact ⟨handle, rfl⟩
      | none =>
        unfold Stop.spares at hspared
        rw [hy] at hspared
        cases hx : x.handle? <;> rw [hx] at hspared <;> cases hspared
    obtain ⟨handle, hy⟩ := hrelay
    rw [Turn.ledger_of_relay? hy, Turn.ledger_of_relay? hy]

/-- After a rightful turn, both sides are in lockstep and steady. -/
theorem steady_turn (h : Lockstep x D l s s') (hs : s.Steady l) (hs' : s'.Steady l) {y : Turn}
    (hy : y.isRightful l s = true) :
    (∃ D', Lockstep x D' (y.ledger l (s.turn y).1) (s.turn y).2 (s'.turn y).2) ∧
      (s.turn y).2.Steady (y.ledger l (s.turn y).1) ∧
      (s'.turn y).2.Steady (y.ledger l (s.turn y).1) := by
  have hkept := h.turn hs hs' hy
  refine ⟨hkept.lockstep, hs.turn hy, ?_⟩
  rw [← hkept.ledger_eq]
  exact hs'.turn ((h.isRightful_eq y).trans hy)

theorem run {ys : List Turn} : ∀ {D : List Nat} {l : Holdings} {s s' : Service},
    Lockstep x D l s s' → s.Steady l → s'.Steady l → isRightfulOver l s ys = true →
    List.Forall₂ Answer.Within (answersTo x.spares ys (runOf Service.turn s ys).1)
        (answersTo x.spares ys (runOf Service.turn s' ys).1) ∧
      ∃ D', Lockstep x D' (ledgerOver l s ys) (runOf Service.turn s ys).2
        (runOf Service.turn s' ys).2 := by
  induction ys with
  | nil => exact fun {D} _ _ _ h _ _ _ => ⟨.nil, D, h⟩
  | cons y ys ih =>
    intro D l s s' h hs hs' hys
    obtain ⟨hy, hys⟩ := Bool.and_eq_true_iff.1 hys
    obtain ⟨⟨D', hafter⟩, hsteady, hsteady'⟩ := h.steady_turn hs hs' hy
    obtain ⟨hanswers, hend⟩ := ih hafter hsteady hsteady' hys
    refine ⟨?_, hend⟩
    rw [answersTo_cons_runOf, answersTo_cons_runOf]
    split
    · rename_i hspared
      exact .cons ((h.turn hs hs' hy).within hspared) hanswers
    · exact hanswers

/-- The caller of another relay than the stopped one takes the same items. -/
theorem taken_eq {stopped : Nat} (hx : x.handle? = some stopped) (hne : handle ≠ stopped)
    {ys : List Turn} : ∀ {D : List Nat} {l : Holdings} {s s' : Service},
    Lockstep x D l s s' → s.Steady l → s'.Steady l → isRightfulOver l s ys = true →
    s'.taken handle ys = s.taken handle ys := by
  have hspared : x.spares (.take handle) = true := by
    unfold Stop.spares
    rw [hx]
    exact decide_eq_true hne
  induction ys with
  | nil => exact fun _ _ _ _ => rfl
  | cons y ys ih =>
    intro D l s s' h hs hs' hys
    obtain ⟨hy, hys⟩ := Bool.and_eq_true_iff.1 hys
    obtain ⟨hafter, hsteady, hsteady'⟩ := h.steady_turn hs hs' hy
    have htask := h.task?_of_spared (y := .take handle) rfl hspared
    have hsame : s'.taken? handle y = s.taken? handle y := by
      unfold taken? hasReader picked? relay?
      rw [htask]
      cases y with
      | take other => simp only [Option.map_map, Function.comp_def]
      | _ => rfl
    obtain ⟨D', hafter⟩ := hafter
    rw [taken, taken, hsame, ih hafter hsteady hsteady' hys]

/-- From the moment when relays are stopped, the service is in lockstep with itself as it was. -/
theorem start (hs : s.Steady l)
    (haimed : ∀ handle, x.handle? = some handle → ∃ t ∈ s.relays, t.handle = handle) :
    ∃ D, Lockstep x D l (s.act x.step).2 s := by
  refine ⟨(s.relays.filter x.stops).filterMap (·.relay.source), ?_⟩
  have hmem : ∀ {id : Nat}, id ∈ (s.relays.filter x.stops).filterMap (·.relay.source) →
      ∃ t ∈ s.relays, x.stops t = true ∧ t.relay.source = some id := by
    intro id hid
    obtain ⟨t, ht, hsource⟩ := List.mem_filterMap.1 hid
    obtain ⟨ht, hx⟩ := List.mem_filter.1 ht
    exact ⟨t, ht, hx, hsource⟩
  have hpair : ∀ t ∈ s.relays, x.Pair ((s.relays.filter x.stops).filterMap (·.relay.source))
      (if x.stops t then { t with relay := x.apply t.relay } else t) t := by
    intro t ht
    cases hx : x.stops t with
    | false =>
      refine .same hx fun id hid hD => ?_
      obtain ⟨u, hu, hxu, hsource⟩ := hmem hD
      rw [hs.roster.eq_of_source ht hu hid hsource, hxu] at hx
      cases hx
    | true =>
      have hsame := x.handled_apply t
      refine .stopped hx (fun id hid => ?_) rfl rfl hsame.source.symm hsame.channels.symm ?_
      · exact List.mem_filterMap.2 ⟨t, List.mem_filter.2 ⟨ht, hx⟩, hsame.source.symm.trans hid⟩
      · cases he : t.relay.isEnded with
        | true => exact .inl (hsame.isEnded_eq.trans he)
        | false => exact .inr ⟨x.interrupts t.relay, rfl⟩
  have hsame : (s.act x.step).2.store = s.store ∧ (s.act x.step).2.gateway = s.gateway ∧
      (s.act x.step).2.clock = s.clock := by
    cases x <;> exact ⟨rfl, rfl, rfl⟩
  obtain ⟨hstore, hgateway, hclock⟩ := hsame
  refine ⟨?_, hgateway.symm, hclock.symm, ?_, fun p hp hD => ?_, fun id hid => ?_,
    fun handle hx => ?_, ?_⟩
  · rw [hstore]
    exact .refl hs.inMemory _
  · rw [relays_act_stop]
    exact List.forall₂_map_left_iff.2 (List.forall₂_same.2 hpair)
  · obtain ⟨t, ht, -, hsource⟩ := hmem hD
    exact (List.nodup_append.1 hs.roster.ids_nodup).2.2 p.1 (List.mem_map_of_mem hp) p.1
      (List.mem_filterMap.2 ⟨t, ht, hsource⟩) rfl
  · obtain ⟨t, ht, -, hsource⟩ := hmem hid
    rw [hstore]
    exact hs.roster.source_lt ht hsource
  · obtain ⟨t, ht, hhandle⟩ := haimed handle hx
    rw [relays_act_stop]
    refine ⟨_, List.mem_map_of_mem ht, ?_⟩
    split <;> exact hhandle
  · cases x <;> rfl

end Lockstep

end Service

end Tenancy
