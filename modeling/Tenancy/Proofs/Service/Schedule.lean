import Tenancy.Proofs.Service.Accounts
import Tenancy.Proofs.Service.Caller
import Tenancy.Proofs.Service.Isolation

/-!
# Schedules

Callers own what they open: they take from, drop and hand on only subscriptions that they hold, and
every relay gets a handle of its own (`Turn.isRightful`). Then no subscription belongs to two
parties, a relay that has ended holds none, and all that a relay of the gateway can have to report is
that the store was closed (`Roster`).
-/

namespace Tenancy

/-! ## Schedules -/

/-- What callers may do: they have a handle for every relay and hold what they use. They read by
taking items one at a time. -/
def Step.isRightful (l : Holdings) (s : Service) : Step → Bool
  | .read .. => false
  | .drain id _ | .unsubscribe id => l.any (·.1 = id)
  | .relayFeed f how => l.contains (f.id, distinct f.channels) && (s.task? how.handle).isNone
  | .relayChannels _ _ how => (s.task? how.handle).isNone
  | .call _ (.subscribe _) given | .rpc _ (.subscribe _) given => (s.task? given.handle).isNone
  | _ => true

theorem Step.isOwned_of_isRightful {l : Holdings} {s : Service} {x : Step}
    (hx : x.isRightful l s = true) : x.isOwned l = true := by
  cases x with
  | unsubscribe id => exact hx
  | relayFeed f how => exact (Bool.and_eq_true_iff.1 hx).1
  | _ => rfl

namespace Turn

def isRightful (l : Holdings) (s : Service) : Turn → Bool
  | act x => x.isRightful l s
  | _ => true

/-- The subscriptions that callers hold after a turn that was answered `a`. -/
def ledger (l : Holdings) (x : Turn) (a : Answer) : Holdings :=
  match x with
  | act x => x.ledger l a
  | _ => l

end Turn

namespace Service

/-- Every turn of the schedule is rightful when it comes. -/
def isRightfulOver : Holdings → Service → List Turn → Bool
  | _, _, [] => true
  | l, s, x :: xs => x.isRightful l s && isRightfulOver (x.ledger l (s.turn x).1) (s.turn x).2 xs

/-- What callers hold at the end of a schedule. -/
def ledgerOver : Holdings → Service → List Turn → Holdings
  | l, _, [] => l
  | l, s, x :: xs => ledgerOver (x.ledger l (s.turn x).1) (s.turn x).2 xs

theorem isRightfulOver_append {l : Holdings} {s : Service} {xs ys : List Turn} :
    isRightfulOver l s (xs ++ ys) =
      (isRightfulOver l s xs && isRightfulOver (ledgerOver l s xs) (runOf turn s xs).2 ys) := by
  induction xs generalizing l s with
  | nil => rfl
  | cons x xs ih =>
    rw [List.cons_append, isRightfulOver, isRightfulOver, ih, Bool.and_assoc]
    rfl

theorem runOf_append {xs ys : List Turn} {s : Service} :
    (runOf turn s (xs ++ ys)).2 = (runOf turn (runOf turn s xs).2 ys).2 := by
  induction xs generalizing s with
  | nil => rfl
  | cons x xs ih => exact ih

end Service

/-! ## Relays of the gateway -/

/-- A relay that the gateway opened. The end of its source is all that it can have to report, and that
is not told before the relay ends. -/
structure Relay.Regular (closed : Bool) (r : Relay) : Prop where
  source : r.source.isSome = true
  channels : r.channels ≠ []
  reporting : ∀ e o, r.phase = .reporting e o → o = .sourceClosed ∧ closed = true
  untold : r.isEnded = false → ∀ x ∈ r.mailbox.items, ∃ m, x = .message m

/-- What a relay reads is there, as long as nobody closed the store. -/
theorem Store.Books.find?_of_mem {held : Holdings} {s : Store} (hb : s.Books held)
    {p : Nat × List String} (hp : p ∈ held) :
    ∃ t, s.hub.find? p.1 = some t ∧ t.channels = p.2 := by
  obtain ⟨t, ht, rfl⟩ := List.mem_map.1 (hb.perm.mem_iff.2 hp)
  exact ⟨t, hb.plain.tidy.find?_of_mem ht, rfl⟩

/-- What a move puts into the mailbox of a relay that goes on is a message. -/
theorem Relay.Moves.untold {r r' : Relay} {s s₁ : Store} {now : Timestamp}
    (h : r.Moves s now r' s₁) (hr : r.isEnded = false → ∀ x ∈ r.mailbox.items, ∃ m, x = .message m)
    (he : r'.isEnded = false) : ∀ x ∈ r'.mailbox.items, ∃ m, x = .message m := by
  have hbefore := hr h.unended
  cases h with
  | stop o mailbox hended => cases he
  | take id hid hasks =>
    have hsame : (r.accept (s.receive id r.turn).1 now).1.mailbox = r.mailbox := by
      unfold accept
      split <;> rfl
    rw [hsame]
    exact hbefore
  | give m hsending =>
    intro x hx
    rcases List.mem_append.1 hx with hx | hx
    · exact hbefore x hx
    · exact ⟨m, List.mem_singleton.1 hx⟩

/-- A move makes a relay report nothing but the end of its source, which comes when the store was
closed. -/
theorem Relay.Moves.regular {r r' : Relay} {s s₁ : Store} {now : Timestamp}
    (h : r.Moves s now r' s₁) (hm : s.InMemory) (hr : r.Regular s.closed)
    (hfound : s.closed = false → r.isEnded = false → ∀ id, r.source = some id →
      ∃ t, s.hub.find? id = some t ∧ t.channels ≠ []) : r'.Regular s₁.closed := by
  refine ⟨?_, ?_, fun e o hphase => ?_, h.untold hr.untold⟩
  · rw [h.source_eq]
    exact hr.source
  · rw [h.channels_eq]
    exact hr.channels
  rw [h.closed_eq hm]
  have hrun := h.unended
  cases h with
  | stop o' mailbox hended => cases hphase
  | give m hsending => cases hphase
  | take id hid hasks =>
    rw [Store.receive_of_faultless hm.faults_eq] at hphase
    cases hc : s.closed with
    | true =>
      refine ⟨?_, rfl⟩
      cases hd : (s.hub.receive id r.turn).1 with
      | message m => rw [hd] at hphase; cases hphase
      | nothing => rw [hd] at hphase; cases hphase
      | ended => rw [hd] at hphase; cases hphase; rfl
    | false =>
      -- an inbox is linked, so the subscription is not over
      exfalso
      obtain ⟨t, hf, hchannels⟩ := hfound hc hrun id hid
      have hwhole := (hm.tidy hc).whole t (Hub.mem_of_find? hf).1
      have hover : t.isOver = false := by
        obtain ⟨b, hb⟩ := List.exists_mem_of_ne_nil t.inboxes fun hnil => hchannels (by
          unfold Subscription.channels
          rw [hnil]
          rfl)
        refine List.all_eq_false.2 ⟨b, hb, ?_⟩
        rw [hwhole.linked b hb]
        exact Bool.noConfusion
      rw [Hub.receive_of_some hf] at hphase
      rcases t.receive_cases r.turn with ⟨c, m, lag, -, hrec⟩ | ⟨-, hrec⟩
      · rw [hrec] at hphase
        cases hphase
      · rw [hrec, hover] at hphase
        cases hphase

/-! ## The roster -/

/-- Relays, and the subscriptions that callers hold, over a store in memory: who holds a subscription
holds it alone, and a relay that has ended holds none. -/
structure Roster (l : Holdings) (relays : List RelayTask) (store : Store) : Prop where
  inMemory : store.InMemory
  handles_nodup : (relays.map (·.handle)).Nodup
  ids_nodup : (l.map (·.1) ++ relays.filterMap (·.relay.source)).Nodup
  ids_lt : ∀ id ∈ l.map (·.1) ++ relays.filterMap (·.relay.source), id < store.hub.nextId
  gone : ∀ t ∈ relays, t.relay.isEnded = true → ∀ id, t.relay.source = some id →
    store.hub.find? id = none
  regular : ∀ t ∈ relays, t.ofGateway = true → t.relay.Regular store.closed

namespace Roster

variable {l l' : Holdings} {relays : List RelayTask} {store store' : Store}

theorem source_lt (h : Roster l relays store) {t : RelayTask} (ht : t ∈ relays) {id : Nat}
    (hid : t.relay.source = some id) : id < store.hub.nextId :=
  h.ids_lt id (List.mem_append_right _ (List.mem_filterMap.2 ⟨t, ht, hid⟩))

/-- No two relays read the same subscription. -/
theorem eq_of_source (h : Roster l relays store) {t u : RelayTask} (ht : t ∈ relays)
    (hu : u ∈ relays) {id : Nat} (htid : t.relay.source = some id)
    (huid : u.relay.source = some id) : t = u := by
  let apart (t u : RelayTask) : Prop :=
    ∀ i, t.relay.source = some i → ∀ j, u.relay.source = some j → i ≠ j
  have : Std.Symm apart := ⟨fun t u htu i hi j hj e => htu j hj i hi e.symm⟩
  have hapart : relays.Pairwise apart :=
    List.pairwise_filterMap.1 (List.nodup_append.1 h.ids_nodup).2.1
  by_contra hne
  exact hapart.forall ht hu hne id htid id huid rfl

theorem follows (h : Roster l relays store) (hs : store.Follows store') :
    Roster l relays store' where
  inMemory := hs.inMemory
  handles_nodup := h.handles_nodup
  ids_nodup := h.ids_nodup
  ids_lt id hid := Nat.lt_of_lt_of_le (h.ids_lt id hid) hs.nextId_le
  gone t ht he id hid := hs.find?_none id (h.source_lt ht hid) (h.gone t ht he id hid)
  regular t ht hg :=
    { h.regular t ht hg with
      reporting := fun e o hp => ((h.regular t ht hg).reporting e o hp).imp_right hs.closed_of }

theorem sublist (h : Roster l relays store) (hl : l'.Sublist l) : Roster l' relays store :=
  have hids := (hl.map (·.1)).append_right (relays.filterMap (·.relay.source))
  { h with
    ids_nodup := h.ids_nodup.sublist hids
    ids_lt := fun id hid => h.ids_lt id (hids.subset hid) }

theorem map (h : Roster l relays store) {f : RelayTask → RelayTask}
    (hf : ∀ t : RelayTask, t.Handled (f t)) : Roster l (relays.map f) store := by
  have hhandles : (relays.map f).map (·.handle) = relays.map (·.handle) := by
    rw [List.map_map]
    exact List.map_congr_left fun t _ => (hf t).handle
  have hsources : (relays.map f).filterMap (·.relay.source) = relays.filterMap (·.relay.source) := by
    rw [List.filterMap_map]
    exact List.filterMap_congr fun t _ => (hf t).source
  refine ⟨h.inMemory, hhandles ▸ h.handles_nodup, hsources ▸ h.ids_nodup, hsources ▸ h.ids_lt,
    fun u hu he id hid => ?_, fun u hu hg => ?_⟩
  · obtain ⟨t, ht, rfl⟩ := List.mem_map.1 hu
    exact h.gone t ht ((hf t).isEnded_eq.symm.trans he) id ((hf t).source.symm.trans hid)
  · obtain ⟨t, ht, rfl⟩ := List.mem_map.1 hu
    obtain ⟨hsource, hchannels, hreporting, huntold⟩ :=
      h.regular t ht ((hf t).ofGateway.symm.trans hg)
    refine ⟨?_, ?_, fun e o hp => hreporting e o ((hf t).phase.symm.trans hp), fun he x hx => ?_⟩
    · rw [(hf t).source]
      exact hsource
    · rw [(hf t).channels]
      exact hchannels
    · exact huntold ((hf t).isEnded_eq.symm.trans he) x ((hf t).items.subset hx)

/-- A caller opens a subscription. -/
theorem addHeld (h : Roster l relays store) (hs : store.Follows store') {id : Nat}
    (hid : id = store.hub.nextId) (hnext : store'.hub.nextId = store.hub.nextId + 1)
    (channels : List String) : Roster (l ++ [(id, channels)]) relays store' := by
  subst hid
  have hperm : ((l ++ [(store.hub.nextId, channels)]).map (·.1) ++
      relays.filterMap (·.relay.source)).Perm
        (store.hub.nextId :: (l.map (·.1) ++ relays.filterMap (·.relay.source))) := by
    rw [List.map_append, List.append_assoc]
    exact List.perm_middle
  refine { h.follows hs with ids_nodup := ?_, ids_lt := fun id hid => ?_ }
  · refine hperm.nodup_iff.2 (List.nodup_cons.2 ⟨fun hmem => ?_, h.ids_nodup⟩)
    exact Nat.lt_irrefl _ (h.ids_lt _ hmem)
  · rcases List.mem_cons.1 (hperm.mem_iff.1 hid) with rfl | hid
    · omega
    · have := h.ids_lt id hid
      omega

/-- A relay starts. Its subscription is new, or was handed over by a caller. -/
theorem addTask (h : Roster l relays store) {u : RelayTask}
    (hhandle : ∀ t ∈ relays, t.handle ≠ u.handle)
    (hsource : ∀ id, u.relay.source = some id →
      id ∉ l.map (·.1) ++ relays.filterMap (·.relay.source) ∧ id < store.hub.nextId)
    (hended : u.relay.isEnded = false)
    (hregular : u.ofGateway = true → u.relay.Regular store.closed) :
    Roster l (relays ++ [u]) store := by
  have hids : l.map (·.1) ++ (relays ++ [u]).filterMap (·.relay.source) =
      l.map (·.1) ++ relays.filterMap (·.relay.source) ++ u.relay.source.toList := by
    rw [List.filterMap_append, List.append_assoc]
    cases hu : u.relay.source <;> simp [hu]
  have hforall : ∀ {p : RelayTask → Prop}, (∀ t ∈ relays, p t) → p u →
      ∀ t ∈ relays ++ [u], p t := by
    intro p hp hu t ht
    rcases List.mem_append.1 ht with ht | ht
    · exact hp t ht
    · exact List.mem_singleton.1 ht ▸ hu
  refine ⟨h.inMemory, ?_, ?_, ?_, hforall h.gone fun he => ?_, hforall h.regular hregular⟩
  · rw [List.map_append, List.nodup_append]
    refine ⟨h.handles_nodup, List.pairwise_singleton _ _, fun a ha b hb => ?_⟩
    obtain ⟨t, ht, rfl⟩ := List.mem_map.1 ha
    rw [List.mem_singleton.1 hb]
    exact hhandle t ht
  · rw [hids, List.nodup_append]
    refine ⟨h.ids_nodup, ?_, fun a ha b hb => ?_⟩
    · cases u.relay.source with
      | none => exact .nil
      | some id => exact List.pairwise_singleton _ _
    · exact fun hab => (hsource b (Option.mem_toList.1 hb)).1 (hab ▸ ha)
  · intro id hid
    rw [hids] at hid
    rcases List.mem_append.1 hid with hid | hid
    · exact h.ids_lt id hid
    · exact (hsource id (Option.mem_toList.1 hid)).2
  · cases hended.symm.trans he

/-- A relay moves. -/
theorem move {l₁ l₂ : List RelayTask} {t : RelayTask} {r : Relay} {now : Timestamp}
    (h : Roster l (l₁ ++ t :: l₂) store) (hmove : t.relay.Moves store now r store')
    (hfound : store.closed = false → t.relay.isEnded = false → ∀ id, t.relay.source = some id →
      ∃ u, store.hub.find? id = some u ∧ u.channels = distinct t.relay.channels) :
    Roster l (l₁ ++ { t with relay := r } :: l₂) store' := by
  obtain ⟨hmemory, hhandles, hnodup, hlt, hgone, hregular⟩ := h.follows (hmove.follows h.inMemory)
  have hsources : (l₁ ++ { t with relay := r } :: l₂).filterMap (·.relay.source) =
      (l₁ ++ t :: l₂).filterMap (·.relay.source) := by
    rw [List.filterMap_append, List.filterMap_append, List.filterMap_cons, List.filterMap_cons]
    simp only [hmove.source_eq]
  have hforall : ∀ {p : RelayTask → Prop}, (∀ u ∈ l₁ ++ t :: l₂, p u) → p { t with relay := r } →
      ∀ u ∈ l₁ ++ { t with relay := r } :: l₂, p u := by
    intro p hp ht u hu
    rcases List.mem_append.1 hu with hu | hu
    · exact hp u (List.mem_append_left _ hu)
    · rcases List.mem_cons.1 hu with rfl | hu
      · exact ht
      · exact hp u (List.mem_append_right _ (List.mem_cons_of_mem _ hu))
  have hmem : t ∈ l₁ ++ t :: l₂ := List.mem_append_right _ List.mem_cons_self
  refine ⟨hmemory, ?_, hsources ▸ hnodup, hsources ▸ hlt, hforall hgone fun he id hid => ?_,
    hforall hregular fun hg => ?_⟩
  · rw [List.map_append, List.map_cons] at hhandles ⊢
    exact hhandles
  · have hid' : t.relay.source = some id := hmove.source_eq.symm.trans hid
    exact (hmove.find?_of_ended h.inMemory he hid' id).trans (if_pos rfl)
  · have hreg := h.regular t hmem hg
    refine hmove.regular h.inMemory hreg fun hc he id hid => ?_
    obtain ⟨u, hu, hchannels⟩ := hfound hc he id hid
    refine ⟨u, hu, fun hnil => hreg.channels ?_⟩
    rw [hnil] at hchannels
    cases hr : t.relay.channels with
    | nil => rfl
    | cons c cs =>
      rw [hr] at hchannels
      cases hchannels

/-- A relay starts on a subscription that was opened for it. -/
theorem addOpened (h : Roster l relays store) (hs : store.Follows store')
    (hnext : store'.hub.nextId = store.hub.nextId + 1) {u : RelayTask}
    (hhandle : ∀ t ∈ relays, t.handle ≠ u.handle)
    (hsource : u.relay.source = some store.hub.nextId) (hended : u.relay.isEnded = false)
    (hregular : u.ofGateway = true → u.relay.Regular store'.closed) :
    Roster l (relays ++ [u]) store' := by
  refine (h.follows hs).addTask hhandle (fun id hid => ?_) hended hregular
  cases hsource.symm.trans hid
  exact ⟨fun hmem => Nat.lt_irrefl _ (h.ids_lt _ hmem), by omega⟩

/-- A relay starts on a subscription that a caller hands over. -/
theorem addHanded (h : Roster l relays store) {p : Nat × List String} (hp : p ∈ l)
    {u : RelayTask} (hhandle : ∀ t ∈ relays, t.handle ≠ u.handle)
    (hsource : u.relay.source = some p.1) (hended : u.relay.isEnded = false)
    (hregular : u.ofGateway = true → u.relay.Regular store.closed) :
    Roster (l.filter (·.1 ≠ p.1)) (relays ++ [u]) store := by
  refine (h.sublist List.filter_sublist).addTask hhandle (fun id hid => ?_) hended hregular
  cases hsource.symm.trans hid
  have hpl : p.1 ∈ l.map (·.1) := List.mem_map_of_mem hp
  refine ⟨fun hmem => ?_, h.ids_lt _ (List.mem_append_left _ hpl)⟩
  rcases List.mem_append.1 hmem with hmem | hmem
  · obtain ⟨q, hq, hqp⟩ := List.mem_map.1 hmem
    exact of_decide_eq_true (List.mem_filter.1 hq).2 hqp
  · exact (List.nodup_append.1 h.ids_nodup).2.2 p.1 hpl p.1 hmem rfl

end Roster

end Tenancy
