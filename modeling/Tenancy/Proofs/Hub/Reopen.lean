import Tenancy.Proofs.Hub.Delivery
import Tenancy.Proofs.Hub.Frozen
import Tenancy.Proofs.Hub.Holdings

/-!
# Hubs used again after a close

A hub that was closed can be subscribed to again, while subscriptions from before are still there.
Those hear nothing any more, but their drop goes by name: it takes one from the count of each of
their channels. `Hub.newer` leaves them out. As long as no such drop meets a channel that is open
again (`Era.Harmless`), a hub does to its newer subscriptions what it would do if they were all it
ever had; `Era.exact_iff_harmless` says that the counts are right just so long.
-/

namespace Tenancy

namespace Hub

/-! ## The newer subscriptions -/

/-- The hub without the subscriptions whose ids are below `since`. -/
def newer (since : Nat) (h : Hub) : Hub :=
  { h with subscriptions := h.subscriptions.filter (since ≤ ·.id) }

section Newer

variable {h : Hub} {since id : Nat}

theorem find?_newer (hid : since ≤ id) : (h.newer since).find? id = h.find? id := by
  rw [find?, newer, find?, List.find?_filter]
  congr 1
  funext s
  by_cases hs : s.id = id
  · simp [hs, hid]
  · simp [hs]

theorem newer_mapInboxes (f : Inbox → Inbox) :
    (mapInboxes f h).newer since = mapInboxes f (h.newer since) := by
  unfold mapInboxes newer
  simp only [List.filter_map]
  rfl

theorem newer_leave (c : String) : (h.leave c).newer since = (h.newer since).leave c := by
  unfold leave
  by_cases hany : (countOut c h.counts).any (·.1 = c) = true
  · simp only [newer, hany, if_true]
  · simp only [newer, hany]
    exact newer_mapInboxes (h := { h with counts := countOut c h.counts }) _

theorem newer_leave_all (names : List String) :
    (names.foldl leave h).newer since = names.foldl leave (h.newer since) := by
  induction names generalizing h with
  | nil => rfl
  | cons c names ih => rw [List.foldl_cons, ih, newer_leave, List.foldl_cons]

theorem newer_subscribe (hn : since ≤ h.nextId) (channels : List String) :
    (h.subscribe channels).2.newer since = ((h.newer since).subscribe channels).2 := by
  have hs : (h.subscribe channels).2.subscriptions =
      h.subscriptions ++ [opened h.nextId channels] := rfl
  have hnew : [opened h.nextId channels].filter (since ≤ ·.id) = [opened h.nextId channels] :=
    List.filter_cons_of_pos (decide_eq_true hn)
  rw [newer, hs, List.filter_append, hnew]
  rfl

theorem newer_publish (channel payload : String) :
    (h.publish channel payload).2.newer since = ((h.newer since).publish channel payload).2 :=
  newer_mapInboxes _

theorem find?_newer_of_lt (hid : id < since) : (h.newer since).find? id = none :=
  find?_eq_none_iff.2 fun s hs e => by
    have hnewer : since ≤ s.id := of_decide_eq_true (List.mem_filter.1 hs).2
    omega

/-- A take leaves every subscription under its id. -/
theorem id_replaced {s : Subscription} (hf : h.find? id = some s) (turn : Nat) (t : Subscription) :
    (if t.id = id then (s.receive turn).2.2 else t).id = t.id := by
  split
  · rename_i ht
    rw [s.id_receive, (mem_of_find? hf).2, ht]
  · rfl

/-- A take by an older subscription is not seen among the newer ones. -/
theorem newer_receive (id turn : Nat) :
    (h.receive id turn).2.2.newer since = ((h.newer since).receive id turn).2.2 := by
  by_cases hid : since ≤ id
  · cases hf : h.find? id with
    | none => rw [receive_of_none hf, receive_of_none ((find?_newer hid).trans hf)]
    | some s =>
      rw [receive_of_some hf, receive_of_some ((find?_newer hid).trans hf)]
      simp only [newer, List.filter_map, Function.comp_def, id_replaced hf]
  · rw [receive_of_none (find?_newer_of_lt (Nat.lt_of_not_le hid))]
    cases hf : h.find? id with
    | none => rw [receive_of_none hf]
    | some s =>
      rw [receive_of_some hf]
      simp only [newer, List.filter_map, Function.comp_def, id_replaced hf]
      refine congrArg (fun subscriptions => { h with subscriptions }) (map_eq_self fun t ht => ?_)
      have hnewer : since ≤ t.id := of_decide_eq_true (List.mem_filter.1 ht).2
      exact if_neg fun e : t.id = id => hid (e ▸ hnewer)

theorem newer_unsubscribe (hid : since ≤ id) :
    (h.unsubscribe id).newer since = (h.newer since).unsubscribe id := by
  unfold unsubscribe
  rw [find?_newer hid]
  cases h.find? id with
  | none => rfl
  | some s =>
    refine (newer_leave_all _).trans (congrArg (List.foldl leave · _) ?_)
    simp only [newer, List.filter_filter, Bool.and_comm]

theorem holdings_newer : (h.newer since).holdings = h.holdings.filter (since ≤ ·.1) := by
  rw [holdings, holdings, List.filter_map]
  rfl

end Newer

/-! ## Drops of older subscriptions -/

/-- The inboxes of subscriptions from before `since` are unlinked. -/
def Cut (since : Nat) (h : Hub) : Prop :=
  ∀ s ∈ h.subscriptions, s.id < since → ∀ b ∈ s.inboxes, b.linked = false

theorem Cut.listeners_newer {h : Hub} {since : Nat} (hc : h.Cut since) (c : String) :
    (h.newer since).listeners c = h.listeners c := by
  have hall : ∀ ss : List Subscription,
      (∀ s ∈ ss, s.id < since → ∀ b ∈ s.inboxes, b.linked = false) →
      ((ss.filter (since ≤ ·.id)).map (·.listens c)).sum = (ss.map (·.listens c)).sum := by
    intro ss hss
    induction ss with
    | nil => rfl
    | cons s ss ih =>
      have htail := ih fun s hs => hss s (List.mem_cons_of_mem _ hs)
      by_cases hid : since ≤ s.id
      · simp only [List.filter_cons, hid, decide_true, if_true, List.map_cons, List.sum_cons, htail]
      · have hzero : s.listens c = 0 := List.countP_eq_zero.2 fun b hb => by
          simp [hss s List.mem_cons_self (Nat.lt_of_not_le hid) b hb]
        simp only [List.filter_cons, hid, decide_false, Bool.false_eq_true, if_false, List.map_cons,
          List.sum_cons, hzero, Nat.zero_add, htail]
  exact hall h.subscriptions hc

theorem Cut.mapInboxes {h : Hub} {since : Nat} (hc : h.Cut since) {f : Inbox → Inbox}
    (hf : ∀ b, b.linked = false → (f b).linked = false) : (mapInboxes f h).Cut since := by
  intro s hs hid b hb
  obtain ⟨s', hs', rfl⟩ := List.mem_map.1 hs
  obtain ⟨b', hb', rfl⟩ := List.mem_map.1 hb
  exact hf b' (hc s' hs' hid b' hb')

theorem Cut.leave_all {h : Hub} {since : Nat} (hc : h.Cut since) (names : List String) :
    (names.foldl leave h).Cut since := by
  induction names generalizing h with
  | nil => exact hc
  | cons c names ih =>
    refine ih ?_
    unfold leave
    simp only
    split
    · exact hc
    · refine Cut.mapInboxes (h := { h with counts := _ }) hc fun b hb => ?_
      split
      · rfl
      · exact hb

/-- Nothing links an inbox again. -/
theorem Cut.does {h : Hub} {since : Nat} (hc : h.Cut since) (hn : since ≤ h.nextId) (op : Op) :
    (h.does op).2.Cut since := by
  cases op with
  | subscribe channels =>
    intro s hs hid b hb
    rcases List.mem_append.1 hs with hold | hnew
    · exact hc s hold hid b hb
    · rw [List.mem_singleton.1 hnew] at hid
      exact absurd hid (Nat.not_lt.2 hn)
  | publish channel payload =>
    refine hc.mapInboxes fun b hb => ?_
    simp [hb]
  | receive id turn =>
    show (h.receive id turn).2.2.Cut since
    cases hf : h.find? id with
    | none => rwa [receive_of_none hf]
    | some t =>
      rw [receive_of_some hf]
      intro s hs hid b hb
      obtain ⟨s', hs', rfl⟩ := List.mem_map.1 hs
      rw [id_replaced hf] at hid
      split at hb
      · rename_i hown
        have hears : (b.linked, b.channel) ∈ t.ears :=
          t.ears_receive turn ▸ Subscription.mem_ears hb
        obtain ⟨b', hb', he⟩ := List.mem_map.1 hears
        obtain ⟨ht, htid⟩ := mem_of_find? hf
        rw [← (Prod.mk.inj he).1]
        exact hc t ht (htid ▸ hown ▸ hid) b' hb'
      · exact hc s' hs' hid b hb
  | unsubscribe id =>
    show (h.unsubscribe id).Cut since
    unfold unsubscribe
    split
    · exact hc
    · exact Cut.leave_all (fun s hs => hc s (List.mem_filter.1 hs).1) _

theorem Tidy.nextId_le {h : Hub} (ht : h.Tidy) (op : Op) : h.nextId ≤ (h.does op).2.nextId := by
  cases op with
  | subscribe channels => exact Nat.le_succ _
  | publish channel payload => exact Nat.le_refl _
  | receive id turn => exact (h.receive_counts id turn).2.1.ge
  | unsubscribe id => exact (ht.unsubscribe_capacity id).2.ge

theorem Busy.does {h : Hub} (hb : h.Busy) (op : Op) : (h.does op).2.Busy := by
  cases op with
  | subscribe channels => exact hb.subscribe channels
  | publish channel payload => exact hb
  | receive id turn =>
    show ∀ p ∈ (h.receive id turn).2.2.counts, 0 < p.2
    rw [(h.receive_counts id turn).1]
    exact hb
  | unsubscribe id => exact hb.unsubscribe id

section Leave

variable {h : Hub}

theorem holdings_leave_all (names : List String) :
    (names.foldl leave h).holdings = h.holdings := by
  induction names generalizing h with
  | nil => rfl
  | cons c names ih =>
    rw [List.foldl_cons, ih]
    unfold leave
    simp only
    split
    · rfl
    · simp only [holdings, mapInboxes, List.map_map, Subscription.channels, Function.comp_def]
      refine List.map_congr_left fun s _ => congrArg (s.id, ·) (List.map_congr_left fun b _ => ?_)
      split <;> rfl

/-- Dropping a subscription takes it out of the holdings, whatever becomes of the counts. -/
theorem holdings_unsubscribe (id : Nat) :
    (h.unsubscribe id).holdings = h.holdings.filter (·.1 ≠ id) := by
  unfold unsubscribe
  cases hf : h.find? id with
  | none =>
    refine (List.filter_eq_self.2 fun p hp => decide_eq_true ?_).symm
    obtain ⟨s, hs, rfl⟩ := List.mem_map.1 hp
    exact find?_eq_none_iff.1 hf s hs
  | some s =>
    refine (holdings_leave_all _).trans ?_
    rw [holdings, holdings, List.filter_map]
    rfl

theorem count_leave_all (hn : (h.counts.map (·.1)).Nodup) (names : List String) (d : String) :
    (names.foldl leave h).count d = h.count d - names.count d := by
  induction names generalizing h with
  | nil => rfl
  | cons c names ih =>
    have hcounts := h.counts_leave c
    have hleave : (h.leave c).count d = h.count d - if c = d then 1 else 0 := by
      rw [← count_countOut hn, count, count, hcounts]
    have hn' : ((h.leave c).counts.map (·.1)).Nodup :=
      hcounts ▸ hn.sublist (names_countOut_sublist c h.counts)
    rw [List.foldl_cons, ih hn', hleave, List.count_cons]
    simp only [beq_iff_eq]
    omega

/-- A drop takes from the count of a channel what the subscription has of it. -/
theorem count_unsubscribe (hn : (h.counts.map (·.1)).Nodup) {id : Nat} {s : Subscription}
    (hs : h.find? id = some s) (d : String) :
    (h.unsubscribe id).count d = h.count d - s.channels.count d := by
  rw [unsubscribe, hs]
  let rest : Hub := { h with subscriptions := h.subscriptions.filter (·.id ≠ id) }
  have hrest : (rest.counts.map (·.1)).Nodup := hn
  exact count_leave_all hrest s.channels d

theorem Busy.not_mem (hb : h.Busy) {c : String} (hc : h.count c = 0) :
    c ∉ h.counts.map (·.1) := by
  intro hmem
  obtain ⟨p, hp, hpc⟩ := List.mem_map.1 hmem
  cases hfind : h.counts.find? (·.1 = c) with
  | none => exact List.find?_eq_none.1 hfind p hp (decide_eq_true hpc)
  | some q =>
    have hpos := hb q (List.mem_of_find?_eq_some hfind)
    rw [count, hfind] at hc
    exact Nat.ne_of_gt hpos hc

/-- Leaving a channel that nobody has changes nothing. -/
theorem Tidy.leave_unused (ht : h.Tidy) (hb : h.Busy) {c : String} (hc : h.count c = 0) :
    h.leave c = h := by
  have hnames := hb.not_mem hc
  have hcounts : countOut c h.counts = h.counts := by
    have hne : ∀ p ∈ h.counts, p.1 ≠ c := fun p hp e => hnames (List.mem_map.2 ⟨p, hp, e⟩)
    rw [countOut, map_eq_self fun p hp => if_neg (hne p hp)]
    exact List.filter_eq_self.2 fun p hp => by simp [hne p hp]
  have hnobody : ∀ s ∈ h.subscriptions, ∀ b ∈ s.inboxes, b.channel ≠ c :=
    no_inbox_of_listeners_eq_zero (ht.count_eq c ▸ hc) fun s hs => (ht.whole s hs).linked
  unfold leave
  simp only [hcounts]
  split
  · rfl
  · exact mapInboxes_eq_self fun s hs b hb => if_neg (hnobody s hs b hb)

theorem Tidy.leave_all_unused (ht : h.Tidy) (hb : h.Busy) {names : List String}
    (hc : ∀ c ∈ names, h.count c = 0) : names.foldl leave h = h := by
  induction names with
  | nil => rfl
  | cons c names ih =>
    rw [List.foldl_cons, ht.leave_unused hb (hc c List.mem_cons_self)]
    exact ih fun d hd => hc d (List.mem_cons_of_mem c hd)

end Leave

/-! ## Eras -/

/-- What can be asked of a hub. -/
inductive Act where
  | op (op : Op)
  | close

/-- A hub, and the id that its next subscription had when it was last closed. -/
structure Era where
  hub : Hub
  since : Nat := 0

namespace Era

def act (e : Era) : Act → Era
  | .op op => { e with hub := (e.hub.does op).2 }
  | .close => ⟨e.hub.close, e.hub.nextId⟩

def run (e : Era) (acts : List Act) : Era := acts.foldl act e

/-- The number of subscriptions to the channel that were opened after the latest close. -/
def subscribers (e : Era) (c : String) : Nat :=
  (e.hub.holdings.filter (e.since ≤ ·.1)).countP fun p => c ∈ p.2

/-- The count of every channel is its number of subscribers. -/
def Exact (e : Era) : Prop := ∀ c, e.hub.count c = e.subscribers c

/-- The drop of a subscription from before the latest close, one of whose channels is open
again. -/
def Harms (e : Era) : Act → Prop
  | .op (.unsubscribe id) =>
    id < e.since ∧ ∃ s ∈ e.hub.find? id, ∃ c ∈ s.channels, e.hub.count c ≠ 0
  | _ => False

instance (e : Era) : ∀ a, Decidable (e.Harms a)
  | .op (.unsubscribe id) => inferInstanceAs (Decidable (id < e.since ∧
      ∃ s ∈ e.hub.find? id, ∃ c ∈ s.channels, e.hub.count c ≠ 0))
  | .op (.subscribe _) | .op (.publish ..) | .op (.receive ..) | .close => .isFalse id

def Harmless (e : Era) : List Act → Prop
  | [] => True
  | a :: as => ¬ e.Harms a ∧ (e.act a).Harmless as

instance decidableHarmless (e : Era) : ∀ as, Decidable (e.Harmless as)
  | [] => .isTrue trivial
  | a :: as =>
    have := decidableHarmless (e.act a) as
    inferInstanceAs (Decidable (¬ e.Harms a ∧ (e.act a).Harmless as))

/-- What the newer subscriptions rely on. -/
structure Sound (e : Era) : Prop where
  known : e.since ≤ e.hub.nextId
  stocked : (e.hub.newer e.since).Stocked
  busy : e.hub.Busy
  cut : e.hub.Cut e.since

variable {e : Era}

theorem subscribers_drop_older {id : Nat} (hid : id < e.since) (c : String) :
    (e.act (.op (.unsubscribe id))).subscribers c = e.subscribers c := by
  show ((e.hub.unsubscribe id).holdings.filter (e.since ≤ ·.1)).countP _ = _
  rw [holdings_unsubscribe, List.filter_filter, subscribers]
  refine congrArg (List.countP _) (List.filter_congr fun p _ => ?_)
  by_cases hp : e.since ≤ p.1
  · simp [hp, show p.1 ≠ id by omega]
  · simp [hp]

namespace Sound

theorem start (capacity : Nat) : ({ hub := { capacity } } : Era).Sound where
  known := Nat.zero_le _
  stocked := stocked_start capacity
  busy _ hp := by cases hp
  cut _ hs := by cases hs

theorem exact (he : e.Sound) : e.Exact := by
  intro c
  have hcount := he.stocked.tidy.count_eq_countP c
  rwa [holdings_newer] at hcount

theorem publish_eq (he : e.Sound) (c payload : String) :
    (e.hub.publish c payload).1 = e.subscribers c := by
  have hlisten := he.cut.listeners_newer c
  rw [← he.exact c]
  exact hlisten.symm.trans (he.stocked.tidy.count_eq c).symm

/-- A close leaves nobody among the newer subscriptions. -/
theorem close (he : e.Sound) : (e.act .close).Sound where
  known := Nat.le_refl _
  stocked := by
    have hempty : e.hub.close.newer e.hub.nextId =
        { capacity := e.hub.capacity, nextId := e.hub.nextId } := by
      refine congrArg (fun subscriptions => { e.hub with counts := [], subscriptions }) ?_
      refine List.filter_eq_nil_iff.2 fun s hs => ?_
      obtain ⟨s', hs', rfl⟩ := List.mem_map.1 hs
      have hlt : s'.id < e.hub.nextId := by
        by_cases hid : e.since ≤ s'.id
        · exact he.stocked.tidy.fresh s' (List.mem_filter.2 ⟨hs', decide_eq_true hid⟩)
        · exact Nat.lt_of_lt_of_le (Nat.lt_of_not_le hid) he.known
      simpa using hlt
    show (e.hub.close.newer e.hub.nextId).Stocked
    rw [hempty]
    exact stocked_empty e.hub.capacity e.hub.nextId
  busy _ hp := by cases hp
  cut s hs _ := (frozen_close e.hub).unlinked s hs

/-- The channels of an older subscription are not open again: its drop takes it away, and that is
all. -/
theorem newer_unsubscribe_older (he : e.Sound) {id : Nat} (hid : id < e.since)
    (ha : ¬ e.Harms (.op (.unsubscribe id))) :
    (e.hub.unsubscribe id).newer e.since = e.hub.newer e.since := by
  unfold unsubscribe
  cases hf : e.hub.find? id with
  | none => rfl
  | some s =>
    have hunused : ∀ c ∈ s.channels, (e.hub.newer e.since).count c = 0 := fun c hc =>
      not_not.1 fun hne => ha ⟨hid, s, hf, c, hc, hne⟩
    have hsame : ({ e.hub with subscriptions := e.hub.subscriptions.filter (·.id ≠ id) } : Hub).newer
        e.since = e.hub.newer e.since := by
      refine congrArg (fun subscriptions => { e.hub with subscriptions }) ?_
      rw [List.filter_filter]
      refine List.filter_congr fun t _ => ?_
      by_cases ht : e.since ≤ t.id
      · simp [ht, show t.id ≠ id by omega]
      · simp [ht]
    refine (newer_leave_all _).trans ?_
    rw [hsame]
    exact he.stocked.tidy.leave_all_unused he.busy hunused

/-- The newer subscriptions see an operation as if there were no older ones. -/
theorem newer_does (he : e.Sound) {op : Op} (ha : ¬ e.Harms (.op op)) :
    (e.hub.does op).2.newer e.since = ((e.hub.newer e.since).does op).2 := by
  cases op with
  | subscribe channels => exact newer_subscribe he.known channels
  | publish channel payload => exact newer_publish channel payload
  | receive id turn => exact newer_receive id turn
  | unsubscribe id =>
    by_cases hid : e.since ≤ id
    · exact newer_unsubscribe hid
    · have hnone : (e.hub.newer e.since).find? id = none := find?_newer_of_lt (Nat.lt_of_not_le hid)
      refine (he.newer_unsubscribe_older (Nat.lt_of_not_le hid) ha).trans ?_
      show _ = (e.hub.newer e.since).unsubscribe id
      rw [unsubscribe, hnone]

theorem does (he : e.Sound) {op : Op} (ha : ¬ e.Harms (.op op)) : (e.act (.op op)).Sound := by
  have heq := he.newer_does ha
  refine ⟨?_, ?_, ?_, he.cut.does he.known op⟩
  · have hnext : e.hub.nextId ≤ ((e.hub.newer e.since).does op).2.nextId :=
      he.stocked.tidy.nextId_le op
    exact he.known.trans (hnext.trans_eq (congrArg nextId heq).symm)
  · show ((e.hub.does op).2.newer e.since).Stocked
    rw [heq]
    exact (he.stocked.does op).1
  · have hnewer : (e.hub.newer e.since).Busy := he.busy
    have hbusy := hnewer.does op
    rw [← heq] at hbusy
    exact hbusy

theorem act (he : e.Sound) {a : Act} (ha : ¬ e.Harms a) : (e.act a).Sound := by
  cases a with
  | op op => exact he.does ha
  | close => exact he.close

theorem run (he : e.Sound) {acts : List Act} (ha : e.Harmless acts) : (e.run acts).Sound := by
  induction acts generalizing e with
  | nil => exact he
  | cons a acts ih => exact ih (he.act ha.1) ha.2

/-- A harmful drop takes from the count of a channel that is open again. -/
theorem exists_count_lt (he : e.Sound) {id : Nat} (ha : e.Harms (.op (.unsubscribe id))) :
    ∃ c, (e.hub.unsubscribe id).count c < e.hub.count c := by
  obtain ⟨-, s, hs, c, hc, hopen⟩ := ha
  have hnames : (e.hub.counts.map (·.1)).Nodup := he.stocked.tidy.names_nodup
  have hcount := count_unsubscribe hnames hs c
  have hpos : 0 < s.channels.count c := List.count_pos_iff.2 hc
  exact ⟨c, by omega⟩

theorem not_exact_of_harms (he : e.Sound) {a : Act} (ha : e.Harms a) : ¬ (e.act a).Exact := by
  obtain ⟨id, rfl⟩ : ∃ id, a = .op (.unsubscribe id) := by
    cases a with
    | close => cases ha
    | op op =>
      cases op with
      | unsubscribe id => exact ⟨id, rfl⟩
      | subscribe | publish | receive => cases ha
  obtain ⟨c, hlt⟩ := he.exists_count_lt ha
  intro hexact
  have hafter : (e.hub.unsubscribe id).count c = e.subscribers c := by
    rw [← subscribers_drop_older ha.1 c]
    exact hexact c
  rw [hafter, he.exact c] at hlt
  exact Nat.lt_irrefl _ hlt

/-- The counts are right at every moment of a run just if it drops no older subscription one of
whose channels is open again. -/
theorem exact_iff_harmless (he : e.Sound) (acts : List Act) :
    (∀ n, (e.run (acts.take n)).Exact) ↔ e.Harmless acts := by
  induction acts generalizing e with
  | nil => exact ⟨fun _ => trivial, fun _ n => by rw [List.take_nil]; exact he.exact⟩
  | cons a acts ih =>
    constructor
    · intro hall
      have ha : ¬ e.Harms a := fun ha => he.not_exact_of_harms ha (hall 1)
      exact ⟨ha, (ih (he.act ha)).1 fun n => hall (n + 1)⟩
    · rintro ⟨ha, hacts⟩ n
      cases n with
      | zero => exact he.exact
      | succ n => exact (ih (he.act ha)).2 hacts n

end Sound

/-! ## What the newer subscriptions receive -/

/-- Older subscriptions may take what they still have; that is nothing to the newer ones. -/
theorem tick?_newer {id : Nat} (hid : e.since ≤ id) (c : String) (op : Op) :
    Event.tick? id c (e.hub.does op).1 = Event.tick? id c ((e.hub.newer e.since).does op).1 ∧
      Event.message? id c (e.hub.does op).1 =
        Event.message? id c ((e.hub.newer e.since).does op).1 := by
  cases op with
  | subscribe | publish | unsubscribe => exact ⟨rfl, rfl⟩
  | receive j turn =>
    by_cases hj : e.since ≤ j
    · have hsame : (e.hub.receive j turn).1 = ((e.hub.newer e.since).receive j turn).1 := by
        unfold Hub.receive
        rw [find?_newer hj]
        cases e.hub.find? j <;> rfl
      have hevent := congrArg (Event.ofDelivery j) hsame
      exact ⟨congrArg (Event.tick? id c) hevent, congrArg (Event.message? id c) hevent⟩
    · have hne : j ≠ id := fun h => hj (h ▸ hid)
      have hnone := receive_of_none (find?_newer_of_lt (h := e.hub) (Nat.lt_of_not_le hj)) turn
      have hwaited : ((e.hub.newer e.since).does (.receive j turn)).1 = .waited j :=
        congrArg (Event.ofDelivery j) (congrArg Prod.fst hnone)
      rw [hwaited]
      show Event.tick? id c (.ofDelivery j (e.hub.receive j turn).1) = none ∧
        Event.message? id c (.ofDelivery j (e.hub.receive j turn).1) = none
      cases (e.hub.receive j turn).1 with
      | message m => exact ⟨if_neg fun h => hne h.1, if_neg fun h => hne h.1⟩
      | nothing | ended => exact ⟨rfl, rfl⟩

namespace Sound

theorem run_newer (he : e.Sound) {ops : List Op} (ha : e.Harmless (ops.map .op)) :
    (e.hub.run ops).2.newer e.since = ((e.hub.newer e.since).run ops).2 := by
  induction ops generalizing e with
  | nil => rfl
  | cons op ops ih =>
    have hnewer := ih (he.does ha.1) ha.2
    simp only [Era.act, he.newer_does ha.1] at hnewer
    exact hnewer

theorem events_newer (he : e.Sound) {ops : List Op} (ha : e.Harmless (ops.map .op)) {id : Nat}
    (hid : e.since ≤ id) (c : String) :
    Event.ticks id c (e.hub.run ops).1 = Event.ticks id c ((e.hub.newer e.since).run ops).1 ∧
      Event.received id c (e.hub.run ops).1 =
        Event.received id c ((e.hub.newer e.since).run ops).1 := by
  induction ops generalizing e with
  | nil => exact ⟨rfl, rfl⟩
  | cons op ops ih =>
    obtain ⟨ht, hm⟩ := tick?_newer hid c op
    obtain ⟨hticks, hreceived⟩ := ih (he.does ha.1) ha.2 hid
    simp only [Era.act, he.newer_does ha.1] at hticks hreceived
    constructor
    · simp only [Hub.run, Event.ticks, List.filterMap_cons, ht]
      rw [← Event.ticks, ← Event.ticks, hticks]
    · simp only [Hub.run, Event.received, List.filterMap_cons, hm]
      rw [← Event.received, ← Event.received, hreceived]

end Sound

end Era

/-- How a subscription is served depends on what is found of it. -/
theorem Served.congr {id size : Nat} {c : String} {ticks : List Tick} {ms : List Message}
    {h h' : Hub} (hs : Served id c size ticks ms h) (hf : h'.find? id = h.find? id) :
    Served id c size ticks ms h' where
  received := hs.received
  published := hs.published
  increasing := hs.increasing
  skipped_iff := hs.skipped_iff
  waiting s hs' := by
    obtain ⟨hheld, hturn⟩ := hs.waiting s (hf ▸ hs')
    refine ⟨hheld, fun m hm => ?_⟩
    obtain ⟨turn, htake⟩ := hturn m hm
    have hsame : h'.receive id turn = _ := receive_of_some hs' turn
    rw [receive_of_some (hf ▸ hs')] at htake
    exact ⟨turn, hsame ▸ htake⟩

/-- A subscription is there until it is dropped. -/
theorem Stocked.isSome_find?_does {h : Hub} (hh : h.Stocked) {id : Nat} {op : Op}
    (hs : (h.find? id).isSome) (hop : op ≠ .unsubscribe id) : ((h.does op).2.find? id).isSome := by
  cases op with
  | subscribe channels =>
    show ((h.subscribe channels).2.find? id).isSome
    rw [hh.tidy.find?_subscribe]
    split
    · rfl
    · exact hs
  | publish channel payload =>
    show ((h.publish channel payload).2.find? id).isSome
    rwa [find?_publish, Option.isSome_map]
  | receive j turn =>
    show ((h.receive j turn).2.2.find? id).isSome
    rw [find?_receive]
    split
    · rename_i hid
      rwa [Option.isSome_map, ← hid]
    · exact hs
  | unsubscribe j =>
    show ((h.unsubscribe j).find? id).isSome
    rwa [hh.tidy.find?_unsubscribe, if_neg fun hid : id = j => hop (hid ▸ rfl)]

theorem Stocked.isSome_find?_run {h : Hub} (hh : h.Stocked) {id : Nat} {ops : List Op}
    (hs : (h.find? id).isSome) (hops : .unsubscribe id ∉ ops) :
    ((h.run ops).2.find? id).isSome := by
  induction ops generalizing h with
  | nil => exact hs
  | cons op ops ih =>
    rw [List.mem_cons, not_or] at hops
    exact ih (hh.does op).1 (hh.isSome_find?_does hs (Ne.symm hops.1)) hops.2

namespace Era

variable {e : Era}

namespace Sound

theorem bufferSize_act (he : e.Sound) {a : Act} (ha : ¬ e.Harms a) :
    (e.act a).hub.bufferSize = e.hub.bufferSize := by
  cases a with
  | close => rfl
  | op op =>
    have hsize := (he.stocked.does op).2
    rw [← he.newer_does ha] at hsize
    exact hsize

theorem bufferSize_run (he : e.Sound) {acts : List Act} (ha : e.Harmless acts) :
    (e.run acts).hub.bufferSize = e.hub.bufferSize := by
  induction acts generalizing e with
  | nil => rfl
  | cons a acts ih => exact (ih (he.act ha.1) ha.2).trans (he.bufferSize_act ha.1)

/-- A new subscription is served from each of its channels, and is there until it is dropped. -/
theorem serves (he : e.Sound) {channels : List String} {ops : List Op}
    (ha : e.Harmless (.op (.subscribe channels) :: ops.map .op)) :
    let id := e.hub.nextId
    let r := (e.hub.subscribe channels).2.run ops
    (∀ c ∈ channels,
      Served id c e.hub.bufferSize (Event.ticks id c r.1) (Event.received id c r.1) r.2) ∧
      (.unsubscribe id ∉ ops → (r.2.find? id).isSome) := by
  intro id r
  let opened : Era := e.act (.op (.subscribe channels))
  have hopened : opened.Sound := he.act ha.1
  have hstart : opened.hub.newer e.since = ((e.hub.newer e.since).subscribe channels).2 :=
    newer_subscribe he.known channels
  have hstocked := he.stocked.subscribe channels
  have hhub : r.2.newer e.since = (((e.hub.newer e.since).subscribe channels).2.run ops).2 :=
    hstart ▸ hopened.run_newer ha.2
  have hfind : r.2.find? id = (((e.hub.newer e.since).subscribe channels).2.run ops).2.find? id := by
    rw [← hhub]
    exact (find?_newer he.known).symm
  refine ⟨fun c hc => ?_, fun hops => ?_⟩
  · have hid : opened.since ≤ id := he.known
    obtain ⟨hticks, hreceived⟩ := hopened.events_newer ha.2 hid c
    have hserved := ((he.stocked.follows_opened hc).run ops).served (hstocked.run ops).2
    have hevents : r.1 = (opened.hub.run ops).1 := rfl
    have hnewer : opened.hub.newer opened.since = _ := hstart
    rw [hevents, hticks, hreceived, hnewer]
    exact hserved.congr hfind
  · have hthere : (((e.hub.newer e.since).subscribe channels).2.find? id).isSome := by
      have hid : id = (e.hub.newer e.since).nextId := rfl
      rw [he.stocked.tidy.find?_subscribe, if_pos hid]
      rfl
    rw [hfind]
    exact hstocked.isSome_find?_run hthere hops

end Sound

/-- The drop of an older subscription changes a count just if it harms. If not, all newer
subscriptions stay as they are. -/
theorem Sound.drop_older (he : e.Sound) {id : Nat} (hid : id < e.since) :
    ((∀ c, (e.hub.unsubscribe id).count c = e.hub.count c) ↔ ¬ e.Harms (.op (.unsubscribe id))) ∧
      (¬ e.Harms (.op (.unsubscribe id)) →
        ∀ j, e.since ≤ j → (e.hub.unsubscribe id).find? j = e.hub.find? j) := by
  refine ⟨⟨fun hcount ha => ?_, fun ha c => ?_⟩, fun ha j hj => ?_⟩
  · obtain ⟨c, hlt⟩ := he.exists_count_lt ha
    exact Nat.ne_of_lt hlt (hcount c)
  · have hcount := congrArg (count · c) (he.newer_unsubscribe_older hid ha)
    exact hcount
  · rw [← find?_newer hj, he.newer_unsubscribe_older hid ha, find?_newer hj]

/-- The counts of a hub are right at every moment of a run just if the run drops no subscription
from before a close one of whose channels is open again after it. In such a run a publish reaches
all subscriptions to its channel that were opened since the latest close, and each of these is
served until it is dropped, or the hub is closed again. -/
theorem counts_across_closes (capacity : Nat) (acts : List Act) :
    let start : Era := { hub := { capacity } }
    let e := start.run acts
    ((∀ n, (start.run (acts.take n)).Exact) ↔ start.Harmless acts) ∧
    (start.Harmless acts →
      (∀ c payload, (e.hub.publish c payload).1 = e.subscribers c) ∧
      (∀ id, id < e.since →
        ((∀ c, (e.hub.unsubscribe id).count c = e.hub.count c) ↔
          ¬ e.Harms (.op (.unsubscribe id))) ∧
        (¬ e.Harms (.op (.unsubscribe id)) →
          ∀ j, e.since ≤ j → (e.hub.unsubscribe id).find? j = e.hub.find? j)) ∧
      ∀ channels ops, e.Harmless (.op (.subscribe channels) :: ops.map .op) →
        let id := e.hub.nextId
        let (es, h) := (e.hub.subscribe channels).2.run ops
        (∀ c ∈ channels, Served id c (max capacity 1).nextPowerOfTwo (Event.ticks id c es)
          (Event.received id c es) h) ∧
        (.unsubscribe id ∉ ops → (h.find? id).isSome)) := by
  intro start e
  have hstart := Sound.start capacity
  refine ⟨hstart.exact_iff_harmless acts, fun hacts => ?_⟩
  have he : e.Sound := hstart.run hacts
  refine ⟨he.publish_eq, fun id hid => he.drop_older hid, fun channels ops hops => ?_⟩
  have hsize : e.hub.bufferSize = (max capacity 1).nextPowerOfTwo := hstart.bufferSize_run hacts
  rw [← hsize]
  exact he.serves hops

/-- A subscription from before the close is dropped while its channel is not open, and the next one
to the channel is served. -/
theorem counts_across_closes_unopened :
    let acts : List Act :=
      [.op (.subscribe ["a"]), .op (.subscribe ["b"]), .close, .op (.subscribe ["b"]),
        .op (.unsubscribe 0)]
    let start : Era := { hub := { capacity := 2 } }
    let e := start.run acts
    let (es, h) := (e.hub.subscribe ["a"]).2.run [.publish "a" "1", .receive 3 0]
    start.Harmless acts ∧ e.since = 2 ∧ (∀ c, e.hub.count c = e.subscribers c) ∧
      Event.received 3 "a" es = [⟨"a", "1"⟩] ∧ (h.find? 3).isSome := by
  intro acts start e
  have hacts : start.Harmless acts := by decide +kernel
  obtain ⟨hexact, hserves⟩ := counts_across_closes 2 acts
  have hnow : e.Exact := hexact.2 hacts acts.length
  obtain ⟨-, -, hserves⟩ := hserves hacts
  obtain ⟨hserved, hthere⟩ :=
    hserves ["a"] [.publish "a" "1", .receive 3 0] (by decide +kernel)
  have hreceived := (hserved "a" List.mem_cons_self).received
  refine ⟨hacts, rfl, hnow, ?_, hthere (by simp)⟩
  refine List.map_injective_iff.2 (fun _ _ => Option.some.inj) (hreceived.trans ?_)
  decide +kernel

/-- The drop of the first subscription, from before the close, takes the count of the second one,
which ends. -/
theorem older_drop_ends_newer :
    let e := ({ hub := { capacity := 4 } } : Era).run
      [.op (.subscribe ["c"]), .close, .op (.subscribe ["c"]), .op (.unsubscribe 0)]
    e.since = 1 ∧ e.subscribers "c" = 1 ∧ e.hub.count "c" = 0 ∧ (e.hub.publish "c" "m").1 = 0 ∧
      (e.hub.receive 1 0).1 = .ended := by
  decide +kernel

end Era

end Hub

end Tenancy
