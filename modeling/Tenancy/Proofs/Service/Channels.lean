import Tenancy.Proofs.Gateway.Admission
import Tenancy.Proofs.Relay.Listener
import Tenancy.Proofs.Service.Call

/-!
# The channels of a subscription

The names that a caller subscribes to are counted three times: at the door, which puts them in
order; for the relay, which keeps the first of each name; and in the hub, which keeps the first of
each physical name. As no two names of a tenant have one physical name, the hub finds nothing left
to drop, and all three agree (`Service.subscribe_distinct_names`).
-/

namespace Tenancy

variable {s s' : Service} {t : Tenant} {names other : List String} {given : Supply}

/-- The names of a list, each once, in the order in which they come first. -/
structure Firsts (names firsts : List String) : Prop where
  mem_iff : ∀ n, n ∈ firsts ↔ n ∈ names
  ordered : firsts.Pairwise fun a b => names.idxOf a < names.idxOf b

theorem firsts_distinct (names : List String) : Firsts names (distinct names) :=
  ⟨fun _ => mem_distinct, pairwise_idxOf_distinct names⟩

theorem toFinset_congr (hsame : ∀ n, n ∈ other ↔ n ∈ names) : other.toFinset = names.toFinset := by
  ext n
  rw [List.mem_toFinset, List.mem_toFinset, hsame]

/-! ## At the door -/

theorem Gateway.authorize_eq_ok_iff {g : Gateway} :
    (g.authorize t).1 = .ok () ↔ t.user ≠ "" ∧ g.validator.check t.user = .ok () := by
  unfold authorize
  by_cases huser : t.user = ""
  · simp [huser]
  · cases hcheck : g.validator.check t.user <;> simp [huser]

/-- All that is left to complain about is the number of names. -/
theorem Gateway.complaint?_subscribe {g : Gateway} (hauthorized : (g.authorize t).1 = .ok ())
    (hnames : names ≠ []) (hnamed : "" ∉ names) :
    g.complaint? t (.subscribe names) =
      if g.settings.maxChannels < names.toFinset.card then
        some (.invalidRange "channels" "1" (String.ofList (Text.decimal g.settings.maxChannels)))
      else none := by
  obtain ⟨huser, hvalid⟩ := authorize_eq_ok_iff.1 hauthorized
  simp [complaint?, Check.inOrder, findSome?_cons_eq_or, Check.complaint?, hvalid, huser, hnames,
    hnamed, Request.key?, Request.channel?, Request.channels?, Request.token?, Request.ttl?]

/-! ## In the hub -/

namespace Hub

theorem sum_countIn (c : String) (counts : List (String × Nat)) :
    ((countIn c counts).map (·.2)).sum = (counts.map (·.2)).sum + 1 := by
  induction counts with
  | nil => rfl
  | cons p rest ih =>
    rw [countIn]
    split
    · simp only [List.map_cons, List.sum_cons]
      omega
    · simp only [List.map_cons, List.sum_cons, ih]
      omega

theorem sum_foldl_countIn (names : List String) (counts : List (String × Nat)) :
    ((names.foldl (fun counts c => countIn c counts) counts).map (·.2)).sum =
      (counts.map (·.2)).sum + names.length := by
  induction names generalizing counts with
  | nil => rfl
  | cons c names ih =>
    rw [List.foldl_cons, ih, sum_countIn, List.length_cons]
    omega

theorem active_subscribe (h : Hub) (channels : List String) :
    (h.subscribe channels).2.active = h.active + (distinct channels).length :=
  sum_foldl_countIn (distinct channels) h.counts

theorem count_subscribe (h : Hub) (channels : List String) (c : String) :
    (h.subscribe channels).2.count c = h.count c + if c ∈ channels then 1 else 0 := by
  rw [← count_distinct]
  exact count_foldl_countIn (distinct channels) h c

end Hub

/-! ## Subscribing -/

namespace Service

/-- What is opened for a tenant who subscribes to the names. -/
structure Opens (t : Tenant) (names : List String) (s s' : Service) : Prop where
  /-- One relay on one subscription. Both have the first of each name, isolated, and in this order. -/
  relay : ∃ firsts task sub, Firsts names firsts ∧
    s'.relays = s.relays ++ [task] ∧
    s'.store.hub.subscriptions = s.store.hub.subscriptions ++ [sub] ∧
    task.relay.tenant = t ∧ task.relay.source = some sub.id ∧
    task.relay.channels = firsts.map t.isolate ∧
    sub.inboxes.map (·.channel) = firsts.map t.isolate
  count : ∀ c, s'.store.hub.count c =
    s.store.hub.count c + if c ∈ names.map t.isolate then 1 else 0
  listeners : ∀ c, s'.store.hub.listeners c =
    s.store.hub.listeners c + if c ∈ names.map t.isolate then 1 else 0
  active : s'.store.hub.active = s.store.hub.active + names.toFinset.card

/-- The services have the same counts, and their relays the same sets of channels. -/
structure SameChannels (s s' : Service) : Prop where
  relays : s'.relays.map (·.relay.channels.toFinset) = s.relays.map (·.relay.channels.toFinset)
  count : ∀ c, s'.store.hub.count c = s.store.hub.count c
  listeners : ∀ c, s'.store.hub.listeners c = s.store.hub.listeners c
  active : s'.store.hub.active = s.store.hub.active

/-- Nothing counts but the hub and the relays. -/
theorem SameChannels.of_eq (hhub : s'.store.hub = s.store.hub) (hrelays : s'.relays = s.relays) :
    SameChannels s s' := by
  refine ⟨?_, fun c => ?_, fun c => ?_, ?_⟩ <;> simp only [hhub, hrelays]

/-- What a tenant is answered who subscribes to names, if it may call and no name is empty. -/
def subscribeAnswer (s : Service) (names : List String) : Except GatewayError Response :=
  if s.gateway.settings.maxChannels < names.toFinset.card then
    .error (.invalidRange "channels" "1"
      (String.ofList (Text.decimal s.gateway.settings.maxChannels)))
  else
    match s.store.available with
    | .error e => .error (.ofStore e)
    | .ok () => .ok .subscribed

theorem subscribeAnswer_congr (hsame : ∀ n, n ∈ other ↔ n ∈ names) :
    s.subscribeAnswer other = s.subscribeAnswer names := by
  unfold subscribeAnswer
  rw [toFinset_congr hsame]

/-- Only the check of the number of names answers that something is out of range. -/
theorem subscribeAnswer_invalidRange_iff :
    (∃ e, s.subscribeAnswer names = .error e ∧ e.code = .invalidRange) ↔
      s.gateway.settings.maxChannels < names.toFinset.card := by
  unfold subscribeAnswer
  by_cases hwide : s.gateway.settings.maxChannels < names.toFinset.card
  · rw [if_pos hwide]
    exact ⟨fun _ => hwide, fun _ => ⟨_, rfl, rfl⟩⟩
  · rw [if_neg hwide]
    refine ⟨fun ⟨e, he, hcode⟩ => ?_, fun h => absurd h hwide⟩
    split at he
    · cases he
      cases hcode
    · cases he

/-- The channels are opened if the answer says so, and nothing is otherwise. -/
theorem act_subscribe (hauthorized : (s.gateway.authorize t).1 = .ok ()) (hnames : names ≠ [])
    (hnamed : "" ∉ names) (given : Supply) :
    (s.act (.call t (.subscribe names) given)).1 = .called (s.subscribeAnswer names) ∧
    (s.subscribeAnswer names = .ok .subscribed →
      (s.act (.call t (.subscribe names) given)).2.store.hub =
        (s.store.hub.subscribe (t.channels names)).2 ∧
      (s.act (.call t (.subscribe names) given)).2.relays =
        s.relays ++ [RelayTask.opened s given ⟨t, t.channels names, s.store.hub.nextId⟩]) ∧
    (s.subscribeAnswer names ≠ .ok .subscribed →
      (s.act (.call t (.subscribe names) given)).2.store.hub = s.store.hub ∧
      (s.act (.call t (.subscribe names) given)).2.relays = s.relays) := by
  have hverdict := Gateway.admission_eq s.gateway t (.subscribe names)
  rw [Gateway.complaint?_subscribe hauthorized hnames hnamed] at hverdict
  unfold subscribeAnswer
  by_cases hwide : s.gateway.settings.maxChannels < names.toFinset.card
  · rw [if_pos hwide] at hverdict ⊢
    obtain ⟨hanswer, hafter⟩ := act_call_refused hverdict given
    exact ⟨hanswer, nofun, fun _ => ⟨congrArg Store.hub hafter.store, hafter.relays⟩⟩
  · rw [if_neg hwide] at hverdict ⊢
    have hcall := Gateway.call_of_admits s.clock given.fresh s.store hverdict
    cases ho : s.store.available with
    | error e =>
      obtain ⟨hanswer, hafter⟩ := act_of_outcome (hcall.trans (Gateway.perform_of_unavailable ho))
      exact ⟨hanswer, nofun, fun _ =>
        ⟨congrArg Store.hub hafter.store, hafter.relays.trans (List.append_nil _)⟩⟩
    | ok u =>
      obtain ⟨hanswer, hafter⟩ := act_of_outcome (hcall.trans (Gateway.perform_subscribe ho names))
      exact ⟨hanswer, fun _ => ⟨congrArg Store.hub hafter.store, hafter.relays⟩,
        fun hne => absurd rfl hne⟩

/-- What the hub and the relays are after a subscription, in terms of the names. -/
theorem opens_of_subscribe (hhub : s'.store.hub = (s.store.hub.subscribe (t.channels names)).2)
    (hrelays : s'.relays =
      s.relays ++ [RelayTask.opened s given ⟨t, t.channels names, s.store.hub.nextId⟩]) :
    s.Opens t names s' where
  relay := by
    refine ⟨distinct names, _, Hub.opened s.store.hub.nextId (t.channels names),
      firsts_distinct names, hrelays, by rw [hhub]; rfl, rfl, rfl, rfl, ?_⟩
    rw [Hub.channels_opened, t.distinct_channels]
    rfl
  count c := by
    rw [hhub, Hub.count_subscribe]
    simp only [Tenant.mem_channels, List.mem_map]
  listeners c := by
    rw [hhub, Hub.listeners_subscribe]
    simp only [Tenant.mem_channels, List.mem_map]
  active := by
    rw [hhub, Hub.active_subscribe, t.distinct_channels, Tenant.channels, List.length_map,
      length_distinct]

theorem sameChannels_subscribe {a b : Service} (hsame : ∀ n, n ∈ other ↔ n ∈ names)
    (hhub : a.store.hub = (s.store.hub.subscribe (t.channels names)).2)
    (hhub' : b.store.hub = (s.store.hub.subscribe (t.channels other)).2)
    (hrelays : a.relays =
      s.relays ++ [RelayTask.opened s given ⟨t, t.channels names, s.store.hub.nextId⟩])
    (hrelays' : b.relays =
      s.relays ++ [RelayTask.opened s given ⟨t, t.channels other, s.store.hub.nextId⟩]) :
    SameChannels a b := by
  have hmem : ∀ c, c ∈ t.channels other ↔ c ∈ t.channels names := by
    simp only [Tenant.mem_channels, hsame, implies_true]
  refine ⟨?_, fun c => ?_, fun c => ?_, ?_⟩
  · rw [hrelays, hrelays', List.map_append, List.map_append]
    exact congrArg (_ ++ [·]) (toFinset_congr hmem)
  · rw [hhub, hhub', Hub.count_subscribe, Hub.count_subscribe]
    simp only [hmem]
  · rw [hhub, hhub', Hub.listeners_subscribe, Hub.listeners_subscribe]
    simp only [hmem]
  · rw [hhub, hhub', Hub.active_subscribe, Hub.active_subscribe, length_distinct, length_distinct,
      toFinset_congr hmem]

/-- The number of distinct names decides whether a subscription is refused as too wide. One that
succeeds opens one subscription on each distinct name, isolated, and none elsewhere; the relay has
them in the order in which they come first, and as many subscriptions become active. Neither order
nor repetition of the names makes a difference to the answer, or to what is opened. -/
theorem subscribe_distinct_names (hauthorized : (s.gateway.authorize t).1 = .ok ())
    (hnames : names ≠ []) (hnamed : "" ∉ names) (given : Supply) :
    ((∃ e, (s.act (.call t (.subscribe names) given)).1 = .called (.error e) ∧
        e.code = .invalidRange) ↔
      s.gateway.settings.maxChannels < names.toFinset.card) ∧
    (s.store.available = .ok () → names.toFinset.card ≤ s.gateway.settings.maxChannels →
      (s.act (.call t (.subscribe names) given)).1 = .called (.ok .subscribed)) ∧
    ((s.act (.call t (.subscribe names) given)).1 = .called (.ok .subscribed) →
      s.Opens t names (s.act (.call t (.subscribe names) given)).2) ∧
    ∀ other : List String, (∀ n, n ∈ other ↔ n ∈ names) →
      (s.act (.call t (.subscribe other) given)).1 =
        (s.act (.call t (.subscribe names) given)).1 ∧
      SameChannels (s.act (.call t (.subscribe names) given)).2
        (s.act (.call t (.subscribe other) given)).2 := by
  obtain ⟨hanswer, hopened, hkept⟩ := act_subscribe hauthorized hnames hnamed given
  simp only [hanswer, Answer.called.injEq]
  refine ⟨subscribeAnswer_invalidRange_iff, fun ho hle => ?_, fun hok => ?_, fun other hsame => ?_⟩
  · rw [subscribeAnswer, if_neg hle.not_gt, ho]
  · obtain ⟨hhub, hrelays⟩ := hopened hok
    exact opens_of_subscribe hhub hrelays
  · have hother : other ≠ [] := by
      obtain ⟨n, hn⟩ := List.exists_mem_of_ne_nil names hnames
      exact List.ne_nil_of_mem ((hsame n).2 hn)
    obtain ⟨hanswer', hopened', hkept'⟩ :=
      act_subscribe hauthorized hother (mt (hsame "").1 hnamed) given
    rw [subscribeAnswer_congr hsame] at hanswer' hopened' hkept'
    refine ⟨hanswer', ?_⟩
    by_cases hok : s.subscribeAnswer names = .ok .subscribed
    · obtain ⟨hhub, hrelays⟩ := hopened hok
      obtain ⟨hhub', hrelays'⟩ := hopened' hok
      exact sameChannels_subscribe hsame hhub hhub' hrelays hrelays'
    · obtain ⟨hhub, hrelays⟩ := hkept hok
      obtain ⟨hhub', hrelays'⟩ := hkept' hok
      exact .of_eq (hhub'.trans hhub.symm) (hrelays'.trans hrelays.symm)

/-- At most two channels: a name that comes again is not counted again, and a third one is too
many. -/
theorem subscribe_two_names :
    let ann : Tenant := ⟨"ann", "org"⟩
    let s : Service :=
      { gateway := { settings := { maxChannels := 2 } }, clock := default, store := .ofCapacity 4 }
    (s.act (.call ann (.subscribe ["b", "a", "b", "b"]) {})).1 = .called (.ok .subscribed) ∧
      s.Opens ann ["b", "a", "b", "b"] (s.act (.call ann (.subscribe ["b", "a", "b", "b"]) {})).2 ∧
      ∃ e, (s.act (.call ann (.subscribe ["b", "c", "b", "a"]) {})).1 = .called (.error e) ∧
        e.code = .invalidRange := by
  intro ann s
  have htwo : "" ∉ ["b", "a", "b", "b"] := by decide
  have hthree : "" ∉ ["b", "c", "b", "a"] := by decide
  obtain ⟨-, hsucceeds, hopens, -⟩ :=
    subscribe_distinct_names (s := s) (t := ann) rfl (by decide) htwo {}
  obtain ⟨hwide, -⟩ :=
    subscribe_distinct_names (s := s) (t := ann) rfl (by decide) hthree {}
  have hok := hsucceeds rfl (by decide)
  exact ⟨hok, hopens hok, hwide.2 (by decide)⟩

end Service

end Tenancy
