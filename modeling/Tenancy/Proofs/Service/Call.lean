import Tenancy.Proofs.Gateway.Call
import Tenancy.Proofs.Service.Settle
import Tenancy.Service.Step

/-!
# Calls, as tenants see them

What a call of the gateway makes of a service with a plain store, up to log and audit: one equation
for each request. From it follow that a call keeps an orderly service orderly, that the view of a
tenant is not changed by the calls of others (`view_call_other`), and that two services that look
the same to a tenant answer its calls alike and look the same afterwards (`view_call_own`).
-/

namespace Tenancy

/-- What the relay holds after a publish. -/
def SeenTask.hear (size : Nat) (channel payload : String) (v : SeenTask) : SeenTask :=
  { v with boxes := v.boxes.map fun bs => bs.map fun b =>
      if b.linked && b.channel = channel then b.push size ⟨channel, payload⟩ else b }

/-- The messages that an inbox keeps. -/
def View.bufferSize (v : View) : Nat := (max v.capacity 1).nextPowerOfTwo

/-- A relay of `t` as it is opened for a caller who sees the view. -/
def View.opened (v : View) (t : Tenant) (names : List String) (given : Supply) : SeenTask where
  task := {
    handle := given.handle
    relay := (Relay.start ⟨t, t.channels names, 0⟩
      { capacity := max v.gateway.settings.relayBuffer 1 } v.isShutDown given.turns).1
    ofGateway := true }
  boxes := some (Hub.opened 0 (t.channels names)).inboxes

namespace Service

variable {owner : Nat → Tenant} {s s' : Service} {a t : Tenant}

/-! ## What a call does -/

/-- The relay that reads the feed of a call. -/
def RelayTask.opened (s : Service) (given : Supply) (f : Feed) : RelayTask where
  handle := given.handle
  relay := (Relay.start f { capacity := max s.gateway.settings.relayBuffer 1 } s.isShutDown
    given.turns).1
  ofGateway := true

/-- The service after a subscription. -/
def subscribed (s : Service) (t : Tenant) (names : List String) (given : Supply) : Service :=
  { s with
    store := { s.store with hub := (s.store.hub.subscribe (t.channels names)).2 }
    relays := s.relays ++ [RelayTask.opened s given ⟨t, t.channels names, s.store.hub.nextId⟩] }

/-- The answer to an admitted call, and the service after it. -/
def served (s : Service) (t : Tenant) (given : Supply) :
    Request → Except GatewayError Response × Service
  | .acquire key ttl =>
    let r := s.store.entries.setIfAbsent s.clock.now (t.isolate key) given.fresh (some ttl)
    (.ok (.acquired (Lease.grant r.1 given.fresh s.clock.wall ttl)),
      { s with store := { s.store with entries := r.2 } })
  | .release key token =>
    let r := s.store.entries.compareAndDelete s.clock.now (t.isolate key) token
    (.ok (.released r.1), { s with store := { s.store with entries := r.2 } })
  | .renew key token ttl =>
    let r := s.store.entries.compareAndExpire s.clock.now (t.isolate key) token ttl
    (.ok (.renewed (Lease.renewal r.1 s.clock.wall ttl)),
      { s with store := { s.store with entries := r.2 } })
  | .publish channel payload =>
    (.ok (.published (s.store.hub.listeners (t.isolate channel))),
      { s with store := { s.store with
        hub := (s.store.hub.publish (t.isolate channel) payload).2 } })
  | .subscribe names => (.ok .subscribed, s.subscribed t names given)

theorem act_of_outcome {r : Request} {given : Supply} {answer : Except GatewayError Response}
    {store : Store} {feed : Option Feed}
    (h : (s.gateway.call s.clock given.fresh t r s.store).outcome = (answer, store, feed)) :
    (s.act (.call t r given)).1 = .called answer ∧
      Alike
        { s with store, relays := s.relays ++ (feed.map (RelayTask.opened s given)).toList }
        (s.act (.call t r given)).2 := by
  obtain ⟨hans, hst, hfeed⟩ := Reply.outcome_eq_iff.1 h
  simp only [act, hans, hst, hfeed]
  refine ⟨trivial, ?_⟩
  unfold after
  cases feed with
  | none =>
    simp only [Option.map_none, Option.toList_none, List.append_nil]
    exact ⟨rfl, rfl, rfl, rfl, rfl, rfl⟩
  | some f => exact ⟨rfl, rfl, rfl, rfl, rfl, rfl⟩

theorem act_call_refused {r : Request} {e : GatewayError}
    (h : (s.gateway.admission t r).1 = .error e) (given : Supply) :
    (s.act (.call t r given)).1 = .called (.error e) ∧ s.Alike (s.act (.call t r given)).2 := by
  have houtcome := Gateway.call_of_refused s.clock given.fresh s.store h
  obtain ⟨hans, halike⟩ := act_of_outcome houtcome
  rw [Option.map_none, Option.toList_none, List.append_nil] at halike
  exact ⟨hans, halike⟩

theorem act_call_served (hp : s.store.Plain) {r : Request} (ha : s.gateway.Admits t r)
    (given : Supply) :
    (s.act (.call t r given)).1 = .called (s.served t given r).1 ∧
      (s.served t given r).2.Alike (s.act (.call t r given)).2 := by
  have hcall := Gateway.call_of_admits s.clock given.fresh s.store ha
  -- calls without a feed start no relay
  have hplain : ∀ {answer : Except GatewayError Response} {store : Store},
      (Gateway.perform s.clock given.fresh t r s.store).outcome = (answer, store, none) →
      (s.act (.call t r given)).1 = .called answer ∧
        Alike { s with store } (s.act (.call t r given)).2 := by
    intro answer store h
    obtain ⟨hans, halike⟩ := act_of_outcome (hcall.trans h)
    rw [Option.map_none, Option.toList_none, List.append_nil] at halike
    exact ⟨hans, halike⟩
  cases r with
  | acquire key ttl => exact hplain (Gateway.perform_acquire hp.available key ttl)
  | release key token => exact hplain (Gateway.perform_release hp.available key token)
  | renew key token ttl => exact hplain (Gateway.perform_renew hp.available key token ttl)
  | publish channel payload => exact hplain (Gateway.perform_publish hp.available channel payload)
  | subscribe names =>
    have hlines : ∀ f : FaultSwitch → FaultSwitch, s.store.faults.map f = s.store.faults := by
      intro f
      rw [hp.faults_eq]
      rfl
    have h := hcall.trans (Gateway.perform_subscribe hp.available names)
    rw [hlines] at h
    exact act_of_outcome h

/-! ## Entries -/

theorem Orderly.withEntries (ho : s.Orderly owner a) {es : Entries} (hd : es.Distinct) :
    Orderly owner a { s with store := { s.store with entries := es } } where
  sound := ⟨ho.sound.plain.withEntries hd, ho.sound.sources_nodup, ho.sound.sources_lt⟩
  unswept := ho.unswept
  owner_eq := ho.owner_eq
  apart := ho.apart
  within := ho.within

/-! ## Publishing -/

theorem bind_find?_publish (h : Hub) (channel payload : String) (source : Option Nat) :
    source.bind (h.publish channel payload).2.find? =
      (source.bind h.find?).map (h.heard channel payload) := by
  cases source with
  | none => rfl
  | some id => exact Hub.find?_publish h channel payload id

theorem Orderly.published (ho : s.Orderly owner a) (channel payload : String) :
    Orderly owner a
      { s with store := { s.store with hub := (s.store.hub.publish channel payload).2 } } where
  sound := ⟨ho.sound.plain.withHub (ho.sound.plain.tidy.publish channel payload),
    ho.sound.sources_nodup, ho.sound.sources_lt⟩
  unswept := ho.unswept
  owner_eq := ho.owner_eq
  apart := ho.apart
  within t ht sub hsub := by
    rw [bind_find?_publish] at hsub
    obtain ⟨sub₀, hsub₀, rfl⟩ := Option.map_eq_some_iff.1 hsub
    rw [s.store.hub.ears_heard channel payload sub₀]
    exact ho.within t ht sub₀ hsub₀

theorem view_publish (s : Service) (a : Tenant) (channel payload : String) :
    view { s with store := { s.store with hub := (s.store.hub.publish channel payload).2 } } a =
      { s.view a with
        relays := (s.view a).relays.map (.hear (s.view a).bufferSize channel payload) } := by
  refine View.ext rfl rfl rfl rfl rfl ?_ ?_
  · exact funext fun c => Hub.listeners_publish s.store.hub channel payload (a.isolate c)
  · simp only [view, relaysOf, List.map_map]
    refine List.map_congr_left fun t _ => ?_
    simp only [Function.comp, RelayTask.seen, Relay.seen, SeenTask.hear, bind_find?_publish,
      Option.map_map]
    rfl

theorem Orderly.hear_other (ho : s.Orderly owner a) {channel : String}
    (hc : ∀ l, a.isolate l ≠ channel) (size : Nat) (payload : String) :
    (s.view a).relays.map (.hear size channel payload) = (s.view a).relays := by
  refine map_eq_self fun v hv => ?_
  obtain ⟨t, ht, rfl⟩ := List.mem_map.1 hv
  obtain ⟨hmem, htenant⟩ := List.mem_filter.1 ht
  have hwithin := ho.within t hmem
  unfold RelayTask.Within at hwithin
  rw [of_decide_eq_true htenant] at hwithin
  unfold SeenTask.hear RelayTask.seen Relay.seen
  cases hsub : t.relay.source.bind s.store.hub.find? with
  | none => rfl
  | some sub =>
    have hboxes : sub.inboxes.map (fun b => if b.linked && b.channel = channel then
        b.push size ⟨channel, payload⟩ else b) = sub.inboxes := by
      refine map_eq_self fun b hb => if_neg fun hbc => ?_
      obtain ⟨c, hchannel⟩ := hwithin sub hsub _ (Subscription.mem_ears hb)
      simp only [Bool.and_eq_true, decide_eq_true_eq] at hbc
      exact hc c (hchannel.symm.trans hbc.2)
    simp only [Option.map_some, hboxes]

/-! ## Subscribing -/

section Subscribe

variable (names : List String) (given : Supply)

theorem bind_find?_subscribe (hs : s.Sound) {u : RelayTask} (hu : u ∈ s.relays)
    (channels : List String) :
    u.relay.source.bind (s.store.hub.subscribe channels).2.find? =
      u.relay.source.bind s.store.hub.find? := by
  cases hid : u.relay.source with
  | none => rfl
  | some id =>
    have hlt := hs.sources_lt u hu id hid
    have hne : id ≠ s.store.hub.nextId := by omega
    exact (hs.plain.tidy.find?_subscribe channels id).trans (if_neg hne)

theorem find?_nextId_subscribe (hs : s.Sound) (channels : List String) :
    (s.store.hub.subscribe channels).2.find? s.store.hub.nextId =
      some (Hub.opened s.store.hub.nextId channels) :=
  (hs.plain.tidy.find?_subscribe channels s.store.hub.nextId).trans (if_pos rfl)

theorem forall_subscribed {p : RelayTask → Prop} (hold : ∀ u ∈ s.relays, p u)
    (hnew : p (RelayTask.opened s given ⟨t, t.channels names, s.store.hub.nextId⟩)) :
    ∀ u ∈ (s.subscribed t names given).relays, p u := by
  intro u hu
  rcases List.mem_append.1 hu with hu | hu
  · exact hold u hu
  · exact List.mem_singleton.1 hu ▸ hnew

theorem Sound.subscribed (hs : s.Sound) : (s.subscribed t names given).Sound := by
  refine ⟨hs.plain.withHub (hs.plain.tidy.subscribe _), ?_, ?_⟩
  · have hsources : (s.subscribed t names given).relays.filterMap (·.relay.source) =
        s.relays.filterMap (·.relay.source) ++ [s.store.hub.nextId] := List.filterMap_append
    rw [hsources, List.nodup_append]
    refine ⟨hs.sources_nodup, List.pairwise_singleton _ _, fun id hid id' hid' => ?_⟩
    obtain ⟨u, hu, hsource⟩ := List.mem_filterMap.1 hid
    have hlt := hs.sources_lt u hu id hsource
    have heq := List.mem_singleton.1 hid'
    omega
  · refine forall_subscribed names given
      (fun u hu id hid => Nat.lt_succ_of_lt (hs.sources_lt u hu id hid)) fun id hid => ?_
    cases hid
    exact Nat.lt_succ_self _

theorem Orderly.subscribed (ho : s.Orderly owner a) (hapart : t ≠ a → a.Apart t)
    (howner : owner given.handle = t) : (s.subscribed t names given).Orderly owner a where
  sound := ho.sound.subscribed names given
  unswept := ho.unswept
  owner_eq := forall_subscribed names given ho.owner_eq howner
  apart := forall_subscribed names given ho.apart hapart
  within := by
    have hs := ho.sound
    refine forall_subscribed names given (fun u hu sub hsub => ?_) fun sub hsub p hp => ?_
    · have hsame := bind_find?_subscribe hs hu (t.channels names)
      exact ho.within u hu sub (hsame.symm.trans hsub)
    · have hnew := find?_nextId_subscribe hs (t.channels names)
      cases hnew.symm.trans hsub
      obtain ⟨b, hb, rfl⟩ := List.mem_map.1 hp
      obtain ⟨c, hc, rfl⟩ := List.mem_map.1 hb
      obtain ⟨l, -, rfl⟩ := List.mem_map.1 (mem_distinct.1 hc)
      exact ⟨l, rfl⟩

theorem seen_subscribe (hs : s.Sound) {l : List RelayTask} (hl : ∀ u ∈ l, u ∈ s.relays)
    (channels : List String) :
    l.map (·.seen (s.store.hub.subscribe channels).2) = l.map (·.seen s.store.hub) := by
  refine List.map_congr_left fun u hu => ?_
  unfold RelayTask.seen Relay.seen
  rw [bind_find?_subscribe hs (hl u hu)]

theorem seen_opened (hs : s.Sound) :
    (RelayTask.opened s given ⟨t, t.channels names, s.store.hub.nextId⟩).seen
        (s.store.hub.subscribe (t.channels names)).2 =
      (s.view a).opened t names given := by
  have hnew := find?_nextId_subscribe hs (t.channels names)
  unfold RelayTask.seen Relay.seen View.opened
  congr 1
  simp only [RelayTask.opened, Relay.start, Option.bind_some, hnew]
  rfl

theorem view_subscribed_own (hs : s.Sound) :
    (s.subscribed a names given).view a =
      { s.view a with
        listeners := fun c =>
          (s.view a).listeners c + if a.isolate c ∈ a.channels names then 1 else 0
        relays := (s.view a).relays ++ [(s.view a).opened a names given] } := by
  refine View.ext rfl rfl rfl rfl rfl ?_ ?_
  · exact funext fun c => Hub.listeners_subscribe s.store.hub (a.channels names) (a.isolate c)
  · have hfilter : (s.subscribed a names given).relaysOf a =
        s.relaysOf a ++ [RelayTask.opened s given ⟨a, a.channels names, s.store.hub.nextId⟩] := by
      unfold relaysOf subscribed
      rw [List.filter_append]
      congr 1
      simp [RelayTask.opened, Relay.start]
    simp only [view]
    rw [hfilter, List.map_append, List.map_singleton]
    have hold := seen_subscribe hs (l := s.relaysOf a) (fun u hu => (List.mem_filter.1 hu).1)
      (a.channels names)
    have hnew := seen_opened (a := a) (t := a) names given hs
    exact congrArg₂ (· ++ ·) hold (congrArg (fun v => [v]) hnew)

theorem view_subscribed_other (hs : s.Sound) (ht : t ≠ a) (hapart : a.Apart t) :
    (s.subscribed t names given).view a = s.view a := by
  refine View.ext rfl rfl rfl rfl rfl ?_ ?_
  · refine funext fun c => ?_
    have hnot : a.isolate c ∉ t.channels names := by
      intro hmem
      obtain ⟨l, -, heq⟩ := List.mem_map.1 hmem
      exact hapart c l heq.symm
    have hsum := Hub.listeners_subscribe s.store.hub (t.channels names) (a.isolate c)
    rw [if_neg hnot] at hsum
    exact hsum
  · have hfilter : (s.subscribed t names given).relaysOf a = s.relaysOf a := by
      unfold relaysOf subscribed
      rw [List.filter_append]
      simp [RelayTask.opened, Relay.start, ht]
    simp only [view]
    rw [hfilter]
    exact seen_subscribe hs (fun u hu => (List.mem_filter.1 hu).1) (t.channels names)

end Subscribe

/-! ## Calls -/

theorem Orderly.served (ho : s.Orderly owner a) (hapart : t ≠ a → a.Apart t) {r : Request}
    {given : Supply} (howner : ∀ names, r = .subscribe names → owner given.handle = t) :
    (s.served t given r).2.Orderly owner a := by
  have hd := ho.sound.plain.distinct
  cases r with
  | acquire key ttl => exact ho.withEntries (hd.setIfAbsent ..)
  | release key token => exact ho.withEntries (hd.compareAndDelete ..)
  | renew key token ttl => exact ho.withEntries (hd.compareAndExpire ..)
  | publish channel payload => exact ho.published (t.isolate channel) payload
  | subscribe names => exact ho.subscribed names given hapart (howner names rfl)

/-- A call keeps a service orderly. -/
theorem Orderly.call (ho : s.Orderly owner a) (hapart : t ≠ a → a.Apart t) {r : Request}
    {given : Supply} (howner : ∀ names, r = .subscribe names → owner given.handle = t) :
    (s.act (.call t r given)).2.Orderly owner a := by
  rcases s.gateway.admits_or_refused t r with ha | ⟨e, he⟩
  · exact (act_call_served ho.sound.plain ha given).2.orderly (ho.served hapart howner)
  · exact (act_call_refused he given).2.orderly ho

/-- The calls of others cannot be seen. -/
theorem Orderly.view_call_other (ho : s.Orderly owner a) (ht : t ≠ a) (hapart : a.Apart t)
    (r : Request) (given : Supply) : (s.act (.call t r given)).2.view a = s.view a := by
  have hserved : (s.served t given r).2.view a = s.view a := by
    -- no entry of `a` lies under a key of `t`
    have hentries : ∀ es : Entries,
        (∀ k, es.live? (a.isolate k) s.clock.now =
          s.store.entries.live? (a.isolate k) s.clock.now) →
        view { s with store := { s.store with entries := es } } a = s.view a :=
      fun es h => View.ext rfl rfl rfl (funext h) rfl rfl rfl
    cases r with
    | acquire key ttl =>
      refine hentries _ fun k => ?_
      rw [Entries.live?_setIfAbsent]
      exact if_neg fun h => hapart k key h.1.symm
    | release key token =>
      refine hentries _ fun k => ?_
      rw [Entries.live?_compareAndDelete]
      exact if_neg fun h => hapart k key h.1.symm
    | renew key token ttl =>
      refine hentries _ fun k => ?_
      rw [Entries.live?_compareAndExpire]
      exact if_neg fun h => hapart k key h.1.symm
    | publish channel payload =>
      have hview := s.view_publish a (t.isolate channel) payload
      rw [ho.hear_other fun l => hapart l channel] at hview
      exact hview
    | subscribe names => exact view_subscribed_other names given ho.sound ht hapart
  rcases s.gateway.admits_or_refused t r with ha | ⟨e, he⟩
  · exact ((act_call_served ho.sound.plain ha given).2.view_eq a).trans hserved
  · exact (act_call_refused he given).2.view_eq a

/-- What a tenant sees decides what its calls are answered and what it sees then. -/
theorem served_congr (hs : s.Sound) (hs' : s'.Sound) (hv : s.view a = s'.view a) (r : Request)
    (given : Supply) :
    (s.served a given r).1 = (s'.served a given r).1 ∧
      (s.served a given r).2.view a = (s'.served a given r).2.view a := by
  have hclock : s.clock = s'.clock := congrArg View.clock hv
  have hlive : ∀ k, s.store.entries.live? (a.isolate k) s.clock.now =
      s'.store.entries.live? (a.isolate k) s'.clock.now := congrFun (congrArg View.entries hv)
  -- two services that look the same do so with other entries, if those look the same
  have hentries : ∀ es es' : Entries,
      (∀ k, es.live? (a.isolate k) s.clock.now = es'.live? (a.isolate k) s'.clock.now) →
      view { s with store := { s.store with entries := es } } a =
        view { s' with store := { s'.store with entries := es' } } a := by
    intro es es' h
    have hw : ∀ entries : String → Option Entry,
        ({ s.view a with entries } : View) = { s'.view a with entries } := by
      intro entries
      rw [hv]
    exact (hw _).trans (View.ext rfl rfl rfl (funext h) rfl rfl rfl)
  cases r with
  | acquire key ttl =>
    constructor
    · simp only [served, Entries.setIfAbsent_fst, hlive]
      rw [hclock]
    · refine hentries _ _ fun k => ?_
      rw [Entries.live?_setIfAbsent, Entries.live?_setIfAbsent, hlive, hlive, hclock]
  | release key token =>
    constructor
    · simp only [served, Entries.compareAndDelete_fst, hlive]
    · refine hentries _ _ fun k => ?_
      rw [Entries.live?_compareAndDelete, Entries.live?_compareAndDelete, hlive, hlive]
  | renew key token ttl =>
    constructor
    · simp only [served, Entries.compareAndExpire_fst, hlive]
      rw [hclock]
    · refine hentries _ _ fun k => ?_
      rw [Entries.live?_compareAndExpire, Entries.live?_compareAndExpire, hlive, hlive, hclock]
  | publish channel payload =>
    have hlisteners := congrFun (congrArg View.listeners hv) channel
    refine ⟨congrArg (fun n => Except.ok (Response.published n)) hlisteners, ?_⟩
    have hview := s.view_publish a (a.isolate channel) payload
    have hview' := s'.view_publish a (a.isolate channel) payload
    rw [← hv] at hview'
    exact hview.trans hview'.symm
  | subscribe names =>
    refine ⟨rfl, ?_⟩
    have hview := view_subscribed_own (a := a) names given hs
    have hview' := view_subscribed_own (a := a) names given hs'
    rw [← hv] at hview'
    exact hview.trans hview'.symm

/-- Two services that look the same to a tenant answer its calls alike, and look the same to it
afterwards. -/
theorem call_congr (hs : s.Sound) (hs' : s'.Sound) (hv : s.view a = s'.view a) (r : Request)
    (given : Supply) :
    (s.act (.call a r given)).1 = (s'.act (.call a r given)).1 ∧
      (s.act (.call a r given)).2.view a = (s'.act (.call a r given)).2.view a := by
  have hgateway : s.gateway = s'.gateway := congrArg View.gateway hv
  rcases s.gateway.admits_or_refused a r with ha | ⟨e, he⟩
  · obtain ⟨hans, halike⟩ := act_call_served hs.plain ha given
    obtain ⟨hans', halike'⟩ := act_call_served hs'.plain (hgateway ▸ ha) given
    obtain ⟨hsame, hview⟩ := served_congr hs hs' hv r given
    rw [hans, hans', hsame, halike.view_eq, halike'.view_eq]
    exact ⟨rfl, hview⟩
  · obtain ⟨hans, halike⟩ := act_call_refused he given
    obtain ⟨hans', halike'⟩ := act_call_refused (hgateway ▸ he) given
    rw [hans, hans', halike.view_eq, halike'.view_eq]
    exact ⟨rfl, hv⟩

end Service

end Tenancy
