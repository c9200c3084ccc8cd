import Mathlib.Data.List.ReduceOption
import Tenancy.Proofs.Relay.Load
import Tenancy.Proofs.Rpc.Refinement
import Tenancy.Proofs.Service.Setup
import Tenancy.Proofs.Service.Steady

/-!
# Slow callers

The messages of a channel on their way to a caller are the load of a relay (`Service.Carries`). After
every step the service comes to rest, so the load stands where it can (`Carries.step`): a publish
adds to one queue that spans inbox, hand and mailbox, and a caller that reads takes from its head
(`Carries.beat`). A run of such steps is that of a `Backlog` (`Carries.run`), which gives the exact
threshold from which messages are lost (`loss_threshold`).
-/

namespace Tenancy

/-! ## Steps -/

/-- The step is a publish on the channel, through the gateway, as a remote call or at the store; or a
single read by the caller with the handle; or time passes. -/
inductive Step.BeatsAs (g : Gateway) (channel : String) (handle : Nat) :
    Step → Option Tick → Prop where
  | call {t : Tenant} {name text : String} {given : Supply} (hname : t.isolate name = channel)
    (hadmits : g.Admits t (.publish name text)) :
    BeatsAs g channel handle (.call t (.publish name text) given) (some (.put text))
  | rpc {caller : Rpc.Caller} {t : Tenant} {name text : String} {given : Supply}
    (hcaller : caller.Identifies (.ok t)) (hname : t.isolate name = channel)
    (hadmits : g.Admits t (.publish name text)) :
    BeatsAs g channel handle (.rpc caller (.publish ⟨name, text⟩) given) (some (.put text))
  | store (text : String) :
    BeatsAs g channel handle (.store (.publish channel text)) (some (.put text))
  | read : BeatsAs g channel handle (.read handle (some 1)) (some .take)
  | pause (d : Span) : BeatsAs g channel handle (.advance d) none

/-- What a caller was given. -/
def Answer.items : Answer → List RelayItem
  | .read items _ => items
  | _ => []

/-- What a single read gives. -/
def Lane.given (waiting : List String) : Option Tick → List String
  | some .take => waiting.take 1
  | _ => []

/-- What waits after a publish or a read. -/
def Lane.queue (lane : Lane) (waiting : List String) : Option Tick → List String
  | some (.put text) => enqueue lane.size (lane.room + 1) waiting text
  | some .take => waiting.drop 1
  | none => waiting

namespace Service

variable {lane : Lane} {handle : Nat} {x : Load} {w : List String} {s s' : Service}

/-! ## Relays with a load -/

/-- The relay with the handle is at work on the lane, and carries the load. -/
structure Carries (lane : Lane) (handle : Nat) (x : Load) (s : Service) : Prop where
  sound : s.Sound
  handles_nodup : (s.relays.map (·.handle)).Nodup
  bufferSize_eq : s.store.hub.bufferSize = lane.size
  relay : ∃ t ∈ s.relays, t.handle = handle ∧ t.relay.Carries lane x s.store.hub

namespace Carries

theorem of_alike (h : s.Alike s') (hc : s.Carries lane handle x) : s'.Carries lane handle x := by
  refine ⟨h.sound hc.sound, ?_, ?_, ?_⟩
  · rw [h.relays]
    exact hc.handles_nodup
  · rw [h.store]
    exact hc.bufferSize_eq
  · rw [h.relays, h.store]
    exact hc.relay

/-- Changes of the entries do not matter. -/
theorem withEntries (hc : s.Carries lane handle x) {es : Entries} (hd : es.Distinct) :
    { s with store := { s.store with entries := es } }.Carries lane handle x where
  sound := ⟨hc.sound.plain.withEntries hd, hc.sound.sources_nodup, hc.sound.sources_lt⟩
  handles_nodup := hc.handles_nodup
  bufferSize_eq := hc.bufferSize_eq
  relay := hc.relay

theorem runSweepers (hc : s.Carries lane handle x) : s.runSweepers.Carries lane handle x := by
  have hkept : { s with store := (Sweeper.runAll s.clock.now s.sweepers s.store).2 }.Carries lane
      handle x :=
    Sweeper.runAll_keeps (p := fun store => { s with store }.Carries lane handle x)
      (fun hc => hc.withEntries hc.sound.plain.distinct.purge) s.sweepers hc
  exact ⟨⟨hkept.sound.plain, hkept.sound.sources_nodup, hkept.sound.sources_lt⟩,
    hkept.handles_nodup, hkept.bufferSize_eq, hkept.relay⟩

/-- A move of a relay moves its load on, and leaves other loads alone. -/
theorem move (hc : s.Carries lane handle x) {l₁ l₂ : List RelayTask} {u u' : RelayTask}
    (hm : s.MovesAt l₁ u l₂ u' s') : ∃ y, s'.Carries lane handle y ∧ y.all = x.all := by
  obtain ⟨t, ht, hhandle, hload⟩ := hc.relay
  have hhandles : s'.relays.map (·.handle) = s.relays.map (·.handle) := by
    have hsame : u'.handle = u.handle := by rw [hm.task_eq]
    rw [hm.relays_after, hm.relays_eq, List.map_append, List.map_append, List.map_cons,
      List.map_cons, hsame]
  have hsize : s'.store.hub.bufferSize = lane.size := by
    unfold Hub.bufferSize
    rw [(hm.relay_moves.nextId_eq hc.sound.plain).2]
    exact hc.bufferSize_eq
  have hafter : ∀ v ∈ s'.relays, v.handle = handle → ∀ y, v.relay.Carries lane y s'.store.hub →
      s'.Carries lane handle y :=
    fun v hv hh y hy => ⟨hm.sound hc.sound, hhandles ▸ hc.handles_nodup, hsize, v, hv, hh, hy⟩
  rw [hm.relays_eq, List.mem_append, List.mem_cons, or_left_comm] at ht
  rcases ht with rfl | hother
  · obtain ⟨e, hmove⟩ := hm.relay_eq
    have hmem : u' ∈ s'.relays := by
      rw [hm.relays_after]
      exact List.mem_append_right l₁ List.mem_cons_self
    rcases hload.move? hc.sound.plain s.clock.wall with ⟨hnone, -⟩ | ⟨r, store, e', y, hsome, hy, hall⟩
    · cases hnone.symm.trans hmove
    · cases hsome.symm.trans hmove
      exact ⟨y, hafter u' hmem (by rw [hm.task_eq]; exact hhandle) y hy, hall⟩
  · have hmem : t ∈ s'.relays := by
      rw [hm.relays_after, List.mem_append, List.mem_cons, or_left_comm]
      exact .inr hother
    exact ⟨x, hafter t hmem hhandle x (hload.congr (hm.find?_other hc.sound hother)), rfl⟩

/-- At rest, all has been moved on as far as there is room. -/
theorem settle (hc : s.Carries lane handle x) :
    s.settle.Carries lane handle (.rested lane.room x.all) := by
  obtain ⟨y, hy, hall⟩ := settleIn_keeps (p := fun s => ∃ y, s.Carries lane handle y ∧ y.all = x.all)
    (fun {s s'} h hmove => by
      obtain ⟨y, hy, hall⟩ := h
      obtain ⟨l₁, u, l₂, u', hm, -⟩ := movesAt_of_move? hmove
      obtain ⟨z, hz, hsame⟩ := hy.move hm
      exact ⟨z, hz, hsame.trans hall⟩) s.reach ⟨x, hc, rfl⟩
  have hrests := (hc.sound.settleIn_rests (Nat.le_refl s.reach)).2
  obtain ⟨t, ht, -, hload⟩ := hy.relay
  have hrest : y.Rests lane.room := by
    rcases hload.move? hy.sound.plain (settleIn s.reach s).clock.wall with
      ⟨-, hrest⟩ | ⟨r, store, e, z, hsome, -⟩
    · exact hrest
    · cases (hrests t ht).symm.trans hsome
  have heq := hrest.eq_rested hload.boxed_le
  rw [hall] at heq
  rw [← heq]
  exact hy.of_alike (alike_deliver _)

/-- After a step all is moved on. -/
theorem rests {step : Step} (hc : (s.act step).2.Carries lane handle x) :
    (s.step step).2.Carries lane handle (.rested lane.room x.all) :=
  hc.settle.runSweepers

end Carries

/-! ## Publishing and reading -/

theorem act_publishes (hp : s.store.Plain) {channel text : String} {step : Step}
    (hx : step.BeatsAs s.gateway channel handle (some (.put text))) :
    Alike { s with store := { s.store with hub := (s.store.hub.publish channel text).2 } }
      (s.act step).2 ∧ (s.act step).1.items = [] := by
  cases hx with
  | call hname hadmits =>
    subst hname
    obtain ⟨hanswer, halike⟩ := act_call_served hp hadmits _
    exact ⟨halike, by rw [hanswer]; rfl⟩
  | rpc hcaller hname hadmits =>
    subst hname
    rw [act_rpc_of_ok hcaller]
    exact ⟨(act_call_served hp hadmits _).2, rfl⟩
  | store text =>
    rw [act, Store.call, Store.publish_of_available hp.available]
    exact ⟨.refl _, rfl⟩

namespace Carries

theorem publish (hc : s.Carries lane handle (.rested lane.room w)) (hsize : 0 < lane.size)
    (text : String) :
    ∃ y, Carries lane handle y
        { s with store := { s.store with hub := (s.store.hub.publish lane.channel text).2 } } ∧
      y.all = enqueue lane.size (lane.room + 1) w text := by
  obtain ⟨t, ht, hhandle, hload⟩ := hc.relay
  obtain ⟨y, hy, hall⟩ :=
    hload.publish (Load.rests_rested lane.room w) hc.bufferSize_eq hsize text
  rw [Load.all_rested] at hall
  have hplain := hc.sound.plain.withHub (hc.sound.plain.tidy.publish lane.channel text)
  exact ⟨y, ⟨⟨hplain, hc.sound.sources_nodup, hc.sound.sources_lt⟩, hc.handles_nodup,
    hc.bufferSize_eq, t, ht, hhandle, hy⟩, hall⟩

/-- The caller takes an item, and nothing moves yet. -/
theorem picked (hc : s.Carries lane handle x) {text : String} {boxed : List String}
    (hboxed : x.boxed = text :: boxed) :
    ∃ item s', s.picked? handle = some (item, s') ∧ lane.Tells text item ∧
      s'.Carries lane handle { x with boxed } := by
  obtain ⟨t, ht, rfl, hload⟩ := hc.relay
  obtain ⟨item, mailbox, htake, htells, hrest⟩ := hload.taken hboxed
  have hpicked : s.picked? t.handle =
      some (item, s.mapRelay t.handle fun r => { r with mailbox }) := by
    rw [picked?, relay?, task?_of_mem hc.handles_nodup ht]
    simp [htake]
  have hhandles : (s.mapRelay t.handle fun r => { r with mailbox }).relays.map (·.handle) =
      s.relays.map (·.handle) := by
    simp only [mapRelay, mapTask, List.map_map]
    refine List.map_congr_left fun u _ => ?_
    rw [Function.comp]
    split <;> rfl
  have hsound : (s.mapRelay t.handle fun r => { r with mailbox }).Sound :=
    hc.sound.mapTask (f := fun t => { t with relay := { t.relay with mailbox } }) (fun _ => rfl)
      t.handle
  refine ⟨item, _, hpicked, htells, hsound, hhandles ▸ hc.handles_nodup, hc.bufferSize_eq,
    { t with relay := { t.relay with mailbox } }, ?_, rfl, hrest⟩
  exact List.mem_map.2 ⟨t, ht, if_pos rfl⟩

/-- A single read gives the first message that waits, if there is any. -/
theorem read (hc : s.Carries lane handle (.rested lane.room w)) (hroom : 0 < lane.room) :
    ∃ items s', s.act (.read handle (some 1)) = (.read items false, s') ∧
      List.Forall₂ lane.Tells (w.take 1) items ∧
      ∃ y, s'.Carries lane handle y ∧ y.all = w.drop 1 := by
  obtain ⟨t, ht, hhandle, hload⟩ := hc.relay
  have hrelay : s.relay? handle = some t.relay := by
    rw [relay?, ← hhandle, task?_of_mem hc.handles_nodup ht]
    rfl
  have hreader : s.hasReader handle = true := by
    rw [hasReader, hrelay]
    exact hload.isOpen
  have hdone : ∀ (fuel : Nat) (s : Service), readIn handle fuel (some 0) s = ([], false, s) := by
    intro fuel s
    cases fuel <;> rfl
  rw [act, if_pos hreader, readIn, if_neg (by simp)]
  cases w with
  | nil =>
    have hnone : s.picked? handle = none := by
      rw [picked?, hrelay]
      simp [hload.take?_eq_none List.take_nil]
    rw [take?_eq, hnone, hrelay]
    simp only [Option.map_none, Option.map_some, Option.getD_some, hload.isEnded_eq]
    exact ⟨[], s, rfl, .nil, _, hc, Load.all_rested lane.room []⟩
  | cons text w =>
    obtain ⟨room, hsucc⟩ := Nat.exists_eq_succ_of_ne_zero (Nat.pos_iff_ne_zero.1 hroom)
    have hboxed : (Load.rested lane.room (text :: w)).boxed = text :: w.take room := by
      rw [Load.rested, hsucc, List.take_succ_cons]
    obtain ⟨item, s₁, hpicked, htells, hrest⟩ := hc.picked hboxed
    have hall : Load.all { Load.rested lane.room (text :: w) with boxed := w.take room } = w := by
      have hall := Load.all_rested lane.room (text :: w)
      rw [Load.all, hboxed] at hall
      exact (List.cons.inj hall).2
    rw [take?_eq, hpicked]
    simp only [Option.map_some, Nat.sub_self, hdone]
    refine ⟨[item], s₁.settle, rfl, .cons htells .nil, _, hrest.settle, ?_⟩
    rw [Load.all_rested, hall]
    rfl

/-- A publish adds to the queue, and a read takes from it. -/
theorem beat (hc : s.Carries lane handle (.rested lane.room w)) (hsize : 0 < lane.size)
    (hroom : 0 < lane.room) {step : Step} {tick : Option Tick}
    (hx : step.BeatsAs s.gateway lane.channel handle tick) :
    List.Forall₂ lane.Tells (Lane.given w tick) (s.step step).1.items ∧
      (s.step step).2.Carries lane handle (.rested lane.room (lane.queue w tick)) := by
  cases tick with
  | none =>
    cases hx with
    | pause d =>
      have hpaused : (s.act (.advance d)).2.Carries lane handle (.rested lane.room w) :=
        ⟨⟨hc.sound.plain, hc.sound.sources_nodup, hc.sound.sources_lt⟩, hc.handles_nodup,
          hc.bufferSize_eq, hc.relay⟩
      have hrests := hpaused.rests
      rw [Load.all_rested] at hrests
      exact ⟨.nil, hrests⟩
  | some tick =>
    cases tick with
    | put text =>
      obtain ⟨halike, hitems⟩ := act_publishes hc.sound.plain hx
      obtain ⟨y, hy, hall⟩ := hc.publish hsize text
      have hrests := (hy.of_alike halike).rests
      rw [hall] at hrests
      have hsame : (s.step step).1.items = [] := hitems
      rw [hsame]
      exact ⟨.nil, hrests⟩
    | take =>
      cases hx with
      | read =>
        obtain ⟨items, s', hact, htells, y, hy, hall⟩ := hc.read hroom
        have hy' : (s.act (.read handle (some 1))).2.Carries lane handle y := by
          rw [hact]
          exact hy
        have hrests := hy'.rests
        have hanswer : (s.step (.read handle (some 1))).1 = .read items false :=
          congrArg Prod.fst hact
        rw [hall] at hrests
        rw [hanswer]
        exact ⟨htells, hrests⟩

end Carries

/-! ## Runs -/

/-- In a run the load is a backlog, and the caller is told of what is read of it. -/
theorem Carries.run {g : Gateway} {texts : List String} {xs : List Step}
    {ticks : List (Option Tick)} (hsize : 0 < lane.size) (hroom : 0 < lane.room)
    (hxs : List.Forall₂ (Step.BeatsAs g lane.channel handle) xs ticks) :
    ∀ {s : Service} {w : List String} {b : Backlog},
      s.Carries lane handle (.rested lane.room w) → s.gateway = g →
      w.map some = b.waiting.map (texts[·]?) →
      texts.drop b.sent = Tick.payloads ticks.reduceOption →
      let b' := ticks.reduceOption.foldl (Backlog.tick lane.size (lane.room + 1)) b
      (∃ w', (s.run xs).2.Carries lane handle (.rested lane.room w') ∧
        w'.map some = b'.waiting.map (texts[·]?)) ∧
      ∃ got, b'.read = b.read ++ got ∧
        List.Forall₂ (lane.TellsNth texts) got ((s.run xs).1.flatMap Answer.items) := by
  induction hxs with
  | nil =>
    intro s w b hc hg hw htexts
    exact ⟨⟨w, hc, hw⟩, [], (List.append_nil _).symm, .nil⟩
  | @cons x tick xs ticks hx hxs ih =>
    intro s w b hc hg hw htexts
    obtain ⟨hgiven, hc'⟩ := hc.beat hsize hroom (hg ▸ hx)
    have hg' : (s.step x).2.gateway = g := (SameSetup.step s x).gateway_eq.trans hg
    have hitems : (s.run (x :: xs)).1.flatMap Answer.items =
        (s.step x).1.items ++ ((s.step x).2.run xs).1.flatMap Answer.items := rfl
    rw [hitems]
    cases tick with
    | none =>
      rw [List.forall₂_nil_left_iff.1 hgiven]
      exact ih hc' hg' hw htexts
    | some tick =>
      rw [List.reduceOption_cons_of_some] at htexts ⊢
      cases tick with
      | put text =>
        have htext : texts[b.sent]? = some text := by
          rw [← List.head?_drop, htexts]
          rfl
        have hrest : texts.drop (b.sent + 1) = Tick.payloads ticks.reduceOption := by
          rw [← List.drop_drop, htexts]
          rfl
        have hqueue : (enqueue lane.size (lane.room + 1) w text).map some =
            (enqueue lane.size (lane.room + 1) b.waiting b.sent).map (texts[·]?) := by
          rw [map_enqueue, map_enqueue, hw, htext]
        rw [List.forall₂_nil_left_iff.1 hgiven]
        exact ih hc' hg' hqueue hrest
      | take =>
        have hdrop : (w.drop 1).map some = (b.waiting.drop 1).map (texts[·]?) := by
          rw [List.map_drop, List.map_drop, hw]
        have htake : (w.take 1).map some = (b.waiting.take 1).map (texts[·]?) := by
          rw [List.map_take, List.map_take, hw]
        obtain ⟨hfinal, got, hread, htold⟩ :=
          ih (b := b.tick lane.size (lane.room + 1) .take) hc' hg' hdrop htexts
        refine ⟨hfinal, b.waiting.take 1 ++ got, ?_, ?_⟩
        · exact hread.trans (List.append_assoc ..)
        · exact List.rel_append (Lane.tellsNth_of_tells htake hgiven) htold

/-! ## Opening -/

section Subscribed

variable {t : Tenant} {name : String} {names : List String} {given : Supply}

/-- A subscription that succeeds was admitted, by an open store. -/
theorem open_of_subscribed (hm : s.store.InMemory)
    (h : (s.act (.call t (.subscribe names) given)).1 = .called (.ok .subscribed)) :
    s.store.closed = false ∧ s.gateway.Admits t (.subscribe names) := by
  rcases s.gateway.admits_or_refused t (.subscribe names) with hadmits | ⟨e, he⟩
  · refine ⟨?_, hadmits⟩
    cases hc : s.store.closed with
    | false => rfl
    | true =>
      have hfailed : (Gateway.perform s.clock given.fresh t (.subscribe names) s.store).outcome =
          (.error (.ofStore .closed), s.store, none) := by
        simp [Gateway.perform, Gateway.subscribe, Feed.subscribe, Store.subscribe,
          hm.available_of_closed hc, Reply.outcome]
      have hcall := Gateway.call_of_admits s.clock given.fresh s.store hadmits
      cases (act_of_outcome (hcall.trans hfailed)).1.symm.trans h
  · cases (act_call_refused he given).1.symm.trans h

/-- A relay that the gateway opens on one channel starts with nothing. -/
theorem carries_opened {l : Holdings} (hs : s.Steady l) (hnames : distinct names = [name])
    (hfresh : s.task? given.handle = none) (hup : s.isShutDown = false)
    (hopened : s.step (.call t (.subscribe names) given) = (.called (.ok .subscribed), s')) :
    s'.Carries ⟨t, t.isolate name, s.store.hub.bufferSize, max s.gateway.settings.relayBuffer 1⟩
      given.handle (.rested (max s.gateway.settings.relayBuffer 1) []) := by
  have hanswer : (s.act (.call t (.subscribe names) given)).1 = .called (.ok .subscribed) :=
    congrArg Prod.fst hopened
  obtain ⟨hc, hadmits⟩ := open_of_subscribed hs.inMemory hanswer
  have hsound := hs.sound hc
  have hchannels : t.channels names = [t.isolate name] := by
    rw [Tenant.channels, hnames]
    rfl
  have hfind := find?_nextId_subscribe hsound [t.isolate name]
  have hhandles : ((s.subscribed t names given).relays.map (·.handle)).Nodup := by
    have hsame : (s.subscribed t names given).relays.map (·.handle) =
        s.relays.map (·.handle) ++ [given.handle] := List.map_append
    rw [hsame, List.nodup_append]
    refine ⟨hs.roster.handles_nodup, List.pairwise_singleton _ _, fun i hi j hj => ?_⟩
    obtain ⟨u, hu, rfl⟩ := List.mem_map.1 hi
    rw [List.mem_singleton.1 hj]
    exact task?_eq_none_iff.1 hfresh u hu
  have hload : Relay.Carries
      ⟨t, t.isolate name, s.store.hub.bufferSize, max s.gateway.settings.relayBuffer 1⟩ {}
      (s.store.hub.subscribe (t.channels names)).2
      (RelayTask.opened s given ⟨t, t.channels names, s.store.hub.nextId⟩).relay := by
    rw [hchannels]
    exact ⟨hup, rfl, rfl, rfl, .nil, .asking, ⟨_, _, rfl, hfind, rfl, rfl, rfl⟩, Nat.zero_le _,
      Nat.zero_le _⟩
  have hsubscribed : (s.subscribed t names given).Carries
      ⟨t, t.isolate name, s.store.hub.bufferSize, max s.gateway.settings.relayBuffer 1⟩
      given.handle {} :=
    ⟨hsound.subscribed names given, hhandles, rfl, _,
      List.mem_append_right _ List.mem_cons_self, rfl, hload⟩
  have hrests := (hsubscribed.of_alike (act_call_served hsound.plain hadmits given).2).rests
  rw [hopened] at hrests
  exact hrests

end Subscribed

/-- A relay that the gateway opens on a single channel of a store in memory, and any publishes on the
channel and single reads of its caller after that. What the caller reads, and what waits for it, is
what the backlog says: first `room` messages in the mailbox, then one in the hand of the relay, and
the rest in the inbox. A further publish loses a message if and only if exactly `size + room + 1`
messages wait, and then it loses the oldest in the inbox. Every other message is read once and in the
order of the publishes, or still waits; and none is lost while at most `size + room + 1` messages are
outstanding. -/
theorem loss_threshold {start s s₁ : Service} {capacity : Nat}
    (hstore : start.store = .ofCapacity capacity) (hrelays : start.relays = [])
    {before : List Step} (hrightful : isRightfulIn [] start before = true)
    (hbefore : (start.run before).2 = s) {t : Tenant} {name : String} {names : List String}
    {given : Supply} (hnames : distinct names = [name]) (hfresh : s.task? given.handle = none)
    (hup : s.isShutDown = false)
    (hopened : s.step (.call t (.subscribe names) given) = (.called (.ok .subscribed), s₁))
    {xs : List Step} {ticks : List (Option Tick)}
    (hxs : List.Forall₂ (Step.BeatsAs start.gateway (t.isolate name) given.handle) xs ticks) :
    let size := (max capacity 1).nextPowerOfTwo
    let room := max start.gateway.settings.relayBuffer 1
    let lane : Lane := ⟨t, t.isolate name, size, room⟩
    let after := Backlog.after size (room + 1)
    let texts := Tick.payloads ticks.reduceOption
    let b := after ticks.reduceOption
    let s₂ := (s₁.run xs).2
    List.Forall₂ (lane.TellsNth texts) b.read ((s₁.run xs).1.flatMap Answer.items) ∧
    (∃ w, w.map some = b.waiting.map (texts[·]?) ∧
      s₂.Carries lane given.handle (.rested room w) ∧
      ∀ x text, x.BeatsAs start.gateway (t.isolate name) given.handle (some (.put text)) →
        (s₂.step x).2.Carries lane given.handle (.rested room
          (if w.length = size + room + 1 then w.eraseIdx (room + 1) ++ [text] else w ++ [text]))) ∧
    b.Sorted size (room + 1) ∧
    ((∀ pre, pre <+: ticks.reduceOption →
      (after pre).sent ≤ (after pre).read.length + (size + room + 1)) → b.lost = []) := by
  intro size room lane after texts b s₂
  have hsteady : s.Steady (ledgerIn [] start before) := hbefore ▸
    (Steady.start hstore hrelays).steps hrightful
  have hsetup : start.SameSetup s := hbefore ▸ SameSetup.run before start
  have hbuffer : s.store.hub.bufferSize = size := by
    have hcapacity : s.store.hub.capacity = capacity := by
      have hkept : s.store.hub.capacity = start.store.hub.capacity := hsetup.capacity_eq
      rw [hkept, hstore]
      rfl
    unfold Hub.bufferSize
    rw [hcapacity]
  have hgateway : s₁.gateway = start.gateway := by
    have hstep := SameSetup.step s (.call t (.subscribe names) given)
    rw [hopened] at hstep
    exact hstep.gateway_eq.trans hsetup.gateway_eq
  have hstart := carries_opened hsteady hnames hfresh hup hopened
  rw [hbuffer, hsetup.gateway_eq] at hstart
  have hsize : 0 < size := Nat.pos_of_isPowerOfTwo (Nat.isPowerOfTwo_nextPowerOfTwo _)
  have hroom : 0 < room := Nat.lt_of_lt_of_le Nat.one_pos (Nat.le_max_right _ 1)
  obtain ⟨⟨w, hcarries, hw⟩, got, hread, htold⟩ :=
    Carries.run (b := {}) hsize hroom hxs hstart hgateway rfl (List.drop_zero (l := texts))
  have hgot : b.read = got := hread
  refine ⟨hgot ▸ htold, ⟨w, hw, hcarries, fun x text hx => ?_⟩, Backlog.sorted_after hsize _,
    fun hbound => Backlog.lost_eq_nil hsize fun pre hpre => ?_⟩
  · have hgateway₂ : s₂.gateway = start.gateway :=
      (SameSetup.run xs s₁).gateway_eq.trans hgateway
    obtain ⟨-, hafter⟩ := hcarries.beat hsize hroom (hgateway₂ ▸ hx)
    have hqueue : lane.queue w (some (.put text)) =
        if w.length = size + room + 1 then w.eraseIdx (room + 1) ++ [text] else w ++ [text] := by
      have hthreshold : room + 1 + size = size + room + 1 := by omega
      rw [← hthreshold]
      rfl
    rw [← hqueue]
    exact hafter
  · have hpre' := hbound pre hpre
    show (after pre).sent ≤ (after pre).read.length + (room + 1 + size)
    omega

/-- A caller reads nothing for five publishes: the last of them finds four messages waiting, and pushes
out the third. Two reads make room, so the next publish loses nothing. -/
theorem loss_threshold_five_outstanding :
    let ann : Tenant := ⟨"ann", none⟩
    let start : Service :=
      { gateway := { settings := { relayBuffer := 1 } }, clock := ⟨⟨0⟩, default⟩,
        store := .ofCapacity 2 }
    let before : List Step := [.call ann (.subscribe ["a", "b"]) { handle := 1 }, .advance ⟨5⟩]
    let given : Supply := { handle := 2 }
    let publish (text : String) : Step := .call ann (.publish "a" text) {}
    let xs : List Step :=
      [publish "0", publish "1", publish "2", .advance ⟨7⟩, publish "3", publish "4",
        .read 2 (some 1), .read 2 (some 1), publish "5", .read 2 (some 1)]
    let s := (start.run before).2
    let s₁ := (s.step (.call ann (.subscribe ["a", "a"]) given)).2
    let lane : Lane := ⟨ann, ann.isolate "a", 2, 1⟩
    isRightfulIn [] start before = true ∧
      List.Forall₂ (lane.TellsNth ["0", "1", "2", "3", "4", "5"]) [0, 1, 3]
        ((s₁.run xs).1.flatMap Answer.items) ∧
      ∃ w, w = ["4", "5"] ∧ (s₁.run xs).2.Carries lane 2 (.rested 1 w) := by
  intro ann start before given publish xs s s₁ lane
  have hrightful : isRightfulIn [] start before = true := by decide +kernel
  have hpublish : ∀ text, Step.BeatsAs start.gateway (ann.isolate "a") 2 (publish text)
      (some (.put text)) := fun text => .call rfl rfl
  let ticks : List (Option Tick) :=
    [some (.put "0"), some (.put "1"), some (.put "2"), none, some (.put "3"), some (.put "4"),
      some .take, some .take, some (.put "5"), some .take]
  have hxs : List.Forall₂ (Step.BeatsAs start.gateway (ann.isolate "a") 2) xs ticks :=
    .cons (hpublish "0") <| .cons (hpublish "1") <| .cons (hpublish "2") <| .cons (.pause ⟨7⟩) <|
      .cons (hpublish "3") <| .cons (hpublish "4") <| .cons .read <| .cons .read <|
      .cons (hpublish "5") <| .cons .read .nil
  have hbefore : (start.run before).2 = s := rfl
  have hstore : start.store = .ofCapacity 2 := rfl
  have hnames : distinct ["a", "a"] = ["a"] := by decide
  have hfresh : s.task? given.handle = none := by decide +kernel
  have hup : s.isShutDown = false := by decide +kernel
  have hopened : s.step (.call ann (.subscribe ["a", "a"]) given) = (.called (.ok .subscribed), s₁) := by
    have hadmits : s.gateway.Admits ann (.subscribe ["a", "a"]) := by
      rw [(SameSetup.run before start).gateway_eq]
      rfl
    have hsound := ((Steady.start hstore rfl).steps hrightful).sound (by decide +kernel)
    exact Prod.ext (act_call_served hsound.plain hadmits given).1 rfl
  obtain ⟨htold, ⟨w, hw, hcarries, -⟩, -⟩ :=
    loss_threshold hstore rfl hrightful hbefore hnames hfresh hup hopened hxs
  have hsize : (max 2 1).nextPowerOfTwo = 2 := by decide +kernel
  have hread : (Backlog.after 2 2 ticks.reduceOption).read = [0, 1, 3] := by decide +kernel
  have hwaiting : (Backlog.after 2 2 ticks.reduceOption).waiting.map
      ((Tick.payloads ticks.reduceOption)[·]?) = ["4", "5"].map some := by decide +kernel
  rw [hsize] at htold hw hcarries
  refine ⟨hrightful, hread ▸ htold, w, ?_, hcarries⟩
  exact List.map_injective_iff.2 (fun _ _ => Option.some.inj) (hw.trans hwaiting)

end Service

end Tenancy
