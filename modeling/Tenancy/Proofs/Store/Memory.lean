import Tenancy.Lock
import Tenancy.Proofs.Hub.Frozen
import Tenancy.Proofs.Store.Plain
import Tenancy.Relay.Feed
import Tenancy.Store.Call

/-!
# Stores in memory

A store in memory (`Store.InMemory`) has a tidy hub until it is closed, and a frozen one from then
on. Two such stores are twins but for some subscriptions (`Store.Twins`) where they have the same
entries and find all other subscriptions alike. Then whoever has nothing to do with those
subscriptions gets the same answers from both, but for the counts of listeners, and they stay twins.
-/

namespace Tenancy

namespace Store

structure InMemory (s : Store) : Prop where
  faults_eq : s.faults = none
  tidy : s.closed = false → s.hub.Tidy
  frozen : s.closed = true → s.hub.Frozen

theorem inMemory_ofCapacity (capacity : Nat) : (ofCapacity capacity).InMemory where
  faults_eq := rfl
  tidy _ := Hub.tidy_start capacity
  frozen h := by cases h

namespace InMemory

variable {s : Store} (hm : s.InMemory)

include hm

theorem available_eq : s.available = if s.closed then .error .closed else .ok () := by
  unfold Store.available
  rw [hm.faults_eq]
  rfl

theorem available_of_open (ho : s.closed = false) : s.available = .ok () := by
  rw [hm.available_eq, ho]
  rfl

theorem available_of_closed (hc : s.closed = true) : s.available = .error .closed := by
  rw [hm.available_eq, hc]
  rfl

theorem withEntries (es : Entries) : { s with entries := es }.InMemory :=
  ⟨hm.faults_eq, hm.tidy, hm.frozen⟩

/-- Without a switch there is nothing to switch. -/
theorem mapFaults_eq (f : FaultSwitch → FaultSwitch) : { s with faults := s.faults.map f } = s := by
  have hfaults : s.faults.map f = s.faults := by
    rw [hm.faults_eq]
    rfl
  rw [hfaults]

theorem setFailing_eq (on : Bool) : s.setFailing on = s := hm.mapFaults_eq _

theorem breakSubscriptions_eq (e : StoreError) : (s.breakSubscriptions e).2 = s :=
  hm.mapFaults_eq _

theorem passTurn_eq (id : Nat) : s.passTurn id = s := by
  unfold passTurn
  rw [line?_of_faultless hm.faults_eq]

/-! ## Subscriptions -/

theorem find?_unsubscribe (id j : Nat) :
    (s.unsubscribe id).hub.find? j = if j = id then none else s.hub.find? j := by
  rw [unsubscribe_of_faultless hm.faults_eq]
  cases hc : s.closed with
  | false => exact (hm.tidy hc).find?_unsubscribe id j
  | true => exact (hm.frozen hc).find?_unsubscribe id j

theorem unsubscribe (id : Nat) : (s.unsubscribe id).InMemory := by
  rw [unsubscribe_of_faultless hm.faults_eq]
  exact ⟨hm.faults_eq, fun ho => (hm.tidy ho).unsubscribe id,
    fun hc => (hm.frozen hc).unsubscribe id⟩

theorem unsubscribe_kept (id : Nat) :
    (s.unsubscribe id).entries = s.entries ∧ (s.unsubscribe id).closed = s.closed ∧
      (s.unsubscribe id).hub.nextId = s.hub.nextId ∧
      (s.unsubscribe id).hub.capacity = s.hub.capacity := by
  have hhub : (s.hub.unsubscribe id).nextId = s.hub.nextId ∧
      (s.hub.unsubscribe id).capacity = s.hub.capacity := by
    cases hc : s.closed with
    | false => exact ((hm.tidy hc).unsubscribe_capacity id).symm
    | true =>
      rw [(hm.frozen hc).unsubscribe_eq]
      exact ⟨rfl, rfl⟩
  rw [unsubscribe_of_faultless hm.faults_eq]
  exact ⟨rfl, rfl, hhub⟩

theorem receive (id turn : Nat) : (s.receive id turn).2.2.InMemory := by
  rw [receive_of_faultless hm.faults_eq]
  exact ⟨hm.faults_eq, fun ho => (hm.tidy ho).receive id turn,
    fun hc => (hm.frozen hc).receive id turn⟩

theorem find?_receive (id turn j : Nat) :
    (s.receive id turn).2.2.hub.find? j =
      if j = id then (s.hub.find? id).map fun t => (t.receive turn).2.2 else s.hub.find? j := by
  rw [receive_of_faultless hm.faults_eq]
  exact Hub.find?_receive id turn j

theorem receive_kept (id turn : Nat) :
    (s.receive id turn).2.2.entries = s.entries ∧ (s.receive id turn).2.2.closed = s.closed ∧
      (s.receive id turn).2.2.hub.nextId = s.hub.nextId ∧
      (s.receive id turn).2.2.hub.capacity = s.hub.capacity := by
  rw [receive_of_faultless hm.faults_eq]
  exact ⟨rfl, rfl, (s.hub.receive_counts id turn).2⟩

theorem close : s.close.InMemory where
  faults_eq := hm.faults_eq
  tidy ho := by cases ho
  frozen _ := s.hub.frozen_close

end InMemory

/-! ## Twins -/

/-- Both stores are in memory, and they are the same but for the subscriptions in `D`, and for how
many listeners are counted. -/
structure Twins (D : List Nat) (s s' : Store) : Prop where
  left : s.InMemory
  right : s'.InMemory
  entries_eq : s'.entries = s.entries
  closed_eq : s'.closed = s.closed
  nextId_eq : s'.hub.nextId = s.hub.nextId
  capacity_eq : s'.hub.capacity = s.hub.capacity
  find?_eq : ∀ id ∉ D, s'.hub.find? id = s.hub.find? id

/-- The same answer, and twins behind it. -/
structure TwinAnswers {α : Type} (D : List Nat) (r r' : α × Store) : Prop where
  answer_eq : r'.1 = r.1
  twins : r.2.Twins D r'.2

/-- The same error, or no more on the left than on the right. -/
inductive Fewer : Except StoreError Nat → Except StoreError Nat → Prop where
  | error (e : StoreError) : Fewer (.error e) (.error e)
  | ok {m n : Nat} (h : m ≤ n) : Fewer (.ok m) (.ok n)

namespace Twins

variable {D D' : List Nat} {s s' : Store}

theorem refl (hm : s.InMemory) (D : List Nat) : s.Twins D s :=
  ⟨hm, hm, rfl, rfl, rfl, rfl, fun _ _ => rfl⟩

variable (h : s.Twins D s')

include h

theorem symm : s'.Twins D s :=
  ⟨h.right, h.left, h.entries_eq.symm, h.closed_eq.symm, h.nextId_eq.symm, h.capacity_eq.symm,
    fun id hid => (h.find?_eq id hid).symm⟩

theorem mono (hD : D ⊆ D') : s.Twins D' s' :=
  { h with find?_eq := fun id hid => h.find?_eq id fun hmem => hid (hD hmem) }

theorem available_eq : s'.available = s.available := by
  rw [h.left.available_eq, h.right.available_eq, h.closed_eq]

/-! ### Entries -/

theorem withEntries (es : Entries) :
    Twins D { s with entries := es } { s' with entries := es } :=
  ⟨h.left.withEntries es, h.right.withEntries es, rfl, h.closed_eq, h.nextId_eq, h.capacity_eq,
    h.find?_eq⟩

theorem onEntries {α : Type} (f : Entries → α × Entries) :
    TwinAnswers D (s.onEntries f) (s'.onEntries f) := by
  unfold Store.onEntries
  rw [h.available_eq, h.entries_eq]
  cases s.available with
  | error e => exact ⟨rfl, h⟩
  | ok u => exact ⟨rfl, h.withEntries _⟩

theorem purge (now : Instant) : TwinAnswers D (s.purge now) (s'.purge now) := by
  unfold Store.purge
  rw [h.entries_eq]
  exact ⟨rfl, h.withEntries _⟩

/-! ### Channels -/

theorem publish (hle : s.closed = false → ∀ c, s.hub.listeners c ≤ s'.hub.listeners c)
    (channel payload : String) :
    Fewer (s.publish channel payload).1 (s'.publish channel payload).1 ∧
      (s.publish channel payload).2.Twins D (s'.publish channel payload).2 := by
  cases hc : s.closed with
  | true =>
    unfold Store.publish
    rw [h.available_eq, h.left.available_of_closed hc]
    exact ⟨.error _, h⟩
  | false =>
    have ho := h.left.available_of_open hc
    have hc' : s'.closed = false := h.closed_eq.trans hc
    rw [publish_of_available ho, publish_of_available (h.available_eq.trans ho)]
    refine ⟨.ok (hle hc channel), ?_⟩
    refine ⟨⟨h.left.faults_eq, fun _ => (h.left.tidy hc).publish channel payload, fun h => ?_⟩,
      ⟨h.right.faults_eq, fun _ => (h.right.tidy hc').publish channel payload, fun h => ?_⟩,
      h.entries_eq, h.closed_eq, h.nextId_eq, h.capacity_eq, fun id hid => ?_⟩
    · cases hc.symm.trans h
    · cases hc'.symm.trans h
    · have hheard : s'.hub.heard channel payload = s.hub.heard channel payload := by
        funext t
        unfold Hub.heard Hub.bufferSize
        rw [h.capacity_eq]
      simp only [Hub.find?_publish, h.find?_eq id hid, hheard]

/-- Both open a subscription under one id, or neither does. -/
theorem subscribe (channels : List String) :
    TwinAnswers D (s.subscribe channels) (s'.subscribe channels) := by
  cases hc : s.closed with
  | true =>
    unfold Store.subscribe
    rw [h.available_eq, h.left.available_of_closed hc]
    exact ⟨rfl, h⟩
  | false =>
    have ho := h.left.available_of_open hc
    have hc' : s'.closed = false := h.closed_eq.trans hc
    rw [subscribe_of_available ho, subscribe_of_available (h.available_eq.trans ho),
      h.left.faults_eq, h.right.faults_eq]
    refine ⟨congrArg Except.ok h.nextId_eq, ?_⟩
    refine ⟨⟨rfl, fun _ => (h.left.tidy hc).subscribe channels, fun h => ?_⟩,
      ⟨rfl, fun _ => (h.right.tidy hc').subscribe channels, fun h => ?_⟩,
      h.entries_eq, h.closed_eq, congrArg (· + 1) h.nextId_eq, h.capacity_eq, fun id hid => ?_⟩
    · cases hc.symm.trans h
    · cases hc'.symm.trans h
    · rw [(h.left.tidy hc).find?_subscribe, (h.right.tidy hc').find?_subscribe, h.nextId_eq,
        h.find?_eq id hid]

theorem feed (t : Tenant) (names : List String) :
    TwinAnswers D (Feed.subscribe t names s) (Feed.subscribe t names s') := by
  obtain ⟨hanswer, htwins⟩ := h.subscribe (t.channels names)
  unfold Feed.subscribe
  generalize s.subscribe (t.channels names) = r, s'.subscribe (t.channels names) = r'
    at hanswer htwins
  obtain ⟨a, s⟩ := r
  obtain ⟨a', s'⟩ := r'
  cases hanswer
  cases a with
  | error e => exact ⟨rfl, htwins⟩
  | ok id => exact ⟨rfl, htwins⟩

theorem close : s.close.Twins D s'.close := by
  refine ⟨h.left.close, h.right.close, h.entries_eq, rfl, h.nextId_eq, h.capacity_eq,
    fun id hid => ?_⟩
  have hfind := Hub.find?_close s'.hub id
  rw [h.find?_eq id hid] at hfind
  exact hfind.trans (Hub.find?_close s.hub id).symm

/-! ### Subscriptions -/

/-- What has to do with a subscription in `D` may happen on one side alone. -/
theorem unsubscribe_left {id : Nat} (hid : id ∈ D) : (s.unsubscribe id).Twins D s' := by
  obtain ⟨hentries, hclosed, hnext, hcapacity⟩ := h.left.unsubscribe_kept id
  refine ⟨h.left.unsubscribe id, h.right, h.entries_eq.trans hentries.symm,
    h.closed_eq.trans hclosed.symm, h.nextId_eq.trans hnext.symm,
    h.capacity_eq.trans hcapacity.symm, fun j hj => ?_⟩
  have hne : j ≠ id := fun e => hj (e ▸ hid)
  rw [h.left.find?_unsubscribe, if_neg hne, h.find?_eq j hj]

theorem receive_left {id : Nat} (hid : id ∈ D) (turn : Nat) :
    (s.receive id turn).2.2.Twins D s' := by
  obtain ⟨hentries, hclosed, hnext, hcapacity⟩ := h.left.receive_kept id turn
  refine ⟨h.left.receive id turn, h.right, h.entries_eq.trans hentries.symm,
    h.closed_eq.trans hclosed.symm, h.nextId_eq.trans hnext.symm,
    h.capacity_eq.trans hcapacity.symm, fun j hj => ?_⟩
  have hne : j ≠ id := fun e => hj (e ▸ hid)
  rw [h.left.find?_receive, if_neg hne, h.find?_eq j hj]

theorem unsubscribe (id : Nat) : (s.unsubscribe id).Twins D (s'.unsubscribe id) := by
  obtain ⟨hentries, hclosed, hnext, hcapacity⟩ := h.left.unsubscribe_kept id
  obtain ⟨hentries', hclosed', hnext', hcapacity'⟩ := h.right.unsubscribe_kept id
  refine ⟨h.left.unsubscribe id, h.right.unsubscribe id, ?_, ?_, ?_, ?_, fun j hj => ?_⟩
  · rw [hentries', h.entries_eq, hentries]
  · rw [hclosed', h.closed_eq, hclosed]
  · rw [hnext', h.nextId_eq, hnext]
  · rw [hcapacity', h.capacity_eq, hcapacity]
  · rw [h.left.find?_unsubscribe, h.right.find?_unsubscribe, h.find?_eq j hj]

theorem receive {id : Nat} (hid : id ∉ D) (turn : Nat) :
    (s'.receive id turn).1 = (s.receive id turn).1 ∧
      (s'.receive id turn).2.1 = (s.receive id turn).2.1 ∧
      (s.receive id turn).2.2.Twins D (s'.receive id turn).2.2 := by
  have hoffer : (s'.hub.receive id turn).1 = (s.hub.receive id turn).1 ∧
      (s'.hub.receive id turn).2.1 = (s.hub.receive id turn).2.1 := by
    have hfind := h.find?_eq id hid
    cases hf : s.hub.find? id with
    | none =>
      rw [Hub.receive_of_none hf, Hub.receive_of_none (hfind.trans hf)]
      exact ⟨rfl, rfl⟩
    | some t =>
      rw [Hub.receive_of_some hf, Hub.receive_of_some (hfind.trans hf)]
      exact ⟨rfl, rfl⟩
  obtain ⟨hentries, hclosed, hnext, hcapacity⟩ := h.left.receive_kept id turn
  obtain ⟨hentries', hclosed', hnext', hcapacity'⟩ := h.right.receive_kept id turn
  refine ⟨?_, ?_, h.left.receive id turn, h.right.receive id turn, ?_, ?_, ?_, ?_, fun j hj => ?_⟩
  · rw [receive_of_faultless h.left.faults_eq, receive_of_faultless h.right.faults_eq, hoffer.1]
  · rw [receive_of_faultless h.left.faults_eq, receive_of_faultless h.right.faults_eq, hoffer.2]
  · rw [hentries', h.entries_eq, hentries]
  · rw [hclosed', h.closed_eq, hclosed]
  · rw [hnext', h.nextId_eq, hnext]
  · rw [hcapacity', h.capacity_eq, hcapacity]
  · rw [h.left.find?_receive, h.right.find?_receive, h.find?_eq id hid, h.find?_eq j hj]

theorem isReady_eq {id : Nat} (hid : id ∉ D) : s'.isReady id = s.isReady id := by
  unfold isReady
  rw [line?_of_faultless h.left.faults_eq, line?_of_faultless h.right.faults_eq, h.find?_eq id hid]

theorem waiting_eq {id : Nat} (hid : id ∉ D) : s'.waiting id = s.waiting id := by
  rw [waiting_of_faultless h.left.faults_eq, waiting_of_faultless h.right.faults_eq,
    h.find?_eq id hid]

/-! ### Locks and calls -/

section Locks

variable (k : Key) (token : String) (now : Instant)

theorem acquire (ttl : Span) :
    TwinAnswers D (Lock.acquire k token now s ttl) (Lock.acquire k token now s' ttl) :=
  h.onEntries fun es => es.setIfAbsent now k.physical token (some ttl)

theorem release : TwinAnswers D (Lock.release k token now s) (Lock.release k token now s') :=
  h.onEntries fun es => es.compareAndDelete now k.physical token

theorem renew (ttl : Span) :
    TwinAnswers D (Lock.renew k token now s ttl) (Lock.renew k token now s' ttl) :=
  h.onEntries fun es => es.compareAndExpire now k.physical token ttl

end Locks

/-- All calls but a publish are answered alike. -/
theorem call (now : Instant) {c : StoreCall}
    (hc : ∀ channel payload, c ≠ .publish channel payload) :
    TwinAnswers D (s.call now c) (s'.call now c) := by
  have hanswered : ∀ {α : Type} (f : α → StoreAnswer) {r r' : Except StoreError α × Store},
      TwinAnswers D r r' → TwinAnswers D (answered f r) (answered f r') :=
    fun f _ _ hr => ⟨congrArg (Except.map f) hr.answer_eq, hr.twins⟩
  cases c with
  | get key => exact hanswered _ (h.onEntries fun es => es.get now key)
  | set key value ttl => exact hanswered _ (h.onEntries fun es => ((), es.set now key value ttl))
  | setIfAbsent key value ttl =>
    exact hanswered _ (h.onEntries fun es => es.setIfAbsent now key value ttl)
  | delete key => exact hanswered _ (h.onEntries fun es => es.delete now key)
  | compareAndDelete key expected =>
    exact hanswered _ (h.onEntries fun es => es.compareAndDelete now key expected)
  | compareAndExpire key expected ttl =>
    exact hanswered _ (h.onEntries fun es => es.compareAndExpire now key expected ttl)
  | expire key ttl => exact hanswered _ (h.onEntries fun es => es.expire now key ttl)
  | publish channel payload => exact absurd rfl (hc channel payload)
  | subscribe channels => exact hanswered _ (h.subscribe channels)
  | ping =>
    have hping : ∀ s : Store, (s.call now .ping).1 = s.available.map fun _ => .done := fun _ => rfl
    exact ⟨by rw [hping, hping, h.available_eq], h⟩

end Twins

/-! ## Later stores -/

/-- `s'` is in memory and later than `s`: it stays closed, and what is gone does not come back. -/
structure Follows (s s' : Store) : Prop where
  inMemory : s'.InMemory
  nextId_le : s.hub.nextId ≤ s'.hub.nextId
  closed_of : s.closed = true → s'.closed = true
  find?_none : ∀ id < s.hub.nextId, s.hub.find? id = none → s'.hub.find? id = none

namespace Follows

variable {s : Store}

theorem refl (hm : s.InMemory) : s.Follows s := ⟨hm, Nat.le_refl _, id, fun _ _ => id⟩

theorem trans {s' s'' : Store} (h : s.Follows s') (h' : s'.Follows s'') : s.Follows s'' where
  inMemory := h'.inMemory
  nextId_le := Nat.le_trans h.nextId_le h'.nextId_le
  closed_of hc := h'.closed_of (h.closed_of hc)
  find?_none id hid hnone :=
    h'.find?_none id (Nat.lt_of_lt_of_le hid h.nextId_le) (h.find?_none id hid hnone)

variable (hm : s.InMemory)

include hm

theorem withEntries (es : Entries) : s.Follows { s with entries := es } :=
  ⟨hm.withEntries es, Nat.le_refl _, id, fun _ _ => id⟩

theorem onEntries {α : Type} (f : Entries → α × Entries) : s.Follows (s.onEntries f).2 := by
  unfold Store.onEntries
  cases s.available with
  | error e => exact refl hm
  | ok u => exact withEntries hm _

theorem purge (now : Instant) : s.Follows (s.purge now).2 := withEntries hm _

theorem publish (channel payload : String) : s.Follows (s.publish channel payload).2 := by
  have hlater := ((Twins.refl hm []).publish (fun _ _ => Nat.le_refl _) channel payload).2.left
  unfold Store.publish at hlater ⊢
  cases ha : s.available with
  | error e => exact refl hm
  | ok u =>
    rw [ha] at hlater
    refine ⟨hlater, Nat.le_refl _, id, fun j _ hj => ?_⟩
    have hfind := s.hub.find?_publish channel payload j
    rw [hj] at hfind
    exact hfind

/-- A subscription is opened under the next id, or refused without a trace. -/
theorem subscribe_cases (channels : List String) :
    (∃ s', s.subscribe channels = (.ok s.hub.nextId, s') ∧ s.Follows s' ∧
      s'.hub.nextId = s.hub.nextId + 1) ∨
    s.subscribe channels = (.error .closed, s) := by
  have hlater := ((Twins.refl hm []).subscribe channels).twins.left
  cases hc : s.closed with
  | true =>
    refine .inr ?_
    unfold Store.subscribe
    rw [hm.available_of_closed hc]
  | false =>
    rw [subscribe_of_available (hm.available_of_open hc)] at hlater ⊢
    refine .inl ⟨_, rfl, ⟨hlater, Nat.le_succ _, id, fun j hj hnone => ?_⟩, rfl⟩
    exact ((hm.tidy hc).find?_subscribe channels j).trans ((if_neg (by omega)).trans hnone)

theorem subscribe (channels : List String) : s.Follows (s.subscribe channels).2 := by
  rcases subscribe_cases hm channels with ⟨s', heq, hlater, -⟩ | heq
  · rw [heq]
    exact hlater
  · rw [heq]
    exact refl hm

theorem feed_cases (t : Tenant) (names : List String) :
    (∃ s', Feed.subscribe t names s = (.ok ⟨t, t.channels names, s.hub.nextId⟩, s') ∧
      s.Follows s' ∧ s'.hub.nextId = s.hub.nextId + 1) ∨
    Feed.subscribe t names s = (.error .closed, s) := by
  unfold Feed.subscribe
  rcases subscribe_cases hm (t.channels names) with ⟨s', heq, hlater, hnext⟩ | heq
  · rw [heq]
    exact .inl ⟨s', rfl, hlater, hnext⟩
  · rw [heq]
    exact .inr rfl

theorem unsubscribe (id : Nat) : s.Follows (s.unsubscribe id) := by
  obtain ⟨-, hclosed, hnext, -⟩ := hm.unsubscribe_kept id
  refine ⟨hm.unsubscribe id, Nat.le_of_eq hnext.symm, fun hc => hclosed.trans hc, fun j _ hj => ?_⟩
  rw [hm.find?_unsubscribe, hj]
  split <;> rfl

theorem receive (id turn : Nat) : s.Follows (s.receive id turn).2.2 := by
  obtain ⟨-, hclosed, hnext, -⟩ := hm.receive_kept id turn
  refine ⟨hm.receive id turn, Nat.le_of_eq hnext.symm, fun hc => hclosed.trans hc, fun j _ hj => ?_⟩
  rw [hm.find?_receive]
  split
  · rename_i hid
    rw [← hid, hj]
    rfl
  · exact hj

theorem close : s.Follows s.close := by
  refine ⟨hm.close, Nat.le_refl _, fun _ => rfl, fun j _ hj => ?_⟩
  have hfind := s.hub.find?_close j
  rw [hj] at hfind
  exact hfind

theorem call (now : Instant) (c : StoreCall) : s.Follows (s.call now c).2 := by
  cases c with
  | get key => exact onEntries hm fun es => es.get now key
  | set key value ttl => exact onEntries hm fun es => ((), es.set now key value ttl)
  | setIfAbsent key value ttl => exact onEntries hm fun es => es.setIfAbsent now key value ttl
  | delete key => exact onEntries hm fun es => es.delete now key
  | compareAndDelete key expected =>
    exact onEntries hm fun es => es.compareAndDelete now key expected
  | compareAndExpire key expected ttl =>
    exact onEntries hm fun es => es.compareAndExpire now key expected ttl
  | expire key ttl => exact onEntries hm fun es => es.expire now key ttl
  | publish channel payload => exact publish hm channel payload
  | subscribe channels => exact subscribe hm channels
  | ping => exact refl hm

end Follows

end Store

end Tenancy
