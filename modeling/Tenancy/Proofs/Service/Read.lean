import Tenancy.Proofs.Service.Handle
import Tenancy.Service.Turn

/-!
# Readers, as tenants see them

The caller of a relay takes items one by one, and after each the service comes to rest again. Where
the relays of a tenant rest, what others read makes none of them move. Draining a subscription of
the store is asking it again and again (`Service.drainIn_rel`).
-/

namespace Tenancy

theorem View.Settles.rests {a : Tenant} {v w : View} (h : Settles a v w) : w.Rests := by
  induction h with
  | rest hr => exact hr
  | move _ _ _ _ ih => exact ih

namespace Service

variable {owner : Nat → Tenant} {s s' : Service} {a : Tenant} {handle : Nat}

/-! ## Settling -/

theorem settle_congr (ho : s.Orderly owner a) (ho' : s'.Orderly owner a)
    (hv : s.view a = s'.view a) : s.settle.view a = s'.settle.view a := by
  have hsettles := ho.settle.2
  rw [hv] at hsettles
  exact hsettles.unique ho'.settle.2

/-- Where the relays of a tenant rest, settling is nothing that it sees. -/
theorem Orderly.view_settle (ho : s.Orderly owner a) (hr : (s.view a).Rests) :
    s.settle.view a = s.view a :=
  ho.settle.2.eq_of_rests hr

/-! ## Taking an item -/

theorem take?_eq (s : Service) (handle : Nat) :
    s.take? handle = (s.picked? handle).map fun x => (x.1, x.2.settle) := by
  unfold take? picked?
  cases s.relay? handle with
  | none => rfl
  | some r => cases hm : r.mailbox.take? <;> simp [hm]

theorem blind_mailbox (mailbox : Mailbox) :
    Blind fun t => { t with relay := { t.relay with mailbox } } :=
  blind_relay (f := fun r => { r with mailbox }) (fun _ => rfl) (fun _ => rfl) fun _ => rfl

theorem Orderly.picked? (ho : s.Orderly owner a) {x : RelayItem} {s₁ : Service}
    (h : s.picked? handle = some (x, s₁)) : s₁.Orderly owner a := by
  obtain ⟨y, -, hy⟩ := Option.map_eq_some_iff.1 h
  cases hy
  exact ho.mapTask (blind_mailbox y.2) handle

theorem Orderly.view_picked?_other (ho : s.Orderly owner a) (hh : owner handle ≠ a)
    {x : RelayItem} {s₁ : Service} (h : s.picked? handle = some (x, s₁)) :
    s₁.view a = s.view a := by
  obtain ⟨y, -, hy⟩ := Option.map_eq_some_iff.1 h
  cases hy
  exact ho.view_mapTask_other (blind_mailbox y.2) hh

theorem relay?_congr {α : Type} (f : Relay → α) (hf : ∀ r, f r.faceless = f r)
    (ho : s.Orderly owner a) (ho' : s'.Orderly owner a) (hv : s.view a = s'.view a)
    (hh : owner handle = a) : (s.relay? handle).map f = (s'.relay? handle).map f := by
  have htask := task_eq_of_seen (fun t => f t.relay) (fun t _ => hf t.relay)
    (task?_congr ho ho' hv hh)
  unfold relay?
  rw [Option.map_map, Option.map_map]
  exact htask

theorem picked?_congr (ho : s.Orderly owner a) (ho' : s'.Orderly owner a)
    (hv : s.view a = s'.view a) (hh : owner handle = a) :
    (s.picked? handle).map (fun x => (x.1, x.2.view a)) =
      (s'.picked? handle).map fun x => (x.1, x.2.view a) := by
  have hmailbox := relay?_congr (·.mailbox) (fun _ => rfl) ho ho' hv hh
  have htake : (s.relay? handle).bind (·.mailbox.take?) =
      (s'.relay? handle).bind (·.mailbox.take?) := by
    have hbind := congrArg (Option.bind · Mailbox.take?) hmailbox
    simpa only [Option.bind_map, Function.comp_def] using hbind
  unfold picked?
  rw [htake, Option.map_map, Option.map_map]
  refine Option.map_congr fun y _ => ?_
  simp only [Function.comp, mapRelay, mapTask_congr (blind_mailbox y.2) hv handle]

/-! ## Reading -/

/-- Reading keeps what picking an item keeps and coming to rest too. -/
theorem readIn_keeps {p : Service → Prop}
    (hpick : ∀ {s s' : Service} {x : RelayItem}, p s → s.picked? handle = some (x, s') → p s')
    (hsettle : ∀ {s : Service}, p s → p s.settle) (fuel : Nat) :
    ∀ {s : Service} (limit : Option Nat), p s → p (readIn handle fuel limit s).2.2 := by
  induction fuel with
  | zero => exact fun _ h => h
  | succ fuel ih =>
    intro s limit h
    rw [Service.readIn]
    split
    · exact h
    · rw [take?_eq]
      cases hx : s.picked? handle with
      | none => exact h
      | some x => exact ih _ (hsettle (hpick h hx))

theorem Orderly.readIn (ho : s.Orderly owner a) {fuel : Nat} {limit : Option Nat} :
    (readIn handle fuel limit s).2.2.Orderly owner a :=
  readIn_keeps (p := Orderly owner a) (fun ho => ho.picked?) (fun ho => ho.settle.1) fuel limit ho

theorem Orderly.view_readIn_other (hh : owner handle ≠ a) {fuel : Nat} :
    ∀ {s : Service} (limit : Option Nat), s.Orderly owner a → (s.view a).Rests →
      (Service.readIn handle fuel limit s).2.2.view a = s.view a := by
  induction fuel with
  | zero => exact fun _ _ _ => rfl
  | succ fuel ih =>
    intro s limit ho hr
    rw [Service.readIn]
    split
    · rfl
    · rw [take?_eq]
      cases hp : s.picked? handle with
      | none => rfl
      | some x =>
        have ho₁ := ho.picked? hp
        have hview := ho.view_picked?_other hh hp
        have hsettled := ho₁.view_settle (hview ▸ hr)
        have hr₁ : (x.2.settle.view a).Rests := by
          rw [hsettled, hview]
          exact hr
        have hread := ih (limit.map (· - 1)) ho₁.settle.1 hr₁
        exact hread.trans (hsettled.trans hview)

theorem readIn_congr (hh : owner handle = a) (fuel : Nat) :
    ∀ {s s' : Service} (limit : Option Nat), s.Orderly owner a → s'.Orderly owner a →
      s.view a = s'.view a →
      (readIn handle fuel limit s).1 = (readIn handle fuel limit s').1 ∧
        (readIn handle fuel limit s).2.1 = (readIn handle fuel limit s').2.1 ∧
        (readIn handle fuel limit s).2.2.view a = (readIn handle fuel limit s').2.2.view a := by
  induction fuel with
  | zero => exact fun _ _ _ hv => ⟨rfl, rfl, hv⟩
  | succ fuel ih =>
    intro s s' limit ho ho' hv
    rw [Service.readIn, Service.readIn]
    split
    · exact ⟨rfl, rfl, hv⟩
    · have hpick := picked?_congr ho ho' hv hh
      rw [take?_eq, take?_eq]
      cases hp : s.picked? handle with
      | none =>
        have hp' : s'.picked? handle = none := by
          rw [hp] at hpick
          exact Option.map_eq_none_iff.1 hpick.symm
        have hended := relay?_congr (·.isEnded) (fun _ => rfl) ho ho' hv hh
        rw [hp']
        simp only [Option.map_none, hended]
        exact ⟨trivial, trivial, hv⟩
      | some x =>
        rw [hp, Option.map_some] at hpick
        obtain ⟨x', hp', hx'⟩ := Option.map_eq_some_iff.1 hpick.symm
        obtain ⟨hitem, hview⟩ := Prod.mk.inj hx'
        have ho₁ := ho.picked? hp
        have ho₁' := ho'.picked? hp'
        have hread := ih (limit.map (· - 1)) ho₁.settle.1 ho₁'.settle.1
          (settle_congr ho₁ ho₁' hview.symm)
        rw [hp']
        simp only [Option.map_some, hitem, hread.1, hread.2.1, hread.2.2]
        exact ⟨trivial, trivial, trivial⟩

/-- What a relay has to do with before it rests is seen. -/
theorem reach_seen (hp : s.store.Plain) (r : Relay) :
    r.reach s.store =
      3 * (((r.seen s.store.hub).boxes.map fun bs => (Subscription.mk 0 bs).waiting).getD 0) +
        (r.seen s.store.hub).relay.weight := by
  have hweight : (r.seen s.store.hub).relay.weight = r.weight := rfl
  unfold Relay.reach
  rw [hweight]
  cases hid : r.source with
  | none =>
    unfold Relay.seen
    rw [hid]
    rfl
  | some id =>
    unfold Relay.seen
    rw [hid, Option.map_some, Option.getD_some, hp.waiting_eq, Option.bind_some, Option.map_map]
    rfl

theorem readable_congr (ho : s.Orderly owner a) (ho' : s'.Orderly owner a)
    (hv : s.view a = s'.view a) (hh : owner handle = a) :
    s.readable handle = s'.readable handle := by
  have htask := task?_congr ho ho' hv hh
  have hreadable : ∀ s : Service, s.store.Plain →
      s.readable handle = (((s.task? handle).map (·.seen s.store.hub)).map fun v =>
        v.task.relay.mailbox.items.length +
          (3 * ((v.boxes.map fun bs => (Subscription.mk 0 bs).waiting).getD 0) +
            v.task.relay.weight)).getD 0 := by
    intro s hp
    unfold readable relay?
    cases s.task? handle with
    | none => rfl
    | some t =>
      simp only [Option.map_some, Option.getD_some, reach_seen hp]
      rfl
  rw [hreadable s ho.sound.plain, hreadable s' ho'.sound.plain, htask]

/-! ## Taking from a subscription -/

/-- What holds of two services after both were asked in the same way, with the same answer, holds of
them after both were drained, with the same items. -/
theorem drainIn_rel {R : Service → Service → Prop} (id : Nat)
    (hask : ∀ {s s' : Service} (left : Nat), R s s' →
      (s'.ask id left).1 = (s.ask id left).1 ∧ (s'.ask id left).2.1 = (s.ask id left).2.1 ∧
        R (s.ask id left).2.2 (s'.ask id left).2.2) (fuel : Nat) :
    ∀ {s s' : Service} (left : Nat) (limit : Option Nat), R s s' →
      (drainIn id fuel left limit s').1 = (drainIn id fuel left limit s).1 ∧
        (drainIn id fuel left limit s').2.1 = (drainIn id fuel left limit s).2.1 ∧
          R (drainIn id fuel left limit s).2.2 (drainIn id fuel left limit s').2.2 := by
  have hlook : ∀ {s s' : Service} (left : Nat), R s s' →
      (s'.look id left).1 = (s.look id left).1 ∧ (s'.look id left).2.1 = (s.look id left).2.1 ∧
        R (s.look id left).2.2 (s'.look id left).2.2 := by
    intro s s' left h
    obtain ⟨harrival, hleft, hrel⟩ := hask left h
    unfold look
    generalize s.ask id left = r, s'.ask id left = r' at harrival hleft hrel
    obtain ⟨a, n, s⟩ := r
    obtain ⟨a', n', s'⟩ := r'
    cases harrival
    cases hleft
    cases a with
    | nothing => exact hask stint hrel
    | message m => exact ⟨rfl, rfl, hrel⟩
    | failure e => exact ⟨rfl, rfl, hrel⟩
    | ended => exact ⟨rfl, rfl, hrel⟩
  induction fuel with
  | zero => exact fun _ _ h => ⟨rfl, rfl, h⟩
  | succ fuel ih =>
    intro s s' left limit h
    obtain ⟨harrival, hleft, hrel⟩ := hlook left h
    rw [drainIn, drainIn]
    split
    · exact ⟨rfl, rfl, h⟩
    · generalize s.look id left = r, s'.look id left = r' at harrival hleft hrel
      obtain ⟨a, n, s⟩ := r
      obtain ⟨a', n', s'⟩ := r'
      cases harrival
      cases hleft
      cases a with
      | message m =>
        obtain ⟨hitems, hended, hrel⟩ := ih n (limit.map (· - 1)) hrel
        exact ⟨congrArg (.ok m :: ·) hitems, hended, hrel⟩
      | failure e =>
        obtain ⟨hitems, hended, hrel⟩ := ih n (limit.map (· - 1)) hrel
        exact ⟨congrArg (.error e :: ·) hitems, hended, hrel⟩
      | nothing => exact ⟨rfl, rfl, hrel⟩
      | ended => exact ⟨rfl, rfl, hrel⟩

/-- What asking a subscription keeps, draining it keeps too. -/
theorem drainIn_keeps {p : Service → Prop} (id : Nat)
    (hask : ∀ {s : Service} (left : Nat), p s → p (s.ask id left).2.2) (fuel left : Nat)
    (limit : Option Nat) {s : Service} (h : p s) : p (drainIn id fuel left limit s).2.2 :=
  (drainIn_rel (R := fun s s' => s = s' ∧ p s) id
    (fun left h => ⟨by rw [h.1], by rw [h.1], by rw [h.1], hask left h.2⟩) fuel left limit
    ⟨rfl, h⟩).2.2.2

end Service

end Tenancy
