import Tenancy.Proofs.Service.Read

/-!
# Steps of a session

A session is what tenants do through the gateway and with their relays, while time passes and the
store is swept. Every step of it keeps the service orderly, is not seen by other tenants, and is
answered by what its own tenant sees.
-/

namespace Tenancy

namespace Step

/-- Who does a step: the tenant of a call, or the tenant whose handle is used. -/
def actor? (owner : Nat → Tenant) : Step → Option Tenant
  | .call t _ _ => some t
  | .read handle _ | .cancel handle | .leave handle | .hangUp handle | .outcome handle =>
    some (owner handle)
  | _ => none

/-- The steps of a session. A relay is opened under a handle of its tenant. -/
def InSession (owner : Nat → Tenant) : Step → Prop
  | .call t (.subscribe _) given => owner given.handle = t
  | .call .. | .read .. | .cancel _ | .leave _ | .hangUp _ | .outcome _ | .advance _ | .sweep => True
  | _ => False

end Step

namespace Service

variable {owner : Nat → Tenant} {s s' : Service} {a : Tenant} {x : Step}

/-! ## Time -/

/-- Time ends the same entries wherever a tenant sees the same ones. -/
theorem view_advance (s : Service) (a : Tenant) (d : Span) :
    (s.act (.advance d)).2.view a =
      { s.view a with
        clock := s.clock.advance d
        entries := fun k => ((s.view a).entries k).bind (Entries.ifLive (s.clock.advance d).now) } := by
  have hle : s.clock.now ≤ (s.clock.advance d).now := Nat.le_add_right s.clock.now.ns d.ns
  exact View.ext rfl rfl rfl (funext fun k => Entries.live?_later hle (a.isolate k)) rfl rfl rfl

theorem view_sweep (hs : s.Sound) (a : Tenant) : (s.act .sweep).2.view a = s.view a :=
  View.ext rfl rfl rfl (funext fun k => Entries.live?_purge hs.plain.distinct (a.isolate k)) rfl rfl
    rfl

/-! ## Callers of relays -/

theorem blind_cancel : Blind fun t => { t with relay := { t.relay with cancelled := true } } :=
  blind_relay (f := fun r => { r with cancelled := true }) (fun _ => rfl) (fun _ => rfl)
    fun _ => rfl

theorem blind_leave :
    Blind fun t => { t with relay := { t.relay with mailbox := t.relay.mailbox.drop } } :=
  blind_relay (f := fun r => { r with mailbox := r.mailbox.drop }) (fun _ => rfl) (fun _ => rfl)
    fun _ => rfl

theorem blind_hangUp :
    Blind fun t => { t with
      relay := { t.relay with mailbox := t.relay.mailbox.drop, cancelled := true } } :=
  blind_relay (f := fun r => { r with mailbox := r.mailbox.drop, cancelled := true })
    (fun _ => rfl) (fun _ => rfl) fun _ => rfl

theorem blind_report : Blind fun t => { t with isReported := true } where
  handle_eq _ := rfl
  tenant_eq _ := rfl
  source_eq _ := rfl
  seen_eq _ _ := rfl

/-- What is told of an outcome, and whether it is told for the first time. -/
def told (t : Option RelayTask) : Answer × Bool :=
  match t with
  | none => (.told, false)
  | some t =>
    if t.isReported then (.told, false)
    else match t.relay.outcome? with
      | none => (.running, false)
      | some o => (.ended o, true)

theorem act_outcome (s : Service) (handle : Nat) :
    s.act (.outcome handle) =
      ((told (s.task? handle)).1,
        if (told (s.task? handle)).2 then s.mapTask handle fun t => { t with isReported := true }
        else s) := by
  rw [Service.act]
  unfold told
  cases s.task? handle with
  | none => rfl
  | some t =>
    by_cases hr : t.isReported = true
    · simp [hr]
    · cases ho : t.relay.outcome? <;> simp [hr, ho]

theorem told_congr {handle : Nat} (ho : s.Orderly owner a) (ho' : s'.Orderly owner a)
    (hv : s.view a = s'.view a) (hh : owner handle = a) :
    told (s.task? handle) = told (s'.task? handle) := by
  have htask := task_eq_of_seen (fun t => told (some t)) (fun _ _ => rfl)
    (task?_congr ho ho' hv hh)
  cases ht : s.task? handle with
  | none =>
    rw [ht] at htask
    rw [Option.map_eq_none_iff.1 htask.symm]
  | some t =>
    rw [ht, Option.map_some] at htask
    obtain ⟨t', ht', heq⟩ := Option.map_eq_some_iff.1 htask.symm
    rw [ht', heq]

theorem hasReader_congr {handle : Nat} (ho : s.Orderly owner a) (ho' : s'.Orderly owner a)
    (hv : s.view a = s'.view a) (hh : owner handle = a) :
    s.hasReader handle = s'.hasReader handle := by
  unfold hasReader
  rw [relay?_congr (·.mailbox.isOpen) (fun _ => rfl) ho ho' hv hh]

/-! ## Steps -/

/-- Every step of a session keeps the service orderly. -/
theorem Orderly.act (ho : s.Orderly owner a) (hx : x.InSession owner)
    (hapart : a.ApartFrom (x.actor? owner)) :
    (s.act x).2.Orderly owner a := by
  cases x with
  | advance d => exact ⟨⟨ho.sound.plain, ho.sound.sources_nodup, ho.sound.sources_lt⟩, ho.unswept,
      ho.owner_eq, ho.apart, ho.within⟩
  | sweep => exact ho.withEntries ho.sound.plain.distinct.purge
  | call t r given =>
    refine ho.call (hapart t rfl) fun names hr => ?_
    subst hr
    exact hx
  | read handle limit =>
    rw [Service.act]
    split
    · exact ho.readIn
    · exact ho
  | cancel handle => exact ho.mapTask blind_cancel handle
  | leave handle => exact ho.mapTask blind_leave handle
  | hangUp handle => exact ho.mapTask blind_hangUp handle
  | outcome handle =>
    rw [act_outcome]
    split
    · exact ho.mapTask blind_report handle
    · exact ho
  | _ => exact absurd hx id

/-- What others do is not seen; what they read is not where no own relay can move. -/
theorem Orderly.view_act_other (ho : s.Orderly owner a) {b : Tenant}
    (hb : x.actor? owner = some b) (hne : b ≠ a) (hapart : a.Apart b)
    (hr : ∀ handle limit, x = .read handle limit → (s.view a).Rests) :
    (s.act x).2.view a = s.view a := by
  cases x with
  | call t r given =>
    cases hb
    exact ho.view_call_other hne hapart r given
  | read handle limit =>
    cases hb
    rw [Service.act]
    split
    · exact view_readIn_other hne limit ho (hr handle limit rfl)
    · rfl
  | cancel handle =>
    cases hb
    exact ho.view_mapTask_other blind_cancel hne
  | leave handle =>
    cases hb
    exact ho.view_mapTask_other blind_leave hne
  | hangUp handle =>
    cases hb
    exact ho.view_mapTask_other blind_hangUp hne
  | outcome handle =>
    cases hb
    rw [act_outcome]
    split
    · exact ho.view_mapTask_other blind_report hne
    · rfl
  | _ => cases hb

/-- What a tenant sees decides what it sees after a step that is its own or nobody's, and what its
own steps are answered. -/
theorem act_congr (ho : s.Orderly owner a) (ho' : s'.Orderly owner a) (hv : s.view a = s'.view a)
    (hx : x.InSession owner) (hactor : ∀ b, x.actor? owner = some b → b = a) :
    (s.act x).2.view a = (s'.act x).2.view a ∧
      (x.actor? owner = some a → (s.act x).1 = (s'.act x).1) := by
  cases x with
  | advance d =>
    have hclock : s.clock = s'.clock := congrArg View.clock hv
    refine ⟨?_, fun h => by cases h⟩
    rw [view_advance, view_advance, hv, hclock]
  | sweep =>
    refine ⟨?_, fun h => by cases h⟩
    rw [view_sweep ho.sound, view_sweep ho'.sound, hv]
  | call t r given =>
    cases hactor t rfl
    obtain ⟨hans, hview⟩ := call_congr ho.sound ho'.sound hv r given
    exact ⟨hview, fun _ => hans⟩
  | read handle limit =>
    have hh := hactor (owner handle) rfl
    rw [Service.act, Service.act, hasReader_congr ho ho' hv hh, readable_congr ho ho' hv hh]
    split
    · obtain ⟨hitems, hended, hview⟩ :=
        readIn_congr hh (s'.readable handle + 1) limit ho ho' hv
      exact ⟨hview, fun _ => congrArg₂ Answer.read hitems hended⟩
    · exact ⟨hv, fun _ => rfl⟩
  | cancel handle => exact ⟨mapTask_congr blind_cancel hv handle, fun _ => rfl⟩
  | leave handle =>
    have hh := hactor (owner handle) rfl
    refine ⟨mapTask_congr blind_leave hv handle, fun _ => ?_⟩
    exact congrArg Answer.flag (hasReader_congr ho ho' hv hh)
  | hangUp handle => exact ⟨mapTask_congr blind_hangUp hv handle, fun _ => rfl⟩
  | outcome handle =>
    have hh := hactor (owner handle) rfl
    rw [act_outcome, act_outcome, told_congr ho ho' hv hh]
    refine ⟨?_, fun _ => rfl⟩
    split
    · exact mapTask_congr blind_report hv handle
    · exact hv
  | _ => exact absurd hx id

end Service

end Tenancy
