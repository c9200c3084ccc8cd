import Tenancy.Proofs.Relay.Stop
import Tenancy.Proofs.Service.Turn

/-!
# Relays in the hands of callers

Between two of its moves a relay is in the hands of its caller (`RelayTask.Handled`): it stands where
it stood, and what was put into its mailbox only gets less. What a caller does is a function of that
relay alone (`Service.pick_eq`, `Service.outcome_eq`).
-/

namespace Tenancy

/-! ## In the hands of callers -/

/-- A later state of a relay that did not move in between. -/
structure RelayTask.Handled (t t' : RelayTask) : Prop where
  handle : t'.handle = t.handle
  ofGateway : t'.ofGateway = t.ofGateway
  source : t'.relay.source = t.relay.source
  channels : t'.relay.channels = t.relay.channels
  phase : t'.relay.phase = t.relay.phase
  /-- Nobody takes a cancel back. -/
  cancelled : t.relay.cancelled = true → t'.relay.cancelled = true
  /-- Nobody comes back. -/
  left : t.relay.mailbox.isOpen = false → t'.relay.mailbox.isOpen = false
  items : t'.relay.mailbox.items.Sublist t.relay.mailbox.items

namespace RelayTask

/-- A relay whose caller has taken an item, if there is one. -/
def taken (t : RelayTask) : RelayTask :=
  if t.relay.mailbox.isOpen then
    { t with relay := { t.relay with
        mailbox := (t.relay.mailbox.take?.map (·.2)).getD t.relay.mailbox } }
  else t

/-- A relay whose outcome was asked for. -/
def reported (t : RelayTask) : RelayTask :=
  if (Service.told (some t)).2 then { t with isReported := true } else t

namespace Handled

variable {t t' : RelayTask}

theorem refl (t : RelayTask) : t.Handled t :=
  ⟨rfl, rfl, rfl, rfl, rfl, id, id, .refl _⟩

/-- The callers of some relays act. -/
theorem ite {p : RelayTask → Prop} [DecidablePred p] {f : RelayTask → RelayTask}
    (hf : ∀ t : RelayTask, t.Handled (f t)) (t : RelayTask) :
    t.Handled (if p t then f t else t) := by
  split
  · exact hf t
  · exact .refl t

theorem cancel (t : RelayTask) :
    t.Handled { t with relay := { t.relay with cancelled := true } } :=
  ⟨rfl, rfl, rfl, rfl, rfl, fun _ => rfl, id, .refl _⟩

theorem leave (t : RelayTask) :
    t.Handled { t with relay := { t.relay with mailbox := t.relay.mailbox.drop } } :=
  ⟨rfl, rfl, rfl, rfl, rfl, id, fun _ => rfl, List.nil_sublist _⟩

theorem hangUp (t : RelayTask) :
    t.Handled { t with
      relay := { t.relay with mailbox := t.relay.mailbox.drop, cancelled := true } } :=
  ⟨rfl, rfl, rfl, rfl, rfl, fun _ => rfl, fun _ => rfl, List.nil_sublist _⟩

/-- The first item of the mailbox is taken out, if there is one. -/
theorem withoutFirst (t : RelayTask) :
    t.Handled { t with relay := { t.relay with
      mailbox := (t.relay.mailbox.take?.map (·.2)).getD t.relay.mailbox } } := by
  unfold Mailbox.take?
  split
  · exact .refl t
  · rename_i item rest hitems
    refine ⟨rfl, rfl, rfl, rfl, rfl, id, id, ?_⟩
    rw [hitems]
    exact List.sublist_cons_self item rest

theorem taken (t : RelayTask) : t.Handled t.taken := by
  unfold RelayTask.taken
  split
  · exact .withoutFirst t
  · exact .refl t

theorem reported (t : RelayTask) : t.Handled t.reported := by
  unfold RelayTask.reported
  split
  · exact ⟨rfl, rfl, rfl, rfl, rfl, id, id, .refl _⟩
  · exact .refl t

theorem isEnded_eq (h : t.Handled t') : t'.relay.isEnded = t.relay.isEnded :=
  Relay.isEnded_congr h.phase

/-- A relay that is interrupted stays so. -/
theorem interrupted (h : t.Handled t') (ht : t.relay.interruption?.isSome = true) :
    t'.relay.interruption?.isSome = true := by
  rw [Relay.isSome_interruption?, Bool.or_eq_true_iff, Bool.not_eq_true'] at ht ⊢
  exact ht.imp h.cancelled h.left

end Handled

end RelayTask

namespace Service

variable {s : Service} {handle : Nat}

/-! ## Relays by handle -/

theorem task?_eq_none_iff :
    s.task? handle = none ↔ ∀ t ∈ s.relays, t.handle ≠ handle := by
  simp [task?, List.find?_eq_none]

theorem task?_mem {t : RelayTask} (ht : s.task? handle = some t) :
    t ∈ s.relays ∧ t.handle = handle := by
  have hhandle := List.find?_some ht
  exact ⟨List.mem_of_find?_eq_some ht, of_decide_eq_true hhandle⟩

/-- Where every relay has its own handle, each is found by it. -/
theorem task?_of_mem (hn : (s.relays.map (·.handle)).Nodup) {t : RelayTask} (ht : t ∈ s.relays) :
    s.task? t.handle = some t := by
  cases hu : s.task? t.handle with
  | none => exact absurd rfl (task?_eq_none_iff.1 hu t ht)
  | some u =>
    obtain ⟨hmem, hhandle⟩ := task?_mem hu
    rw [List.inj_on_of_nodup_map hn hmem ht hhandle]

/-! ## Callers -/

/-- What the caller of a relay is told that takes an item. -/
def offered (t : Option RelayTask) : Answer :=
  match t with
  | none => .gone
  | some t =>
    if t.relay.mailbox.isOpen then
      match t.relay.mailbox.take? with
      | some x => .read [x.1] false
      | none => .read [] t.relay.isEnded
    else .gone

/-- Where every relay has its own handle, only the one that is found is changed. -/
theorem map_task? (hn : (s.relays.map (·.handle)).Nodup) {t : RelayTask}
    (ht : s.task? handle = some t) {f g : RelayTask → RelayTask} (hfg : f t = g t) :
    s.relays.map (fun u => if u.handle = handle then f u else u) =
      s.relays.map fun u => if u.handle = handle then g u else u := by
  obtain ⟨hmem, hhandle⟩ := task?_mem ht
  refine List.map_congr_left fun u hu => ?_
  by_cases hh : u.handle = handle
  · have hut : u = t := List.inj_on_of_nodup_map hn hu hmem (hh.trans hhandle.symm)
    rw [if_pos hh, if_pos hh, hut, hfg]
  · rw [if_neg hh, if_neg hh]

theorem map_of_none (ht : s.task? handle = none) (f : RelayTask → RelayTask) :
    s.relays.map (fun u => if u.handle = handle then f u else u) = s.relays :=
  map_eq_self fun u hu => if_neg (task?_eq_none_iff.1 ht u hu)

/-- Where only one relay has the handle and is left as it is, nothing happens. -/
theorem map_of_fixed (hn : (s.relays.map (·.handle)).Nodup) {t : RelayTask}
    (ht : s.task? handle = some t) {f : RelayTask → RelayTask} (hf : f t = t) :
    s.relays.map (fun u => if u.handle = handle then f u else u) = s.relays := by
  rw [map_task? hn ht (g := id) hf]
  refine map_eq_self fun u _ => ?_
  split <;> rfl

theorem pick_eq (hn : (s.relays.map (·.handle)).Nodup) (handle : Nat) :
    s.pick handle = (offered (s.task? handle),
      { s with relays := s.relays.map fun t => if t.handle = handle then t.taken else t }) := by
  unfold pick hasReader picked? relay? offered
  cases ht : s.task? handle with
  | none =>
    rw [map_of_none ht]
    rfl
  | some t =>
    cases hopen : t.relay.mailbox.isOpen with
    | false =>
      have hfixed : t.taken = t := by
        unfold RelayTask.taken
        rw [hopen]
        rfl
      rw [map_of_fixed hn ht hfixed]
      simp [hopen]
    | true =>
      cases htake : t.relay.mailbox.take? with
      | none =>
        have hfixed : t.taken = t := by
          unfold RelayTask.taken
          rw [hopen, htake]
          rfl
        rw [map_of_fixed hn ht hfixed]
        simp [hopen, htake]
      | some x =>
        have htaken : t.taken = { t with relay := { t.relay with mailbox := x.2 } } := by
          unfold RelayTask.taken
          rw [hopen, htake]
          rfl
        have hrelays := map_task? hn ht (f := RelayTask.taken)
          (g := fun t => { t with relay := { t.relay with mailbox := x.2 } }) htaken
        rw [hrelays]
        simp [hopen, htake, mapRelay, mapTask]

theorem outcome_eq (hn : (s.relays.map (·.handle)).Nodup) (handle : Nat) :
    s.act (.outcome handle) = ((told (s.task? handle)).1,
      { s with relays := s.relays.map fun t => if t.handle = handle then t.reported else t }) := by
  rw [act_outcome]
  cases ht : s.task? handle with
  | none =>
    rw [map_of_none ht]
    rfl
  | some t =>
    cases hfirst : (told (some t)).2 with
    | false =>
      have hfixed : t.reported = t := by
        unfold RelayTask.reported
        rw [hfirst]
        rfl
      rw [map_of_fixed hn ht hfixed]
      rfl
    | true =>
      have hreported : t.reported = { t with isReported := true } := by
        unfold RelayTask.reported
        rw [hfirst]
        rfl
      have hrelays := map_task? hn ht (f := RelayTask.reported)
        (g := fun t => { t with isReported := true }) hreported
      rw [hrelays]
      rfl

end Service

end Tenancy
