import Tenancy.Proofs.Service.Turn

/-!
# Isolation of tenants

A tenant cannot tell whether others are there. Two services that look the same to it answer it
alike and go on looking the same, and what others do changes nothing of what it sees; so its answers
in a run are those in the run without the steps of others (`tenants_isolated`). This is unwinding
(`unwind`), for the runs of the service, where relays go on until they rest after each step, and for
runs in which every move is a turn of its own.
-/

namespace Tenancy

deriving instance DecidableEq for Answer

/-! ## Runs -/

/-- The answers of a run, and the state at its end. -/
def runOf {σ ε α : Type} (step : σ → ε → α × σ) : σ → List ε → List α × σ
  | s, [] => ([], s)
  | s, x :: xs => ((step s x).1 :: (runOf step (step s x).2 xs).1, (runOf step (step s x).2 xs).2)

/-- The answers to the steps of interest. -/
def answersTo {ε α : Type} (own : ε → Bool) (xs : List ε) (as : List α) : List α :=
  ((xs.zip as).filter fun y => own y.1).map (·.2)

section Unwinding

variable {σ ε α : Type} {step : σ → ε → α × σ} {own kept : ε → Bool}

theorem answersTo_cons_runOf (s : σ) (x : ε) (xs : List ε) :
    answersTo own (x :: xs) (runOf step s (x :: xs)).1 =
      if own x then (step s x).1 :: answersTo own xs (runOf step (step s x).2 xs).1
      else answersTo own xs (runOf step (step s x).2 xs).1 := by
  unfold answersTo
  rw [runOf, List.zip_cons_cons, List.filter_cons]
  split <;> rfl

/-- Unwinding. Related states answer the steps of interest alike; steps that are kept keep them
related when both take them, and dropped ones when only the first does. Then dropping steps from a
run changes no answer of interest. -/
theorem unwind {R : σ → σ → Prop} {good : ε → Prop} (hown : ∀ x, own x = true → kept x = true)
    (hkept : ∀ {x s s'}, good x → kept x = true → R s s' →
      R (step s x).2 (step s' x).2 ∧ (own x = true → (step s x).1 = (step s' x).1))
    (hdrop : ∀ {x s s'}, good x → kept x = false → R s s' → R (step s x).2 s') {xs : List ε} :
    ∀ {s s' : σ}, R s s' → (∀ x ∈ xs, good x) →
      answersTo own xs (runOf step s xs).1 =
        answersTo own (xs.filter kept) (runOf step s' (xs.filter kept)).1 := by
  induction xs with
  | nil => exact fun _ _ => rfl
  | cons x xs ih =>
    intro s s' hR hgood
    have hx := hgood x List.mem_cons_self
    have hxs : ∀ y ∈ xs, good y := fun y hy => hgood y (List.mem_cons_of_mem x hy)
    cases hk : kept x with
    | true =>
      obtain ⟨hR', hanswer⟩ := hkept hx hk hR
      rw [List.filter_cons_of_pos hk, answersTo_cons_runOf, answersTo_cons_runOf, ih hR' hxs]
      split
      · rw [hanswer (by assumption)]
      · rfl
    | false =>
      have hnot : ¬ own x = true := fun h => by
        rw [hown x h] at hk
        cases hk
      rw [List.filter_cons_of_neg (by simp [hk]), answersTo_cons_runOf, if_neg hnot]
      exact ih (hdrop hx hk hR) hxs

end Unwinding

namespace Service

variable {owner : Nat → Tenant} {s s' : Service} {a : Tenant}

/-! ## Steps of a session, with rest after each -/

theorem run_eq_runOf (s : Service) (xs : List Step) : s.run xs = runOf Service.step s xs := by
  induction xs generalizing s with
  | nil => rfl
  | cons x xs ih =>
    rw [Service.run, runOf]
    simp only [ih]

theorem alike_runSweepers (h : s.sweepers = []) : s.Alike s.runSweepers := by
  unfold runSweepers
  rw [h]
  exact ⟨rfl, rfl, rfl, rfl, h.symm, rfl⟩

/-- A step is what it does at once, and coming to rest. -/
theorem Orderly.step {x : Step} (ho : s.Orderly owner a) (hx : x.InSession owner)
    (hapart : a.ApartFrom (x.actor? owner)) :
    (s.step x).1 = (s.act x).1 ∧ (s.step x).2.Orderly owner a ∧
      (s.step x).2.view a = (s.act x).2.settle.view a := by
  have ho' := (ho.act hx hapart).settle.1
  have halike := alike_runSweepers ho'.unswept
  exact ⟨rfl, halike.orderly ho', halike.view_eq a⟩

theorem orderly_ofCapacity (gateway : Gateway) (sink : Audit.Sink) (clock : Clock) (capacity : Nat)
    (owner : Nat → Tenant) (a : Tenant) :
    Orderly owner a { gateway, sink, clock, store := .ofCapacity capacity } where
  sound := {
    plain := Store.plain_ofCapacity capacity
    sources_nodup := .nil
    sources_lt := fun _ ht => by cases ht }
  unswept := rfl
  owner_eq _ ht := by cases ht
  apart _ ht := by cases ht
  within _ ht := by cases ht

/-- A tenant cannot tell one service from another: they are in order and look the same. -/
structure Indistinct (owner : Nat → Tenant) (a : Tenant) (s s' : Service) : Prop where
  left : s.Orderly owner a
  right : s'.Orderly owner a
  view_eq : s.view a = s'.view a

/-- A step that `a` does or nobody, and a step that others do. -/
theorem actor_cases {a : Tenant} {actor : Option Tenant} :
    (decide (actor = none ∨ actor = some a) = true → ∀ b, actor = some b → b = a) ∧
      (decide (actor = none ∨ actor = some a) = false → ∃ b, actor = some b ∧ b ≠ a) := by
  cases actor with
  | none => simp
  | some b => simp

theorem Indistinct.steps_kept {x : Step} (h : Indistinct owner a s s') (hx : x.InSession owner)
    (hactor : ∀ b, x.actor? owner = some b → b = a) :
    Indistinct owner a (s.step x).2 (s'.step x).2 ∧ ((s.step x).2.view a).Rests ∧
      (x.actor? owner = some a → (s.step x).1 = (s'.step x).1) := by
  have hapart := Tenant.apartFrom_of_own hactor
  obtain ⟨hans, ho, hview⟩ := h.left.step hx hapart
  obtain ⟨hans', ho', hview'⟩ := h.right.step hx hapart
  have hact := h.left.act hx hapart
  have hact' := h.right.act hx hapart
  obtain ⟨hsame, hanswer⟩ := act_congr h.left h.right h.view_eq hx hactor
  have hsettled := settle_congr hact hact' hsame
  refine ⟨⟨ho, ho', ?_⟩, ?_, fun ha => ?_⟩
  · rw [hview, hview', hsettled]
  · rw [hview]
    exact hact.settle.2.rests
  · rw [hans, hans', hanswer ha]

theorem Indistinct.steps_dropped {x : Step} (h : Indistinct owner a s s')
    (hr : (s.view a).Rests) (hx : x.InSession owner) {b : Tenant} (hb : x.actor? owner = some b)
    (hne : b ≠ a) (hapart : a.Apart b) :
    Indistinct owner a (s.step x).2 s' ∧ ((s.step x).2.view a).Rests := by
  have hall := Tenant.apartFrom_of_other hb hapart
  obtain ⟨-, ho, hview⟩ := h.left.step hx hall
  have hsame := h.left.view_act_other hb hne hapart fun _ _ _ => hr
  have hsettled := (h.left.act hx hall).view_settle (hsame ▸ hr)
  have hsee : (s.step x).2.view a = s.view a := hview.trans (hsettled.trans hsame)
  exact ⟨⟨ho, h.right, hsee.trans h.view_eq⟩, hsee ▸ hr⟩

/-- Tenants do not interfere. In a session over one fresh store, with any validator, settings and
sink, a tenant without a delimiter in its ids is answered the same as in the session without the
steps of all others, if those have no delimiter in their ids either and differ from it in them. So
it is when the relays rest after every step, and so it is on every schedule of single moves, where
the moves of the own relays come in the same turns. -/
theorem tenants_isolated (gateway : Gateway) (sink : Audit.Sink) (clock : Clock) (capacity : Nat)
    (owner : Nat → Tenant) {a : Tenant} (ha : a.isDelimiterSafe) :
    let s : Service := { gateway, sink, clock, store := .ofCapacity capacity }
    (∀ xs : List Step, (∀ x ∈ xs, x.InSession owner) →
      (∀ x ∈ xs, ∀ b, x.actor? owner = some b → b ≠ a → b.isDelimiterSafe ∧ ¬ a.SameIds b) →
      let without := xs.filter fun x => x.actor? owner = none ∨ x.actor? owner = some a
      answersTo (fun x => x.actor? owner = some a) xs (s.run xs).1 =
        answersTo (fun x => x.actor? owner = some a) without (s.run without).1) ∧
    (∀ xs : List Turn, (∀ x ∈ xs, x.InSession owner) →
      (∀ x ∈ xs, ∀ b, x.actor? owner = some b → b ≠ a → b.isDelimiterSafe ∧ ¬ a.SameIds b) →
      let without := xs.filter fun x => x.actor? owner = none ∨ x.actor? owner = some a
      answersTo (fun x => x.actor? owner = some a) xs (runOf turn s xs).1 =
        answersTo (fun x => x.actor? owner = some a) without (runOf turn s without).1) := by
  intro s
  have hstart : s.Orderly owner a := orderly_ofCapacity gateway sink clock capacity owner a
  have hfar : ∀ {b : Tenant}, b.isDelimiterSafe ∧ ¬ a.SameIds b → a.Apart b :=
    fun hb => Tenant.apart_of_safe ha hb.1 hb.2
  have hsame : Indistinct owner a s s := ⟨hstart, hstart, rfl⟩
  constructor
  · intro xs hsession hothers without
    rw [run_eq_runOf, run_eq_runOf]
    have hgood : ∀ x ∈ xs, x.InSession owner ∧
        ∀ b, x.actor? owner = some b → b ≠ a → b.isDelimiterSafe ∧ ¬ a.SameIds b :=
      fun x hx => ⟨hsession x hx, hothers x hx⟩
    refine unwind (R := fun s s' => Indistinct owner a s s' ∧ (s.view a).Rests) ?_ ?_ ?_
      ⟨hsame, fun x hx => by cases hx⟩ hgood
    · intro x hx
      simp_all
    · rintro x s s' ⟨hx, -⟩ hk ⟨h, -⟩
      obtain ⟨h', hr, hans⟩ := h.steps_kept hx (actor_cases.1 hk)
      exact ⟨⟨h', hr⟩, fun hown => hans (of_decide_eq_true hown)⟩
    · rintro x s s' ⟨hx, hother⟩ hk ⟨h, hr⟩
      obtain ⟨b, hb, hne⟩ := actor_cases.2 hk
      exact h.steps_dropped hr hx hb hne (hfar (hother b hb hne))
  · intro xs hsession hothers without
    have hgood : ∀ x ∈ xs, x.InSession owner ∧
        ∀ b, x.actor? owner = some b → b ≠ a → b.isDelimiterSafe ∧ ¬ a.SameIds b :=
      fun x hx => ⟨hsession x hx, hothers x hx⟩
    refine unwind (R := Indistinct owner a) ?_ ?_ ?_ hsame hgood
    · intro x hx
      simp_all
    · rintro x s s' ⟨hx, -⟩ hk h
      have hactor := actor_cases.1 hk
      have hapart := Tenant.apartFrom_of_own hactor
      obtain ⟨hview, hans⟩ := turn_congr h.left h.right h.view_eq hx hactor
      exact ⟨⟨h.left.turn hx hapart, h.right.turn hx hapart, hview⟩,
        fun hown => hans (of_decide_eq_true hown)⟩
    · rintro x s s' ⟨hx, hother⟩ hk h
      obtain ⟨b, hb, hne⟩ := actor_cases.2 hk
      have hapart := hfar (hother b hb hne)
      have hall := Tenant.apartFrom_of_other hb hapart
      have hview := h.left.view_turn_other hx hb hne hapart
      exact ⟨h.left.turn hx hall, h.right, hview.trans h.view_eq⟩

/-- Two tenants under the same logical names. The lock that Bob holds is free for Ann, Bob cannot
release it with Ann's token, and what Bob publishes does not reach Ann; on a schedule too. -/
theorem tenants_isolated_same_names :
    let ann : Tenant := ⟨"ann", none⟩
    let bob : Tenant := ⟨"bob", some "org"⟩
    let owner : Nat → Tenant := fun handle => if handle = 0 then ann else bob
    let s : Service := { clock := ⟨⟨0⟩, default⟩, store := .ofCapacity 4 }
    let xs : List Step :=
      [.call bob (.acquire "job" ⟨10⟩) { fresh := "B" }, .call ann (.subscribe ["news"]) {},
        .call bob (.subscribe ["news"]) { handle := 1 },
        .call ann (.acquire "job" ⟨10⟩) { fresh := "A" }, .call bob (.release "job" "A") {},
        .call bob (.publish "news" "x") {}, .call ann (.publish "news" "y") {}, .read 0 none,
        .call ann (.release "job" "A") {}]
    let ys : List Turn :=
      [.act (.call ann (.subscribe ["news"]) {}),
        .act (.call bob (.subscribe ["news"]) { handle := 1 }),
        .act (.call bob (.publish "news" "x") {}), .act (.call ann (.publish "news" "y") {}),
        .move 1, .move 0, .act (.cancel 1), .move 0, .take 0]
    answersTo (fun x => x.actor? owner = some ann) xs (s.run xs).1 =
        [.called (.ok .subscribed), .called (.ok (.acquired ⟨true, some "A", some ⟨0, 10⟩⟩)),
          .called (.ok (.published 1)), .read [.message ⟨"news", "y", default⟩] false,
          .called (.ok (.released true))] ∧
      answersTo (fun x => x.actor? owner = some ann) ys (runOf turn s ys).1 =
        [.called (.ok .subscribed), .called (.ok (.published 1)), .flag true, .flag true,
          .read [.message ⟨"news", "y", default⟩] false] := by
  intro ann bob owner s xs ys
  have ha : ann.isDelimiterSafe := by decide
  have hb : bob.isDelimiterSafe ∧ ¬ ann.SameIds bob := by decide
  have hisolated := tenants_isolated {} .recording ⟨⟨0⟩, default⟩ 4 owner ha
  constructor
  · refine (hisolated.1 xs ?_ ?_).trans (by decide +kernel)
    · simp [xs, Step.InSession, owner, ann, bob]
    · simp [xs, Step.actor?, owner, hb]
  · refine (hisolated.2 ys ?_ ?_).trans (by decide +kernel)
    · simp [ys, Turn.InSession, Step.InSession, owner]
    · simp [ys, Turn.actor?, Step.actor?, owner, hb]

end Service

end Tenancy
