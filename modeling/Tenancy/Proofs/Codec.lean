import Tenancy.Proofs.Lists
import Tenancy.Tenant

/-!
# Names of different tenants

Ids without the delimiter can be read back off a physical name, although it carries no lengths:
the first delimiter behind a segment's mark ends the id (`Tenant.stem_append_inj`). So the stems of
two such tenants are prefix-free, and no name of one is a name of the other, whatever delimiters and
marks the logical names hold.
-/

namespace Tenancy.Tenant

variable {a b : Tenant}

/-- The same user in the same organization, or outside any. -/
def SameIds (a b : Tenant) : Prop := a.user = b.user ∧ a.organizationId = b.organizationId

instance (a b : Tenant) : Decidable (SameIds a b) := inferInstanceAs (Decidable (_ ∧ _))

theorem isDelimiterSafe_iff {t : Tenant} :
    t.isDelimiterSafe ↔ ':' ∉ t.user.toList ∧ ':' ∉ t.organizationId.toList := by
  simp [isDelimiterSafe, Namespace.delimiter]

/-! ## Segments -/

/-- What a stem has in front of the user's segment. -/
def orgSegment (t : Tenant) : List Char :=
  if t.organizationId = "" then [] else ['o', 'r', 'g', '-'] ++ t.organizationId.toList ++ [':']

def userSegment (t : Tenant) : List Char := ['u', 's', 'e', 'r', '-'] ++ t.user.toList ++ [':']

theorem stem_toList (t : Tenant) : t.stem.toList = t.orgSegment ++ t.userSegment := by
  unfold stem Namespace.stem orgSegment userSegment
  split <;> simp [String.toList_append]

theorem isolate_toList (t : Tenant) (k : String) :
    (t.isolate k).toList = t.stem.toList ++ k.toList := by
  simp [isolate, Namespace.isolate, stem, String.toList_append]

theorem userSegment_append_inj (ha : ':' ∉ a.user.toList) (hb : ':' ∉ b.user.toList)
    {s t : List Char} (h : a.userSegment ++ s = b.userSegment ++ t) :
    a.user = b.user ∧ s = t := by
  simp only [userSegment, List.append_assoc, List.singleton_append] at h
  have h' : a.user.toList ++ ':' :: s = b.user.toList ++ ':' :: t := List.append_cancel_left h
  obtain ⟨hu, -, hs⟩ := append_cons_inj (p := (· = ':')) h' (fun c hc e => ha (e ▸ hc)) rfl
    (fun c hc e => hb (e ▸ hc)) rfl
  exact ⟨String.toList_inj.1 hu, hs⟩

/-- A stem with an organization and one without differ in their first character. -/
theorem orgSegment_append_inj (ha : ':' ∉ a.organizationId.toList)
    (hb : ':' ∉ b.organizationId.toList) {s t : List Char}
    (h : a.orgSegment ++ (a.userSegment ++ s) = b.orgSegment ++ (b.userSegment ++ t)) :
    a.organizationId = b.organizationId ∧ a.userSegment ++ s = b.userSegment ++ t := by
  unfold orgSegment at h
  split at h <;> split at h
  · rename_i ea eb
    exact ⟨ea.trans eb.symm, by simpa using h⟩
  · simp [userSegment] at h
  · simp [userSegment] at h
  · simp only [List.append_assoc, List.singleton_append] at h
    have h' : a.organizationId.toList ++ ':' :: (a.userSegment ++ s) =
        b.organizationId.toList ++ ':' :: (b.userSegment ++ t) := List.append_cancel_left h
    obtain ⟨ho, -, hs⟩ := append_cons_inj (p := (· = ':')) h' (fun c hc e => ha (e ▸ hc)) rfl
      (fun c hc e => hb (e ▸ hc)) rfl
    exact ⟨String.toList_inj.1 ho, hs⟩

/-- The ids can be read off what starts with a stem, and so can the rest. -/
theorem stem_append_inj (ha : a.isDelimiterSafe) (hb : b.isDelimiterSafe) {s t : List Char}
    (h : a.stem.toList ++ s = b.stem.toList ++ t) : a.SameIds b ∧ s = t := by
  rw [isDelimiterSafe_iff] at ha hb
  rw [stem_toList, stem_toList, List.append_assoc, List.append_assoc] at h
  obtain ⟨ho, h⟩ := orgSegment_append_inj ha.2 hb.2 h
  obtain ⟨hu, hs⟩ := userSegment_append_inj ha.1 hb.1 h
  exact ⟨⟨hu, ho⟩, hs⟩

/-! ## Names -/

theorem stems_apart (ha : a.isDelimiterSafe) (hb : b.isDelimiterSafe) (hab : ¬ a.SameIds b) :
    ¬ a.stem.toList <+: b.stem.toList := by
  rintro ⟨rest, h⟩
  exact hab (stem_append_inj ha hb (t := []) (by simpa using h)).1

theorem stem_isolate_apart (ha : a.isDelimiterSafe) (hb : b.isDelimiterSafe)
    (hab : ¬ a.SameIds b) (k : String) : ¬ a.stem.toList <+: (b.isolate k).toList := by
  rintro ⟨rest, h⟩
  rw [isolate_toList] at h
  exact hab (stem_append_inj ha hb h).1

theorem isolate_inj_iff (ha : a.isDelimiterSafe) (hb : b.isDelimiterSafe) {k₁ k₂ : String} :
    a.isolate k₁ = b.isolate k₂ ↔ a.user = b.user ∧ a.organizationId = b.organizationId ∧ k₁ = k₂ := by
  constructor
  · intro h
    rw [← String.toList_inj, isolate_toList, isolate_toList] at h
    obtain ⟨⟨hu, ho⟩, hk⟩ := stem_append_inj ha hb h
    exact ⟨hu, ho, String.toList_inj.1 hk⟩
  · rintro ⟨hu, ho, rfl⟩
    rw [isolate, isolate, hu, ho]

/-- The codec: names of tenants without delimiters in their ids are equal only where tenant and
logical name are, their stems are prefix-free, and every tenant reads back what it wrote and leaves
the rest alone. -/
theorem isolate_deisolate_laws (a b : Tenant) (k₁ k₂ : String) :
    (a.isDelimiterSafe → b.isDelimiterSafe →
      (a.isolate k₁ = b.isolate k₂ ↔
        a.user = b.user ∧ a.organizationId = b.organizationId ∧ k₁ = k₂) ∧
      (¬ (a.user = b.user ∧ a.organizationId = b.organizationId) →
        ¬ a.stem.toList <+: b.stem.toList ∧ ¬ b.stem.toList <+: a.stem.toList ∧
          a.deisolate (b.isolate k₂) = b.isolate k₂)) ∧
    ∀ (t : Tenant) (k p : String),
      t.deisolate (t.isolate k) = k ∧
      (t.stem.toList <+: p.toList → t.isolate (t.deisolate p) = p) ∧
      (¬ t.stem.toList <+: p.toList → t.deisolate p = p) := by
  refine ⟨fun ha hb => ⟨isolate_inj_iff ha hb, fun hab => ?_⟩, fun t k p => ?_⟩
  · have hba : ¬ b.SameIds a := fun h => hab ⟨h.1.symm, h.2.symm⟩
    exact ⟨stems_apart ha hb hab, stems_apart hb ha hba,
      Namespace.deisolate_of_foreign (stem_isolate_apart ha hb hab k₂)⟩
  · exact ⟨t.deisolate_isolate k, Namespace.isolate_deisolate, Namespace.deisolate_of_foreign⟩

/-- A tenant outside any organization, whose logical name looks like a name inside one. -/
theorem isolate_deisolate_laws_lookalike :
    let a : Tenant := ⟨"1", some "1"⟩
    let b : Tenant := ⟨"org-1", none⟩
    let k := "org-1:user-1::"
    a.isDelimiterSafe ∧ b.isDelimiterSafe ∧ a.isolate "" ≠ b.isolate k ∧
      a.deisolate (b.isolate k) = b.isolate k ∧ a.stem.toList <+: k.toList ∧
      a.isolate (a.deisolate k) = k := by
  have ha : (⟨"1", some "1"⟩ : Tenant).isDelimiterSafe := by decide
  have hb : (⟨"org-1", none⟩ : Tenant).isDelimiterSafe := by decide
  obtain ⟨hinj, hforeign⟩ :=
    (isolate_deisolate_laws ⟨"1", some "1"⟩ ⟨"org-1", none⟩ "" "org-1:user-1::").1 ha hb
  obtain ⟨-, hback, -⟩ :=
    (isolate_deisolate_laws ⟨"1", some "1"⟩ ⟨"org-1", none⟩ "" "").2 ⟨"1", some "1"⟩ "" "org-1:user-1::"
  have hp : (⟨"1", some "1"⟩ : Tenant).stem.toList <+: "org-1:user-1::".toList := by decide
  exact ⟨ha, hb, fun h => absurd (hinj.1 h).1 (by decide), (hforeign (by decide)).2.2, hp, hback hp⟩

end Tenancy.Tenant
