import Tenancy.Audit
import Tenancy.Proofs.Codec
import Tenancy.Proofs.Forms
import Tenancy.Rpc.Caller

/-!
# Tenants and their namespaces

A tenant without an organization has one form if it is made by hand or from the headers of a call: an
empty organization becomes none. Decoding keeps what it finds, so a text with an empty organization
in it gives a second form, which has the namespace of the first but is not equal to it, and whose
audit records name an organization. `Tenant.eq_iff_stem_eq_of_texts` says that such texts are all that
keeps equality of tenants from being equality of namespaces.
-/

namespace Tenancy

namespace Tenant

/-- The ways to a tenant, where only texts in `texts` are decoded. -/
inductive Obtained (texts : String → Prop) : Tenant → Prop where
  | new (user : String) : Obtained texts ⟨user, none⟩
  | ofParts (user : String) (organization : Option String) : Obtained texts (ofParts user organization)
  | withOrganization {t : Tenant} (h : Obtained texts t) (organization : String) :
      Obtained texts (t.withOrganization organization)
  /-- The tenant of a remote call; the one attached to it, if any, was got in some such way too. -/
  | called {t : Tenant} {c : Rpc.Caller} (hattached : ∀ t', c.attached = some t' → Obtained texts t')
      (h : c.tenant = .ok t) : Obtained texts t
  | decoded {t : Tenant} {text : String} (htext : texts text) (h : form.read text = .ok t) :
      Obtained texts t

/-! ## Tenants in the usual form -/

/-- No organization, or one with a name. -/
def Usual (t : Tenant) : Prop := t.organization ≠ some ""

variable {a b t : Tenant} {texts : String → Prop}

theorem usual_ofParts (user : String) (organization : Option String) :
    (ofParts user organization).Usual := by
  intro h
  obtain ⟨-, hne⟩ := Option.filter_eq_some_iff.1 h
  exact absurd rfl (of_decide_eq_true hne)

theorem usual_withOrganization (t : Tenant) (organization : String) :
    (t.withOrganization organization).Usual := by
  unfold withOrganization Usual
  split
  · exact nofun
  · rename_i hne
    exact fun h => hne (Option.some.inj h)

/-- Headers are parts; an attached tenant is taken as it is. -/
theorem usual_of_called {c : Rpc.Caller} (hattached : ∀ t', c.attached = some t' → t'.Usual)
    (h : c.tenant = .ok t) : t.Usual := by
  unfold Rpc.Caller.tenant at h
  split at h
  · split at h
    · cases h
    · split at h
      · cases h
        exact usual_ofParts _ _
      · split at h
        · cases h
        · cases h
          exact usual_ofParts _ _
  · split at h
    · next t' ht' =>
      cases h
      exact hattached t ht'
    · cases h

/-- Only decoding leads to another form. -/
theorem Obtained.usual (htexts : ∀ text, texts text → ∀ user, form.read text ≠ .ok ⟨user, some ""⟩)
    (h : t.Obtained texts) : t.Usual := by
  induction h with
  | new user => exact nofun
  | ofParts user organization => exact usual_ofParts user organization
  | withOrganization _ organization _ => exact usual_withOrganization _ organization
  | called _ h ih => exact usual_of_called ih h
  | @decoded t text htext h =>
    intro hempty
    exact htexts text htext t.user (h.trans (by rw [← hempty]))

/-! ## Equality, organization and namespace -/

theorem hasOrganization_iff (h : t.Usual) : t.hasOrganization ↔ t.organizationId ≠ "" := by
  obtain ⟨user, _ | organization⟩ := t
  · simp [hasOrganization, organizationId]
  · have hne : organization ≠ "" := fun he => h (congrArg some he)
    simp [hasOrganization, organizationId, hne]

theorem SameIds.eq (h : a.SameIds b) (ha : a.Usual) (hb : b.Usual) : a = b := by
  obtain ⟨user, organization⟩ := a
  obtain ⟨user', organization'⟩ := b
  obtain ⟨hu, ho⟩ := h
  cases hu
  congr 1
  cases organization with
  | none =>
    cases organization' with
    | none => rfl
    | some o => exact absurd (congrArg some ho.symm) hb
  | some o =>
    cases organization' with
    | none => exact absurd (congrArg some ho) ha
    | some o' => exact congrArg some ho

theorem stem_eq_iff (ha : a.isDelimiterSafe) (hb : b.isDelimiterSafe) :
    a.stem = b.stem ↔ a.SameIds b := by
  refine ⟨fun h => (stem_append_inj ha hb (s := []) (t := []) (by rw [h])).1, fun h => ?_⟩
  rw [stem, stem, h.1, h.2]

/-- The first characters tell whether there is a segment for the organization. -/
theorem org_prefix_stem_iff (t : Tenant) :
    "org-".toList <+: t.stem.toList ↔ t.organizationId ≠ "" := by
  rw [stem_toList, orgSegment]
  split
  · rename_i he
    simp [he, userSegment]
  · rename_i hne
    simp [hne]

theorem audited_organization (t : Tenant) (operation : Audit.Operation) (metadata : Json)
    (now : Timestamp) :
    (Audit.record t operation metadata now).organization.isSome = t.hasOrganization := by
  unfold Audit.record
  split
  · rename_i h
    exact h.symm
  · rename_i h
    exact (Bool.not_eq_true _ ▸ h).symm

/-- Equality of tenants is equality of namespaces, a tenant has an organization exactly where it has
the id of one, and its audit records name one exactly where its names have the segment of one: for
the tenants obtained in any way, exactly as long as no text with an empty organization is decoded. -/
theorem eq_iff_stem_eq_of_texts (texts : String → Prop) :
    (∀ a b : Tenant, a.Obtained texts → b.Obtained texts →
      (a.isDelimiterSafe → b.isDelimiterSafe → (a = b ↔ a.stem = b.stem)) ∧
      (a.hasOrganization ↔ a.organizationId ≠ "") ∧
      ∀ operation metadata now,
        ((Audit.record a operation metadata now).organization.isSome ↔
          "org-".toList <+: a.stem.toList)) ↔
    ∀ text, texts text → ∀ user, form.read text ≠ .ok ⟨user, some ""⟩ := by
  constructor
  · intro hlaws text htext user hread
    have hobtained : Obtained texts ⟨user, some ""⟩ := .decoded htext hread
    exact (hlaws _ _ hobtained hobtained).2.1.1 rfl rfl
  · intro htexts a b ha hb
    have hua := ha.usual htexts
    refine ⟨fun hsafe hsafe' => ⟨fun h => h ▸ rfl, fun h => ?_⟩, hasOrganization_iff hua,
      fun operation metadata now => ?_⟩
    · exact ((stem_eq_iff hsafe hsafe').1 h).eq hua (hb.usual htexts)
    · rw [audited_organization, org_prefix_stem_iff]
      exact hasOrganization_iff hua

/-- Headers and parts with an empty organization, and a text that names none, all give Ann. -/
theorem eq_iff_stem_eq_of_texts_absent :
    let texts := (· = "\x7b\"user_id\":\"ann\"\x7d")
    let caller : Rpc.Caller := { user := [Utf8.encode "ann"], organization := [[]] }
    let ann : Tenant := ⟨"ann", none⟩
    ann.Obtained texts ∧ caller.tenant = .ok ann ∧ (ofParts "ann" (some "")).stem = ann.stem ∧
      ofParts "ann" (some "") = ann ∧ ¬ ann.hasOrganization := by
  intro texts caller ann
  have hread : form.read "\x7b\"user_id\":\"ann\"\x7d" = .ok ⟨"ann", none⟩ := by decide
  have htexts : ∀ text, texts text → ∀ user, form.read text ≠ .ok ⟨user, some ""⟩ := by
    rintro text rfl user h
    rw [hread] at h
    cases h
  have hann : ann.Obtained texts := .decoded rfl hread
  obtain ⟨heq, horganization, -⟩ := (eq_iff_stem_eq_of_texts texts).2 htexts _ ann
    (.ofParts "ann" (some "")) hann
  have hstem : (ofParts "ann" (some "")).stem = ann.stem := by decide
  refine ⟨hann, by decide, hstem, (heq (by decide) (by decide)).2 hstem, ?_⟩
  exact fun h => horganization.1 h rfl

/-- A text with an empty organization: the tenant has the namespace of one without, but is another
one, says that it has an organization, and leaves the empty id in its audit records. -/
theorem decoded_empty_organization :
    let a : Tenant := ⟨"u", some ""⟩
    let b : Tenant := ⟨"u", none⟩
    form.read "\x7b\"user_id\":\"u\",\"organization_id\":\"\"\x7d" = .ok a ∧
      a.Obtained (fun _ => True) ∧ b.Obtained (fun _ => True) ∧
      a.isDelimiterSafe ∧ b.isDelimiterSafe ∧ a.stem = b.stem ∧ a ≠ b ∧
      a.hasOrganization ∧ a.organizationId = "" ∧
      (Audit.record a .publish .null default).organization = some "" ∧
      ¬ "org-".toList <+: a.stem.toList := by
  intro a b
  have hread : form.read "\x7b\"user_id\":\"u\",\"organization_id\":\"\"\x7d" = .ok a := by decide
  exact ⟨hread, .decoded trivial hread, .new "u", by decide, by decide, by decide, by decide,
    by decide, by decide, by decide, by decide⟩

end Tenant

end Tenancy
