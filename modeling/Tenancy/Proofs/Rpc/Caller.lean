import Tenancy.Rpc.Caller

/-!
# Rules for who calls

`Caller.Identifies` says rule by rule which tenant a caller is, or with which status it is turned
away; `Caller.identifies_iff` is that `Caller.tenant` follows the rules. A header is a text exactly
where its bytes are visible ASCII, blanks and tabs, and the text is then the one that these bytes
encode: `headerText?_eq_some_iff`.
-/

namespace Tenancy.Rpc

/-! ## Header values -/

/-- A byte of a text in a header: visible ASCII, a blank, or a tab. -/
def IsTextByte (b : UInt8) : Prop := (32 ≤ b.toNat ∧ b.toNat < 127) ∨ b.toNat = 9

/-- A header value that is a text, and the text. -/
def Spells (value : Utf8.Bytes) (text : String) : Prop :=
  (∀ b ∈ value, IsTextByte b) ∧ Utf8.encode text = value

theorem utf8EncodeChar_ofNat {b : UInt8} (h : IsTextByte b) :
    String.utf8EncodeChar (Char.ofNat b.toNat) = [b] := by
  have hlt : b.toNat < 128 := by
    rcases h with ⟨-, hlt⟩ | htab <;> omega
  have hval : (Char.ofNat b.toNat).val.toNat = b.toNat := by
    have hvalid : b.toNat.isValidChar := .inl (by omega)
    rw [Char.ofNat, dif_pos hvalid]
    rfl
  have hsize : (Char.ofNat b.toNat).utf8Size = 1 := by
    rw [Char.utf8Size_eq_one_iff, UInt32.le_iff_toNat_le, hval]
    show b.toNat ≤ 127
    omega
  rw [String.utf8EncodeChar_eq_singleton hsize]
  congr 1
  refine UInt8.toNat_inj.1 ?_
  rw [UInt32.toNat_toUInt8, hval]
  omega

theorem encode_ofList_cons (c : Char) (cs : List Char) :
    Utf8.encode (String.ofList (c :: cs)) =
      String.utf8EncodeChar c ++ Utf8.encode (String.ofList cs) := by
  simp only [Utf8.encode, String.toByteArray_ofList]
  rw [List.utf8Encode_cons, List.utf8Encode_singleton]
  simp

theorem encode_headerText {value : Utf8.Bytes} (h : ∀ b ∈ value, IsTextByte b) :
    Utf8.encode (String.ofList (value.map fun b => Char.ofNat b.toNat)) = value := by
  induction value with
  | nil => rfl
  | cons b value ih =>
    rw [List.map_cons, encode_ofList_cons, utf8EncodeChar_ofNat (h b List.mem_cons_self),
      ih fun b' hb => h b' (List.mem_cons_of_mem b hb), List.singleton_append]

theorem headerText?_eq_some_iff {value : Utf8.Bytes} {text : String} :
    headerText? value = some text ↔ Spells value text := by
  have hall : (value.all fun b => (32 ≤ b.toNat && b.toNat < 127) || b.toNat = 9) = true ↔
      ∀ b ∈ value, IsTextByte b := by
    simp [IsTextByte]
  unfold headerText? Spells
  rw [← hall]
  split
  · rename_i htext
    have hencode := encode_headerText (hall.1 htext)
    refine ⟨fun h => ⟨htext, by cases h; exact hencode⟩, fun h => ?_⟩
    have hdecode := congrArg Utf8.decode (hencode.trans h.2.symm)
    rwa [Utf8.decode_encode, Utf8.decode_encode] at hdecode
  · rename_i htext
    exact ⟨nofun, fun h => absurd h.1 htext⟩

theorem headerText?_eq_none_iff {value : Utf8.Bytes} :
    headerText? value = none ↔ ∀ text, ¬ Spells value text := by
  simp only [Option.eq_none_iff_forall_ne_some, ne_eq, headerText?_eq_some_iff]

/-! ## Callers -/

namespace Caller

/-- Who a caller is. The user header decides alone whether the headers count; an organization
header without text says that there is none. -/
inductive Identifies (c : Caller) : Except Status Tenant → Prop
  | user {value rest user} : c.user = value :: rest → Spells value user → c.organization = [] →
      Identifies c (.ok ⟨user, none⟩)
  | member {value rest user value' rest' organization} :
      c.user = value :: rest → Spells value user →
      c.organization = value' :: rest' → Spells value' organization → organization ≠ "" →
      Identifies c (.ok ⟨user, some organization⟩)
  | outsider {value rest user value' rest'} :
      c.user = value :: rest → Spells value user → c.organization = value' :: rest' →
      Spells value' "" → Identifies c (.ok ⟨user, none⟩)
  | badUser {value rest} : c.user = value :: rest → (∀ user, ¬ Spells value user) →
      Identifies c (.error ⟨.invalidArgument, "Invalid user id header"⟩)
  | badOrganization {value rest user value' rest'} :
      c.user = value :: rest → Spells value user → c.organization = value' :: rest' →
      (∀ organization, ¬ Spells value' organization) →
      Identifies c (.error ⟨.invalidArgument, "Invalid organization id header"⟩)
  | attached {t} : c.user = [] → c.attached = some t → Identifies c (.ok t)
  | nobody : c.user = [] → c.attached = none →
      Identifies c (.error ⟨.unauthenticated, "Missing user id"⟩)

theorem identifies_tenant (c : Caller) : c.Identifies c.tenant := by
  unfold tenant
  split
  · rename_i value rest huser
    split
    · rename_i hnone
      exact .badUser huser (headerText?_eq_none_iff.1 hnone)
    · rename_i user htext
      have hspells := headerText?_eq_some_iff.1 htext
      split
      · rename_i horg
        exact .user huser hspells horg
      · rename_i value' rest' horg
        split
        · rename_i hnone
          exact .badOrganization huser hspells horg (headerText?_eq_none_iff.1 hnone)
        · rename_i organization htext'
          have hspells' := headerText?_eq_some_iff.1 htext'
          by_cases hempty : organization = ""
          · subst hempty
            exact .outsider huser hspells horg hspells'
          · have hparts : Tenant.ofParts user (some organization) = ⟨user, some organization⟩ := by
              simp [Tenant.ofParts, Option.filter, hempty]
            rw [hparts]
            exact .member huser hspells horg hspells' hempty
  · rename_i huser
    split
    · rename_i t hattached
      exact .attached huser hattached
    · rename_i hattached
      exact .nobody huser hattached

theorem Identifies.tenant_eq {c : Caller} {a : Except Status Tenant} (h : c.Identifies a) :
    c.tenant = a := by
  cases h with
  | user huser hspells horg =>
    simp [tenant, huser, headerText?_eq_some_iff.2 hspells, horg, Tenant.ofParts]
  | member huser hspells horg hspells' hne =>
    simp [tenant, huser, headerText?_eq_some_iff.2 hspells, horg,
      headerText?_eq_some_iff.2 hspells', Tenant.ofParts, Option.filter, hne]
  | outsider huser hspells horg hspells' =>
    simp [tenant, huser, headerText?_eq_some_iff.2 hspells, horg,
      headerText?_eq_some_iff.2 hspells', Tenant.ofParts, Option.filter]
  | badUser huser hnot => simp [tenant, huser, headerText?_eq_none_iff.2 hnot]
  | badOrganization huser hspells horg hnot =>
    simp [tenant, huser, headerText?_eq_some_iff.2 hspells, horg, headerText?_eq_none_iff.2 hnot]
  | attached huser hattached => simp [tenant, huser, hattached]
  | nobody huser hattached => simp [tenant, huser, hattached]

/-- The rules leave nothing open and do not contradict each other. -/
theorem identifies_iff {c : Caller} {a : Except Status Tenant} : c.Identifies a ↔ c.tenant = a :=
  ⟨Identifies.tenant_eq, fun h => h ▸ identifies_tenant c⟩

end Caller

end Tenancy.Rpc
