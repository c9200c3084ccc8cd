import Tenancy.Proofs.Text.Items
import Tenancy.Tenant

/-!
# Keys and their logical names

A key holds a physical name and how many bytes of it, from the end, are the logical name. The bytes in
front of these are those of the stem (`Key.encode_physical`), so the cut is between two characters and
the logical name is read back as it was (`Key.logical_ofLogical`). The length also keeps keys apart:
two of them are equal only if stem and logical name are, even where tenants share physical names
(`Key.ofLogical_eq_iff`).
-/

namespace Tenancy

theorem Utf8.encode_append (s t : String) : encode (s ++ t) = encode s ++ encode t := by
  rw [encode, String.toByteArray_append, ByteArray.toList_data_append]
  rfl

namespace Key

variable {t u : Tenant} {a b : String}

/-! ## The cut -/

/-- The byte at which the logical part of the physical name starts. -/
def cut (k : Key) : Nat := (Utf8.encode k.physical).length - k.logicalBytes

theorem encode_physical (t : Tenant) (a : String) :
    Utf8.encode (ofLogical t a).physical = Utf8.encode t.stem ++ Utf8.encode a :=
  Utf8.encode_append t.stem a

theorem length_physical (t : Tenant) (a : String) :
    (Utf8.encode (ofLogical t a).physical).length =
      (Utf8.encode t.stem).length + (ofLogical t a).logicalBytes := by
  rw [encode_physical, List.length_append]
  rfl

theorem logicalBytes_le (t : Tenant) (a : String) :
    (ofLogical t a).logicalBytes ≤ (Utf8.encode (ofLogical t a).physical).length := by
  rw [length_physical]
  exact Nat.le_add_left _ _

theorem cut_ofLogical (t : Tenant) (a : String) :
    (ofLogical t a).cut = (Utf8.encode t.stem).length := by
  rw [cut, length_physical, Nat.add_sub_cancel]

theorem drop_cut (t : Tenant) (a : String) :
    (Utf8.encode (ofLogical t a).physical).drop (ofLogical t a).cut = Utf8.encode a := by
  rw [cut_ofLogical, encode_physical, List.drop_left]

/-! ## Names -/

theorem logical_ofLogical (t : Tenant) (a : String) : (ofLogical t a).logical = a := by
  have hdrop := drop_cut t a
  unfold cut at hdrop
  rw [logical, if_pos (logicalBytes_le t a), textFrom, hdrop, Utf8.decode_encode]
  rfl

theorem ofLogical_eq_iff : ofLogical t a = ofLogical u b ↔ t.stem = u.stem ∧ a = b := by
  constructor
  · intro h
    -- the same bytes, cut at the same place
    have hbytes := encode_physical t a
    rw [h, encode_physical] at hbytes
    have hlength : (Utf8.encode a).length = (Utf8.encode b).length := congrArg logicalBytes h
    obtain ⟨hstem, hlogical⟩ := List.append_inj' hbytes hlength.symm
    exact ⟨Utf8.encode_injective hstem.symm, Utf8.encode_injective hlogical.symm⟩
  · rintro ⟨hstem, rfl⟩
    have hphysical : t.isolate a = u.isolate a := congrArg (· ++ a) hstem
    rw [ofLogical, ofLogical, hphysical]

/-- Within one namespace, a physical name has one logical name. -/
theorem eq_of_physical_eq (hstem : t.stem = u.stem)
    (h : (ofLogical t a).physical = (ofLogical u b).physical) : a = b := by
  have hbytes := congrArg Utf8.encode h
  rw [encode_physical, encode_physical, hstem] at hbytes
  exact Utf8.encode_injective (List.append_cancel_left hbytes)

/-- A key keeps both its names: the physical one is that of the codec, and the bytes from the cut on
are the logical one, so that it is read back whatever the ids and the name are. Keys are equal exactly
where stem and logical name are; two that share a physical name are equal unless the stems differ. -/
theorem keeps_names (t u : Tenant) (a b : String) :
    let key := ofLogical t a
    key.physical = t.isolate a ∧ key.logicalBytes ≤ (Utf8.encode key.physical).length ∧
      (Utf8.encode key.physical).take key.cut = Utf8.encode t.stem ∧
      Utf8.decode ((Utf8.encode key.physical).drop key.cut) = some a ∧ key.logical = a ∧
      (key = ofLogical u b ↔ t.stem = u.stem ∧ a = b) ∧
      (key.physical = (ofLogical u b).physical → key ≠ ofLogical u b → t.stem ≠ u.stem) := by
  refine ⟨rfl, logicalBytes_le t a, ?_, ?_, logical_ofLogical t a, ofLogical_eq_iff, ?_⟩
  · rw [cut_ofLogical, encode_physical, List.take_left]
  · rw [drop_cut, Utf8.decode_encode]
  · intro hphysical hne hstem
    exact hne (ofLogical_eq_iff.2 ⟨hstem, eq_of_physical_eq hstem hphysical⟩)

/-- The users `ü:user-é` and `ü` share a name; each key still tells its own logical name. -/
theorem keeps_names_shared :
    let t : Tenant := ⟨"ü:user-é", none⟩
    let u : Tenant := ⟨"ü", none⟩
    (ofLogical t "clé").physical = (ofLogical u "user-é:clé").physical ∧
      ofLogical t "clé" ≠ ofLogical u "user-é:clé" ∧ t.stem ≠ u.stem ∧
      (ofLogical t "clé").logical = "clé" ∧ (ofLogical u "user-é:clé").logical = "user-é:clé" := by
  intro t u
  have hshared : (ofLogical t "clé").physical = (ofLogical u "user-é:clé").physical := by decide
  have hne : ofLogical t "clé" ≠ ofLogical u "user-é:clé" := by decide
  obtain ⟨-, -, -, -, hread, -, hapart⟩ := keeps_names t u "clé" "user-é:clé"
  obtain ⟨-, -, -, -, hread', -, -⟩ := keeps_names u t "user-é:clé" "clé"
  exact ⟨hshared, hne, hapart hshared hne, hread, hread'⟩

end Key

end Tenancy
