import Tenancy.Json.Form
import Tenancy.Proofs.Json.Shape

/-!
# Values are read back through their form

A form is lawful for the good values of its type when they fit its shape and stand for themselves, and
when nothing else fits it. Lawful forms round-trip (`Form.Lawful.roundTrips`): a good value is read back
from its text, and what is read from any text is good. A form of a record is lawful where the forms of
its fields are, which takes one lemma for each kind of field.
-/

namespace Tenancy.Json

theorem read_compact {shape : Shape} (hshape : shape.Regular) {j : Json} (h : Fits 127 shape j) :
    Json.read shape j.compact = .ok j := by
  have hread := (reads_readShape hshape h).read [] fun _ hc => nomatch hc
  rw [List.append_nil] at hread
  rw [Json.read, compact, String.toList_ofList, depthLimit, hread, ok_bind]
  rfl

theorem fits_of_read {shape : Shape} (hshape : shape.Regular) {s : String} {j : Json}
    (h : Json.read shape s = .ok j) : Fits 127 shape j := by
  obtain ⟨⟨k, rest⟩, hread, h⟩ := bind_eq_ok.1 h
  dsimp only at h
  split at h
  · cases h
    exact fits_of_readShape hshape hread
  · cases h

namespace Form

variable {α : Type}

/-- The good values are those that fit the shape, and each stands for itself. `depth` bounds the
containers inside each other. -/
structure Lawful (f : Form α) (depth : Nat) (good : α → Prop) : Prop where
  regular : f.shape.Regular
  fits : ∀ a, good a → Fits depth f.shape (f.toJson a)
  back : ∀ a, good a → f.ofJson? (f.toJson a) = some a
  good_of_fits : ∀ j a, Fits depth f.shape j → f.ofJson? j = some a → good a

/-- Every good value is read back from its text, and so is whatever is read from any text. Of a number
that is no 64-bit integer this speaks as of its characters, which a reader that holds it as a
floating-point number would not keep. -/
structure RoundTrips (f : Form α) (good : α → Prop) : Prop where
  read_write : ∀ a, good a → f.read (f.write a) = .ok a
  reread : ∀ s a, f.read s = .ok a → f.read (f.write a) = .ok a

theorem Lawful.read_write {f : Form α} {good : α → Prop} (h : f.Lawful 127 good) {a : α}
    (ha : good a) : f.read (f.write a) = .ok a := by
  rw [read, write, read_compact h.regular (h.fits a ha), ok_bind, h.back a ha]

/-- Only good values are read. -/
theorem Lawful.good_of_read {f : Form α} {good : α → Prop} (h : f.Lawful 127 good) {s : String}
    {a : α} (hread : f.read s = .ok a) : good a := by
  obtain ⟨j, hj, hread⟩ := bind_eq_ok.1 hread
  split at hread
  · rename_i b hb
    cases hread
    exact h.good_of_fits j a (fits_of_read h.regular hj) hb
  · cases hread

theorem Lawful.roundTrips {f : Form α} {good : α → Prop} (h : f.Lawful 127 good) :
    f.RoundTrips good where
  read_write _ ha := h.read_write ha
  reread _ _ hread := h.read_write (h.good_of_read hread)

/-! ## Simple forms -/

@[simp] theorem text_shape : text.shape = .text := rfl

@[simp] theorem flag_shape : flag.shape = .flag := rfl

@[simp] theorem count_shape : count.shape = .count := rfl

@[simp] theorem time_shape : time.shape = .time := rfl

@[simp] theorem any_shape : any.shape = .any := rfl

@[simp] theorem choice_shape (name : α → String) (all : List α) :
    (choice name all).shape = .choice (all.map name) := rfl

theorem text_lawful (depth : Nat) : text.Lawful depth fun _ => True where
  regular := .text
  fits s _ := by
    rw [text, Fits]
    exact ⟨s, rfl⟩
  back _ _ := rfl
  good_of_fits _ _ _ _ := trivial

theorem flag_lawful (depth : Nat) : flag.Lawful depth fun _ => True where
  regular := .flag
  fits b _ := by
    rw [flag, Fits]
    exact ⟨b, rfl⟩
  back _ _ := rfl
  good_of_fits _ _ _ _ := trivial

theorem count_lawful (depth : Nat) : count.Lawful depth fun n => n < 18446744073709551616 where
  regular := .count
  fits n hn := by
    rw [count, Fits]
    exact ⟨n, hn, rfl⟩
  back n _ := rfl
  good_of_fits j n hj h := by
    rw [count, Fits] at hj
    obtain ⟨m, hm, rfl⟩ := hj
    cases h
    exact hm

theorem time_lawful (depth : Nat) : time.Lawful depth Timestamp.Proper where
  regular := .time
  fits t ht := by
    rw [time, Fits]
    exact ⟨t, ht, rfl⟩
  back _ ht := Timestamp.ofText?_text ht
  good_of_fits j t hj h := by
    rw [time, Fits] at hj
    obtain ⟨u, hu, rfl⟩ := hj
    cases (Timestamp.ofText?_text hu).symm.trans h
    exact hu

theorem any_lawful (depth : Nat) : any.Lawful depth (Proper depth) where
  regular := .any
  fits j hj := by
    rw [any, Fits]
    exact hj
  back _ _ := rfl
  good_of_fits j k hj h := by
    rw [any, Fits] at hj
    cases h
    exact hj

theorem choice_lawful {name : α → String} {all : List α} (depth : Nat) (hall : ∀ a, a ∈ all)
    (hname : Function.Injective name) : (choice name all).Lawful depth fun _ => True where
  regular := .choice
  fits a _ := by
    rw [choice, Fits]
    exact ⟨name a, List.mem_map_of_mem (hall a), rfl⟩
  back a _ := by
    have hfind : (all.find? fun b => decide (name b = name a)).isSome :=
      List.find?_isSome.2 ⟨a, hall a, decide_eq_true rfl⟩
    obtain ⟨b, hb⟩ := Option.isSome_iff_exists.1 hfind
    have hsame := List.find?_some hb
    exact hb.trans (congrArg some (hname (of_decide_eq_true hsame)))
  good_of_fits _ _ _ _ := trivial

/-! ## Fields of records -/

section

variable {f : Form α} {depth : Nat} {good : α → Prop} {fields : List (String × Presence × Shape)}
  {members : List (String × Json)}

theorem fits_record (h : Filled (Fits depth) fields (members ++ [])) :
    Fits (depth + 1) (.record fields) (.object members) := by
  rw [Fits]
  exact ⟨members, List.append_nil members ▸ h, rfl⟩

theorem Lawful.filled_member (h : f.Lawful depth good) {name : String} {presence : Presence} {a : α}
    (ha : good a) (hfilled : Filled (Fits depth) fields members) :
    Filled (Fits depth) (f.field name presence :: fields) (f.member name a ++ members) :=
  .present (h.fits a ha) hfilled

theorem Lawful.filled_member? (h : f.Lawful depth good) {name : String} {presence : Presence}
    (hpresence : presence ≠ .required) {a : Option α} (ha : ∀ b, a = some b → good b)
    (hfilled : Filled (Fits depth) fields members) :
    Filled (Fits depth) (f.field name presence :: fields) (f.member? name a ++ members) := by
  cases a with
  | none => exact .absent hpresence hfilled
  | some b => exact .present (h.fits b (ha b rfl)) hfilled

@[simp] theorem field_eq (f : Form α) (name : String) (presence : Presence) :
    f.field name presence = (name, presence, f.shape) := rfl

@[simp] theorem member?_append (name : String) (before after : List (String × Json)) :
    Json.member? name (.object (before ++ after)) =
      (Json.member? name (.object before)).or (Json.member? name (.object after)) := by
  simp only [Json.member?, List.find?_append]
  cases before.find? fun m => decide (m.1 = name) <;> rfl

@[simp] theorem member?_member (f : Form α) (name n : String) (a : α) :
    Json.member? name (.object (f.member n a)) = if n = name then some (f.toJson a) else none := by
  by_cases h : n = name <;> simp [Json.member?, member, h]

@[simp] theorem member?_member? (f : Form α) (name n : String) (a : Option α) :
    Json.member? name (.object (f.member? n a)) = if n = name then a.map f.toJson else none := by
  cases a <;> by_cases h : n = name <;> simp [Json.member?, member?, h]

theorem Lawful.get_eq (h : f.Lawful depth good) {name : String} {j : Json} {a : α} (ha : good a)
    (hj : j.member? name = some (f.toJson a)) : f.get name j = some a := by
  rw [get, hj, Option.bind_some, h.back a ha]

theorem Lawful.get?_eq (h : f.Lawful depth good) {name : String} {j : Json} {a : Option α}
    (ha : ∀ b, a = some b → good b) (hj : j.member? name = a.map f.toJson) :
    f.get? name j = some a := by
  rw [get?, hj]
  cases a with
  | none => rfl
  | some b => exact congrArg (Option.map some) (h.back b (ha b rfl))

/-- What is found under the name of a field fits the field. -/
theorem fits_of_member? (hnodup : (fields.map (·.1)).Nodup)
    (hfilled : Filled (Fits depth) fields members) {field : String × Presence × Shape}
    (hfield : field ∈ fields) {j : Json} (hj : Json.member? field.1 (.object members) = some j) :
    Fits depth field.2.2 j := by
  obtain ⟨m, hm, rfl⟩ := Option.map_eq_some_iff.1 hj
  obtain ⟨g, hg, hname, hfits⟩ := hfilled.exists_field (List.mem_of_find?_eq_some hm)
  have hsame := List.find?_some hm
  obtain rfl : g = field :=
    List.inj_on_of_nodup_map hnodup hg hfield (hname.trans (of_decide_eq_true hsame))
  exact hfits

theorem Lawful.good_of_get (h : f.Lawful depth good) (presence : Presence)
    (hnodup : (fields.map (·.1)).Nodup) (hfilled : Filled (Fits depth) fields members) {name : String}
    (hfield : f.field name presence ∈ fields) {a : α} (ha : f.get name (.object members) = some a) :
    good a := by
  obtain ⟨j, hj, ha⟩ := Option.bind_eq_some_iff.1 ha
  exact h.good_of_fits j a (fits_of_member? hnodup hfilled hfield hj) ha

theorem Lawful.good_of_get? (h : f.Lawful depth good) (presence : Presence)
    (hnodup : (fields.map (·.1)).Nodup) (hfilled : Filled (Fits depth) fields members) {name : String}
    (hfield : f.field name presence ∈ fields) {a : Option α}
    (ha : f.get? name (.object members) = some a) : ∀ b, a = some b → good b := by
  rintro b rfl
  unfold get? at ha
  split at ha
  · rename_i j hj
    obtain ⟨c, hc, heq⟩ := Option.map_eq_some_iff.1 ha
    cases heq
    exact h.good_of_fits j b (fits_of_member? hnodup hfilled hfield hj) hc
  · cases ha

end

end Form

end Tenancy.Json
