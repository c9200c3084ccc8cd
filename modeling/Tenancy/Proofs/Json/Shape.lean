import Mathlib.Data.List.Nodup
import Tenancy.Proofs.Json.Value
import Tenancy.Proofs.Time.Timestamp

/-!
# Values of a shape are read back

A value fits a shape when it is one that reading by the shape can give: a record has its members in
the order of the fields, and only fields that may be absent are left out. For a regular shape, whose
fields are told apart by name and whose absent fields cannot be mistaken for values, a fitting value is
read back from its text (`reads_readShape`), and only fitting values are read (`fits_of_readShape`).
-/

namespace Tenancy.Json

open Text

/-- The members are the values of the fields in order, without those of some fields that may be
absent. -/
inductive Filled (P : Shape → Json → Prop) :
    List (String × Presence × Shape) → List (String × Json) → Prop
  | nil : Filled P [] []
  | present {name presence shape fields j members} : P shape j → Filled P fields members →
      Filled P ((name, presence, shape) :: fields) ((name, j) :: members)
  | absent {name presence shape fields members} : presence ≠ .required → Filled P fields members →
      Filled P ((name, presence, shape) :: fields) members

/-- A value of the shape, with at most `depth` containers inside each other. -/
def Fits : Nat → Shape → Json → Prop
  | _, .text, j => ∃ s, j = .text s
  | _, .flag, j => ∃ b, j = .bool b
  | _, .count, j => ∃ n : Nat, n < 18446744073709551616 ∧ j = .int n
  | _, .time, j => ∃ t : Timestamp, t.Proper ∧ j = .text t.text
  | depth, .any, j => Proper depth j
  | _, .choice names, j => ∃ s ∈ names, j = .text s
  | 0, .record _, _ => False
  | depth + 1, .record fields, j =>
    ∃ members, Filled (Fits depth) fields members ∧ j = .object members

/-- Fields have different names, and a field that may be absent is not of any kind: its null would be
read as its absence. -/
inductive Shape.Regular : Shape → Prop
  | text : Regular .text
  | flag : Regular .flag
  | count : Regular .count
  | time : Regular .time
  | any : Regular .any
  | choice {names} : Regular (.choice names)
  | record {fields : List (String × Presence × Shape)} : (fields.map (·.1)).Nodup →
      (∀ f ∈ fields, Regular f.2.2) → (∀ f ∈ fields, f.2.1 ≠ .required → f.2.2 ≠ .any) →
      Regular (.record fields)

attribute [simp] Shape.Regular.text Shape.Regular.flag Shape.Regular.count Shape.Regular.time
  Shape.Regular.any Shape.Regular.choice

/-! ## Fields and members -/

section

variable {P : Shape → Json → Prop} {fields : List (String × Presence × Shape)}
  {members : List (String × Json)}

/-- Every member is the value of a field. -/
theorem Filled.exists_field (h : Filled P fields members) {m : String × Json} (hm : m ∈ members) :
    ∃ f ∈ fields, f.1 = m.1 ∧ P f.2.2 m.2 := by
  induction h with
  | nil => cases hm
  | present hj _ ih =>
    rcases List.mem_cons.1 hm with rfl | hm
    · exact ⟨_, List.mem_cons_self, rfl, hj⟩
    · obtain ⟨f, hf, h⟩ := ih hm
      exact ⟨f, List.mem_cons_of_mem _ hf, h⟩
  | absent _ _ ih =>
    obtain ⟨f, hf, h⟩ := ih hm
    exact ⟨f, List.mem_cons_of_mem _ hf, h⟩

theorem Filled.mem_names (h : Filled P fields members) {name : String}
    (hname : name ∈ members.map (·.1)) : name ∈ fields.map (·.1) := by
  obtain ⟨m, hm, rfl⟩ := List.mem_map.1 hname
  obtain ⟨f, hf, heq, -⟩ := h.exists_field hm
  exact heq ▸ List.mem_map_of_mem hf

theorem Filled.nodup (h : Filled P fields members) (hnodup : (fields.map (·.1)).Nodup) :
    (members.map (·.1)).Nodup := by
  induction h with
  | nil => exact List.nodup_nil
  | present _ hrest ih =>
    obtain ⟨hnot, hnodup⟩ := List.nodup_cons.1 hnodup
    exact List.nodup_cons.2 ⟨fun hmem => hnot (hrest.mem_names hmem), ih hnodup⟩
  | absent _ _ ih => exact ih (List.nodup_cons.1 hnodup).2

/-- A field that has to be there has a member. -/
theorem Filled.mem_of_required (h : Filled P fields members) {f : String × Presence × Shape}
    (hf : f ∈ fields) (hrequired : f.2.1 = .required) : f.1 ∈ members.map (·.1) := by
  induction h with
  | nil => cases hf
  | present _ _ ih =>
    rcases List.mem_cons.1 hf with rfl | hf
    · exact List.mem_cons_self
    · exact List.mem_cons_of_mem _ (ih hf)
  | absent hnot _ ih =>
    rcases List.mem_cons.1 hf with rfl | hf
    · exact absurd hrequired hnot
    · exact ih hf

/-- Looking the fields up one by one gives the members. -/
theorem Filled.filterMap_eq (h : Filled P fields members) (hnodup : (fields.map (·.1)).Nodup)
    (value : String → Option Json) (hsome : ∀ m ∈ members, value m.1 = some m.2)
    (hnone : ∀ f ∈ fields, f.1 ∉ members.map (·.1) → value f.1 = none) :
    fields.filterMap (fun f => (value f.1).map fun j => (f.1, j)) = members := by
  induction h with
  | nil => rfl
  | @present name _ _ fields j members _ hrest ih =>
    obtain ⟨hnot, hnodup⟩ := List.nodup_cons.1 hnodup
    have hvalue : value name = some j := hsome (name, j) List.mem_cons_self
    rw [List.filterMap_cons_some (b := (name, j)) (by rw [hvalue]; rfl)]
    congr 1
    refine ih hnodup (fun m hm => hsome m (List.mem_cons_of_mem _ hm)) fun f hf hmem => ?_
    refine hnone f (List.mem_cons_of_mem _ hf) fun hcons => ?_
    rcases List.mem_cons.1 hcons with heq | hmem'
    · exact hnot (heq ▸ List.mem_map_of_mem hf)
    · exact hmem hmem'
  | @absent name _ _ fields members _ hrest ih =>
    obtain ⟨hnot, hnodup⟩ := List.nodup_cons.1 hnodup
    have hvalue : value name = none :=
      hnone _ List.mem_cons_self fun hmem => hnot (hrest.mem_names hmem)
    rw [List.filterMap_cons_none (by rw [hvalue]; rfl)]
    exact ih hnodup hsome fun f hf => hnone f (List.mem_cons_of_mem _ hf)

theorem find?_field (hnodup : (fields.map (·.1)).Nodup) {f : String × Presence × Shape}
    (hf : f ∈ fields) : fields.find? (fun g => decide (g.1 = f.1)) = some f := by
  induction fields with
  | nil => cases hf
  | cons g fields ih =>
    obtain ⟨hnot, hnodup⟩ := List.nodup_cons.1 hnodup
    rcases List.mem_cons.1 hf with rfl | hf
    · exact List.find?_cons_of_pos (decide_eq_true rfl)
    · have hne : g.1 ≠ f.1 := fun heq => hnot (List.mem_map.2 ⟨f, hf, heq.symm⟩)
      rw [List.find?_cons_of_neg (by simpa using hne), ih hnodup hf]

end

/-! ## Assembling a record -/

/-- What is got once all members are read. -/
def Got.ofMembers (members : List (String × Json)) : Got := members.map fun m => (m.1, some m.2)

/-- The value of a name, where it has one. -/
def Got.value (got : Got) (name : String) : Option Json :=
  (got.find? (fun g => decide (g.1 = name))).bind (·.2)

theorem any_ofMembers {members : List (String × Json)} {name : String} :
    (Got.ofMembers members).any (fun g => decide (g.1 = name)) = true ↔
      name ∈ members.map (·.1) := by
  simp [Got.ofMembers]

/-- A name that is got once has its value. -/
theorem value_ofMembers {members : List (String × Json)} (hnodup : (members.map (·.1)).Nodup)
    {m : String × Json} (hm : m ∈ members) : (Got.ofMembers members).value m.1 = some m.2 := by
  induction members with
  | nil => cases hm
  | cons n members ih =>
    obtain ⟨hnot, hnodup⟩ := List.nodup_cons.1 hnodup
    rcases List.mem_cons.1 hm with rfl | hm
    · simp [Got.ofMembers, Got.value]
    · have hne : n.1 ≠ m.1 := fun heq => hnot (List.mem_map.2 ⟨m, hm, heq.symm⟩)
      have hih := ih hnodup hm
      rw [Got.value, Got.ofMembers] at hih ⊢
      rw [List.map_cons, List.find?_cons_of_neg (by simpa using hne), hih]

theorem value_ofMembers_none {members : List (String × Json)} {name : String}
    (h : name ∉ members.map (·.1)) : (Got.ofMembers members).value name = none := by
  have hnone : (Got.ofMembers members).find? (fun g => decide (g.1 = name)) = none := by
    rw [List.find?_eq_none]
    intro g hg heq
    exact h (any_ofMembers.1 (List.any_eq_true.2 ⟨g, hg, heq⟩))
  rw [Got.value, hnone]
  rfl

/-- The members in any order make the record. -/
theorem assemble_ofMembers {P : Shape → Json → Prop} {fields : List (String × Presence × Shape)}
    {members read : List (String × Json)} (h : Filled P fields members)
    (hnodup : (fields.map (·.1)).Nodup) (hperm : read.Perm members) :
    assemble fields (Got.ofMembers read) = .ok (.object members) := by
  have hread : (read.map (·.1)).Nodup := (hperm.map _).nodup_iff.2 (h.nodup hnodup)
  have hnames : ∀ {name}, name ∈ read.map (·.1) ↔ name ∈ members.map (·.1) := (hperm.map _).mem_iff
  have hall : (fields.all fun f => f.2.1 ≠ .required ||
      (Got.ofMembers read).any (fun g => decide (g.1 = f.1))) = true := by
    rw [List.all_eq_true]
    intro f hf
    by_cases hrequired : f.2.1 = .required
    · rw [Bool.or_eq_true]
      exact .inr (any_ofMembers.2 (hnames.2 (h.mem_of_required hf hrequired)))
    · simp [hrequired]
  rw [assemble, if_pos hall]
  have hvalues := h.filterMap_eq hnodup (Got.ofMembers read).value
    (fun m hm => value_ofMembers hread (hperm.mem_iff.2 hm))
    (fun f _ hf => value_ofMembers_none fun hmem => hf (hnames.1 hmem))
  exact congrArg (fun ms => Except.ok (Json.object ms)) hvalues

/-- What is got comes from the fields: a value that fits one, or the absence of one that allows it. -/
def Got.From (P : Shape → Json → Prop) (fields : List (String × Presence × Shape)) (got : Got) :
    Prop :=
  ∀ g ∈ got, ∃ f ∈ fields, f.1 = g.1 ∧ (∀ j, g.2 = some j → P f.2.2 j) ∧
    (g.2 = none → f.2.1 ≠ .required)

theorem Got.From.cons {P : Shape → Json → Prop} {fields : List (String × Presence × Shape)}
    {got : Got} (h : got.From P fields) {f : String × Presence × Shape} (hf : f ∈ fields)
    {value : Option Json} (hsome : ∀ j, value = some j → P f.2.2 j)
    (hnone : value = none → f.2.1 ≠ .required) : Got.From P fields ((f.1, value) :: got) :=
  List.forall_mem_cons.2 ⟨⟨f, hf, rfl, hsome, hnone⟩, h⟩

/-- A record that is assembled is filled. -/
theorem filled_of_assemble {P : Shape → Json → Prop} {fields : List (String × Presence × Shape)}
    (hnodup : (fields.map (·.1)).Nodup) {got : Got} (hgot : got.From P fields) {j : Json}
    (h : assemble fields got = .ok j) : ∃ members, Filled P fields members ∧ j = .object members := by
  unfold assemble at h
  split at h
  · rename_i hall
    cases h
    refine ⟨_, ?_, rfl⟩
    have hunique : ∀ {f g : String × Presence × Shape}, f ∈ fields → g ∈ fields → f.1 = g.1 → f = g :=
      fun hf hg heq => List.inj_on_of_nodup_map hnodup hf hg heq
    -- one field after the other, from the end
    suffices hsub : ∀ fs, (∀ f ∈ fs, f ∈ fields) → Filled P fs (fs.filterMap fun f =>
        ((got.find? (fun g => decide (g.1 = f.1))).bind (·.2)).map fun j => (f.1, j)) from
      hsub fields fun _ hf => hf
    intro fs
    induction fs with
    | nil => exact fun _ => .nil
    | cons f fs ih =>
      intro hfs
      obtain ⟨hf, hrest⟩ := List.forall_mem_cons.1 hfs
      cases hfind : got.find? (fun g => decide (g.1 = f.1)) with
      | none =>
        rw [List.filterMap_cons_none (by rw [hfind]; rfl)]
        refine .absent (fun hrequired => ?_) (ih hrest)
        have hany := (List.all_eq_true.1 hall) f hf
        rw [List.find?_eq_none] at hfind
        simp only [hrequired, ne_eq, not_true_eq_false, decide_false, Bool.false_or,
          List.any_eq_true] at hany
        obtain ⟨g, hg, heq⟩ := hany
        exact hfind g hg heq
      | some g =>
        obtain ⟨f', hf', heq, hsome, hnone⟩ := hgot g (List.mem_of_find?_eq_some hfind)
        have hg : g.1 = f.1 := by
          have hname := List.find?_some hfind
          exact of_decide_eq_true hname
        obtain rfl : f' = f := hunique hf' hf (heq.trans hg)
        cases hvalue : g.2 with
        | none =>
          rw [List.filterMap_cons_none (by rw [hfind, Option.bind_some, hvalue]; rfl)]
          exact .absent (hnone hvalue) (ih hrest)
        | some j =>
          rw [List.filterMap_cons_some (b := (f'.1, j)) (by rw [hfind, Option.bind_some, hvalue]; rfl)]
          exact .present (hsome j hvalue) (ih hrest)
  · cases h

/-! ## Reading back a record -/

section

variable {read : Shape → List Char → Reading (Json × List Char)}
  {fields : List (String × Presence × Shape)}

/-- A value is read back as the value of its field, as long as its text is not taken for a null. -/
theorem readField_chars {presence : Presence} {shape : Shape} {j : Json} (h : Reads (read shape) j)
    (hnull : presence ≠ .required → (chars j).head? ≠ some 'n') {rest : List Char} (hrest : Ends rest) :
    readField read presence shape (chars j ++ rest) = .ok (some j, rest) := by
  unfold readField
  split
  · rw [h.read rest hrest, ok_bind]
  · rename_i hpresence
    obtain ⟨c, cs, hcs, hc⟩ := h.starts
    have hn : c ≠ 'n' := by
      rintro rfl
      exact hnull hpresence (congrArg List.head? hcs)
    have hread := h.read rest hrest
    rw [hcs, List.cons_append] at hread ⊢
    rw [skipSpace_cons hc.1]
    split
    · rename_i heq
      cases heq
      exact absurd rfl hn
    · rw [hread, ok_bind]

/-- The member is the value of a field, and is read back as such. -/
def ReadsField (read : Shape → List Char → Reading (Json × List Char))
    (fields : List (String × Presence × Shape)) (m : String × Json) : Prop :=
  ∃ presence shape, fields.find? (fun f => decide (f.1 = m.1)) = some (m.1, presence, shape) ∧
    ∀ rest, Ends rest → readField read presence shape (chars m.2 ++ rest) = .ok (some m.2, rest)

theorem readNamed_member {m : String × Json} (hm : ReadsField read fields m) {fuel : Nat}
    {first : Bool} {got : Got} (hgot : got.any (fun g => decide (g.1 = m.1)) = false)
    {cs tail : List Char} (htail : Ends tail)
    (hnext : nextName first cs =
      .ok (.item (m.1.toList.flatMap escape ++ '"' :: ':' :: (chars m.2 ++ tail)))) :
    readNamed read fields (fuel + 1) first got cs =
      readNamed read fields fuel false ((m.1, some m.2) :: got) tail := by
  obtain ⟨presence, shape, hfind, hread⟩ := hm
  rw [readNamed, hnext, ok_bind]
  simp only
  rw [readText_quote, ok_bind]
  simp only
  rw [hfind]
  simp only
  rw [hgot, if_neg Bool.false_ne_true, readColon_colon, ok_bind, hread _ htail, ok_bind]

theorem readNamed_more (members : List (String × Json)) : ∀ (fuel : Nat)
    (before : List (String × Json)), members.length < fuel → (∀ m ∈ members, ReadsField read fields m) →
      ((members.reverse ++ before).map (·.1)).Nodup → ∀ rest : List Char,
        readNamed read fields fuel false (.ofMembers before) (moreMembers members ++ '}' :: rest) =
          .ok (.ofMembers (members.reverse ++ before), '}' :: rest) := by
  induction members with
  | nil =>
    intro fuel before hfuel _ _ rest
    obtain ⟨fuel, rfl⟩ : ∃ k, fuel = k + 1 := ⟨fuel - 1, by omega⟩
    rfl
  | cons m members ih =>
    intro fuel before hfuel hreads hnodup rest
    obtain ⟨fuel, rfl⟩ : ∃ k, fuel = k + 1 := ⟨fuel - 1, by omega⟩
    have hswap : (m :: members).reverse ++ before = members.reverse ++ (m :: before) := by simp
    rw [hswap] at hnodup ⊢
    have hnot : m.1 ∉ before.map (·.1) := by
      rw [List.map_append] at hnodup
      exact (List.nodup_cons.1 (List.nodup_append.1 hnodup).2.1).1
    rw [readNamed_member (hreads m List.mem_cons_self)
      (Bool.eq_false_iff.2 fun hany => hnot (any_ofMembers.1 hany)) (ends_moreMembers members rest)
      (nextName_moreMembers m members rest)]
    exact ih fuel (m :: before) (by simpa using hfuel)
      (fun n hn => hreads n (List.mem_cons_of_mem m hn)) hnodup rest

theorem readNamed_chars {members : List (String × Json)} {fuel : Nat}
    (hfuel : members.length < fuel) (hreads : ∀ m ∈ members, ReadsField read fields m)
    (hnodup : (members.map (·.1)).Nodup) (rest : List Char) :
    readNamed read fields fuel true [] (memberChars members ++ '}' :: rest) =
      .ok (.ofMembers members.reverse, '}' :: rest) := by
  obtain ⟨fuel, rfl⟩ : ∃ k, fuel = k + 1 := ⟨fuel - 1, by omega⟩
  cases members with
  | nil => rfl
  | cons m members =>
    have hswap : (m :: members).reverse = members.reverse ++ [m] := List.reverse_cons
    rw [readNamed_member (hreads m List.mem_cons_self) rfl (ends_moreMembers members rest)
      (nextName_memberChars m members rest), hswap]
    refine readNamed_more members fuel [m] (by simpa using hfuel)
      (fun n hn => hreads n (List.mem_cons_of_mem m hn)) ?_ rest
    rw [← hswap]
    exact ((List.reverse_perm (m :: members)).map (·.1)).nodup_iff.2 hnodup

end

/-- A value of a shape that is not of any kind does not start as null does. -/
theorem Fits.head?_ne {depth : Nat} {shape : Shape} {j : Json} (h : Fits depth shape j)
    (hany : shape ≠ .any) : (chars j).head? ≠ some 'n' := by
  cases shape with
  | text =>
    rw [Fits] at h
    obtain ⟨s, rfl⟩ := h
    exact fun heq => absurd (Option.some.inj heq) (by decide)
  | flag =>
    rw [Fits] at h
    obtain ⟨b, rfl⟩ := h
    cases b <;> exact fun heq => absurd (Option.some.inj heq) (by decide)
  | count =>
    rw [Fits] at h
    obtain ⟨n, -, rfl⟩ := h
    obtain ⟨c, cs, hcs, hc⟩ := startsNumber_signed n
    rw [chars, hcs]
    exact fun heq => hc.ne (by decide) (by decide) (Option.some.inj heq)
  | time =>
    rw [Fits] at h
    obtain ⟨t, -, rfl⟩ := h
    exact fun heq => absurd (Option.some.inj heq) (by decide)
  | any => exact absurd rfl hany
  | choice names =>
    rw [Fits] at h
    obtain ⟨s, -, rfl⟩ := h
    exact fun heq => absurd (Option.some.inj heq) (by decide)
  | record fields =>
    cases depth with
    | zero => exact h.elim
    | succ depth =>
      obtain ⟨members, -, rfl⟩ := h
      exact fun heq => absurd (Option.some.inj heq) (by decide)

theorem chars_text (s : String) (rest : List Char) :
    chars (.text s) ++ rest = '"' :: (s.toList.flatMap escape ++ '"' :: rest) := by
  simp [chars, quote]

/-- A record is read back, where the values of its fields are. -/
theorem readShape_record {depth : Nat} {fields : List (String × Presence × Shape)}
    {members : List (String × Json)} (hnodup : (fields.map (·.1)).Nodup)
    (hfilled : Filled (Fits depth) fields members)
    (hreads : ∀ m ∈ members, ReadsField (readShape (depth + 1)) fields m) (rest : List Char) :
    readShape (depth + 2) (.record fields) (chars (.object members) ++ rest) =
      .ok (.object members, rest) := by
  have hlen : members.length < (memberChars members ++ '}' :: rest).length + 1 := by
    have := length_le_memberChars members
    simp only [List.length_append]
    omega
  have hchars : chars (.object members) ++ rest = '{' :: (memberChars members ++ '}' :: rest) := by
    simp [chars]
  have hread : readShape (depth + 2) (.record fields) ('{' :: (memberChars members ++ '}' :: rest)) =
      readNamed (readShape (depth + 1)) fields ((memberChars members ++ '}' :: rest).length + 1) true []
          (memberChars members ++ '}' :: rest) >>= fun read =>
        assemble fields read.1 >>= fun j => readClosing '}' read.2 >>= fun cs => .ok (j, cs) := rfl
  rw [hchars, hread, readNamed_chars hlen hreads (hfilled.nodup hnodup) rest, ok_bind]
  simp only
  rw [assemble_ofMembers hfilled hnodup (List.reverse_perm members), ok_bind,
    readClosing_self (by decide), ok_bind]

/-- Fitting values of a regular shape are read back, whatever follows them. -/
theorem reads_readShape {shape : Shape} (hshape : shape.Regular) : ∀ {depth : Nat} {j : Json},
    Fits depth shape j → Reads (readShape (depth + 1) shape) j := by
  induction hshape with
  | text =>
    intro depth j h
    rw [Fits] at h
    obtain ⟨s, rfl⟩ := h
    refine ⟨⟨_, _, rfl, by decide, by decide⟩, fun rest _ => ?_⟩
    have hread : readShape (depth + 1) .text ('"' :: (s.toList.flatMap escape ++ '"' :: rest)) =
        readText (s.toList.flatMap escape ++ '"' :: rest) >>= fun read => .ok (.text read.1, read.2) :=
      rfl
    rw [chars_text, hread, readText_quote, ok_bind]
  | flag =>
    intro depth j h
    rw [Fits] at h
    obtain ⟨b, rfl⟩ := h
    cases b <;> exact ⟨⟨_, _, rfl, by decide, by decide⟩, fun rest _ => rfl⟩
  | count =>
    intro depth j h
    rw [Fits] at h
    obtain ⟨n, hn, rfl⟩ := h
    obtain ⟨c, cs, hcs, hc⟩ := startsNumber_signed n
    refine ⟨⟨c, cs, hcs, hc.starts⟩, fun rest hrest => ?_⟩
    have hnumber := readNumber_int (n := n) (by omega) (by omega) hrest
    have hdigit : c = '-' ∨ c.isDigit = true := hc
    rw [hcs, List.cons_append] at hnumber
    rw [chars, hcs, List.cons_append, readShape, skipSpace_cons hc.starts.1]
    simp only
    rw [if_pos hdigit, hnumber, ok_bind]
    exact if_pos (Int.natCast_nonneg n)
  | time =>
    intro depth j h
    rw [Fits] at h
    obtain ⟨t, ht, rfl⟩ := h
    refine ⟨⟨_, _, rfl, by decide, by decide⟩, fun rest _ => ?_⟩
    rw [chars_text, readShape, skipSpace_cons (by decide)]
    simp only
    rw [if_pos trivial, readText_quote, ok_bind]
    simp only
    rw [Timestamp.ofText?_text ht]
  | any =>
    intro depth j hj
    rw [Fits] at hj
    obtain ⟨⟨c, cs, hcs, hc⟩, hread⟩ := reads_readAny hj
    refine ⟨⟨c, cs, hcs, hc⟩, fun rest hrest => ?_⟩
    have hread := hread rest hrest
    rw [hcs, List.cons_append] at hread ⊢
    rw [readShape, skipSpace_cons hc.1]
    exact hread
  | @choice names =>
    intro depth j h
    rw [Fits] at h
    obtain ⟨s, hs, rfl⟩ := h
    refine ⟨⟨_, _, rfl, by decide, by decide⟩, fun rest _ => ?_⟩
    have hread : readShape (depth + 1) (.choice names)
        ('"' :: (s.toList.flatMap escape ++ '"' :: rest)) =
          readChoice names (s.toList.flatMap escape ++ '"' :: rest) := rfl
    rw [chars_text, hread, readChoice, readText_quote, ok_bind]
    exact if_pos (List.contains_iff_mem.2 hs)
  | @record fields hnodup _ hnull ih =>
    intro depth j hj
    cases depth with
    | zero => exact hj.elim
    | succ depth =>
      obtain ⟨members, hfilled, rfl⟩ := hj
      refine ⟨⟨_, _, rfl, by decide, by decide⟩, fun rest _ => ?_⟩
      refine readShape_record hnodup hfilled (fun m hm => ?_) rest
      obtain ⟨f, hf, hname, hfits⟩ := hfilled.exists_field hm
      refine ⟨f.2.1, f.2.2, ?_, fun rest hrest => ?_⟩
      · rw [← hname]
        exact find?_field hnodup hf
      · exact readField_chars (ih f hf hfits)
          (fun hpresence => hfits.head?_ne (hnull f hf hpresence)) hrest

/-! ## What is read -/

section

variable {read : Shape → List Char → Reading (Json × List Char)} {P : Shape → Json → Prop}
  {fields : List (String × Presence × Shape)}

/-- What is read as the value of a field fits it, and only a field that allows it is read as absent. -/
theorem of_readField {presence : Presence} {shape : Shape}
    (hread : ∀ {cs j rest}, read shape cs = .ok (j, rest) → P shape j)
    {cs rest : List Char} {value : Option Json}
    (h : readField read presence shape cs = .ok (value, rest)) :
    (∀ j, value = some j → P shape j) ∧ (value = none → presence ≠ .required) := by
  unfold readField at h
  split at h
  · obtain ⟨⟨j, _⟩, hj, h⟩ := bind_eq_ok.1 h
    cases h
    exact ⟨fun k hk => Option.some.inj hk ▸ hread hj, fun hk => nomatch hk⟩
  · rename_i hpresence
    split at h
    · obtain ⟨_, -, h⟩ := bind_eq_ok.1 h
      cases h
      exact ⟨fun k hk => (nomatch hk), fun _ => hpresence⟩
    · obtain ⟨⟨j, _⟩, hj, h⟩ := bind_eq_ok.1 h
      cases h
      exact ⟨fun k hk => Option.some.inj hk ▸ hread hj, fun hk => nomatch hk⟩

theorem from_of_readNamed
    (hread : ∀ f ∈ fields, ∀ {cs j rest}, read f.2.2 cs = .ok (j, rest) → P f.2.2 j) {fuel : Nat} :
    ∀ {first : Bool} {got got' : Got} {cs rest : List Char}, got.From P fields →
      readNamed read fields fuel first got cs = .ok (got', rest) → got'.From P fields := by
  induction fuel with
  | zero => exact fun _ h => nomatch h
  | succ fuel ih =>
    intro first got got' cs rest hgot h
    rw [readNamed] at h
    obtain ⟨next, -, h⟩ := bind_eq_ok.1 h
    cases next with
    | ended cs' =>
      cases h
      exact hgot
    | item cs' =>
      obtain ⟨⟨name, cs₁⟩, -, h⟩ := bind_eq_ok.1 h
      dsimp only at h
      split at h
      · rename_i n presence shape hfind
        have hf : (n, presence, shape) ∈ fields := List.mem_of_find?_eq_some hfind
        have hname := List.find?_some hfind
        obtain rfl : n = name := of_decide_eq_true hname
        split at h
        · cases h
        · obtain ⟨_, -, h⟩ := bind_eq_ok.1 h
          obtain ⟨⟨value, _⟩, hvalue, h⟩ := bind_eq_ok.1 h
          obtain ⟨hsome, hnone⟩ := of_readField (hread _ hf) hvalue
          exact ih (hgot.cons hf hsome hnone) h
      · obtain ⟨_, -, h⟩ := bind_eq_ok.1 h
        obtain ⟨_, -, h⟩ := bind_eq_ok.1 h
        exact ih hgot h

theorem from_of_readPositional (fs : List (String × Presence × Shape)) (hfs : ∀ f ∈ fs, f ∈ fields)
    (hread : ∀ f ∈ fields, ∀ {cs j rest}, read f.2.2 cs = .ok (j, rest) → P f.2.2 j) :
    ∀ {first : Bool} {got : Got} {cs rest : List Char},
      readPositional read fs first cs = .ok (got, rest) → got.From P fields := by
  induction fs with
  | nil =>
    intro first got cs rest h
    cases h
    exact fun _ hg => nomatch hg
  | cons f fs ih =>
    obtain ⟨name, presence, shape⟩ := f
    obtain ⟨hf, hfs⟩ := List.forall_mem_cons.1 hfs
    intro first got cs rest h
    rw [readPositional] at h
    obtain ⟨next, -, h⟩ := bind_eq_ok.1 h
    cases next with
    | ended cs' =>
      dsimp only at h
      split at h
      · rename_i hpresence
        obtain ⟨⟨got', _⟩, hgot, h⟩ := bind_eq_ok.1 h
        cases h
        refine (ih hfs hgot).cons hf (fun j hj => nomatch hj) fun _ hrequired => ?_
        cases hpresence.symm.trans hrequired
      · cases h
    | item cs' =>
      obtain ⟨⟨value, _⟩, hvalue, h⟩ := bind_eq_ok.1 h
      obtain ⟨⟨got', _⟩, hgot, h⟩ := bind_eq_ok.1 h
      cases h
      obtain ⟨hsome, hnone⟩ := of_readField (hread _ hf) hvalue
      exact (ih hfs hgot).cons hf hsome hnone

end

theorem of_readChoice {names : List String} {cs rest : List Char} {j : Json}
    (h : readChoice names cs = .ok (j, rest)) : ∃ s ∈ names, j = .text s := by
  obtain ⟨⟨s, _⟩, -, h⟩ := bind_eq_ok.1 h
  dsimp only at h
  split at h
  · rename_i hs
    cases h
    exact ⟨s, List.contains_iff_mem.1 hs, rfl⟩
  · cases h

/-- Only fitting values are read. -/
theorem fits_of_readShape {shape : Shape} (hshape : shape.Regular) :
    ∀ {depth : Nat} {cs rest : List Char} {j : Json},
      readShape (depth + 1) shape cs = .ok (j, rest) → Fits depth shape j := by
  induction hshape with
  | text =>
    intro depth cs rest j h
    rw [readShape] at h
    split at h
    · cases h
    · dsimp only at h
      split at h
      · obtain ⟨⟨s, _⟩, -, h⟩ := bind_eq_ok.1 h
        cases h
        rw [Fits]
        exact ⟨s, rfl⟩
      · cases h
  | flag =>
    intro depth cs rest j h
    rw [readShape] at h
    split at h
    · cases h
    · dsimp only at h
      split at h
      · obtain ⟨_, -, h⟩ := bind_eq_ok.1 h
        cases h
        rw [Fits]
        exact ⟨true, rfl⟩
      · split at h
        · obtain ⟨_, -, h⟩ := bind_eq_ok.1 h
          cases h
          rw [Fits]
          exact ⟨false, rfl⟩
        · cases h
  | count =>
    intro depth cs rest j h
    rw [readShape] at h
    split at h
    · cases h
    · dsimp only at h
      split at h
      · obtain ⟨⟨k, _⟩, hk, h⟩ := bind_eq_ok.1 h
        dsimp only at h
        split at h
        · split at h
          · rename_i n hn
            cases h
            rcases readNumber_cases hk with ⟨i, heq, -, hlt⟩ | ⟨_, heq, -⟩
            · cases heq
              rw [Fits]
              exact ⟨n.toNat, by omega, by rw [Int.toNat_of_nonneg hn]⟩
            · cases heq
          · cases h
        · cases h
      · cases h
  | time =>
    intro depth cs rest j h
    rw [readShape] at h
    split at h
    · cases h
    · dsimp only at h
      split at h
      · obtain ⟨⟨s, _⟩, -, h⟩ := bind_eq_ok.1 h
        dsimp only at h
        split at h
        · rename_i t ht
          cases h
          rw [Fits]
          exact ⟨t, Timestamp.proper_of_ofText? ht, rfl⟩
        · cases h
      · cases h
  | any =>
    intro depth cs rest j h
    rw [readShape] at h
    split at h
    · cases h
    · rw [Fits]
      exact proper_of_readAny h
  | choice =>
    intro depth cs rest j h
    rw [readShape] at h
    rw [Fits]
    split at h
    · cases h
    · dsimp only at h
      split at h
      · exact of_readChoice h
      · split at h
        · split at h
          · cases h
          · split at h
            · cases h
            · obtain ⟨⟨k, _⟩, hk, h⟩ := bind_eq_ok.1 h
              obtain ⟨_, -, h⟩ := bind_eq_ok.1 h
              split at h
              · cases h
              · obtain ⟨_, -, h⟩ := bind_eq_ok.1 h
                obtain ⟨_, -, h⟩ := bind_eq_ok.1 h
                cases h
                exact of_readChoice hk
              · cases h
            · cases h
        · cases h
  | @record fields hnodup _ _ ih =>
    intro depth cs rest j h
    rw [readShape] at h
    split at h
    · cases h
    · cases depth with
      | zero =>
        dsimp only at h
        split at h
        · cases h
        · split at h <;> cases h
      | succ depth =>
        have hread : ∀ f ∈ fields, ∀ {cs j rest}, readShape (depth + 1) f.2.2 cs = .ok (j, rest) →
            Fits depth f.2.2 j := fun f hf _ _ _ h => ih f hf h
        dsimp only at h
        split at h
        · obtain ⟨⟨got, _⟩, hgot, h⟩ := bind_eq_ok.1 h
          obtain ⟨k, hk, h⟩ := bind_eq_ok.1 h
          obtain ⟨_, -, h⟩ := bind_eq_ok.1 h
          cases h
          exact filled_of_assemble hnodup
            (from_of_readPositional fields (fun _ hf => hf) hread hgot) hk
        · split at h
          · obtain ⟨⟨got, _⟩, hgot, h⟩ := bind_eq_ok.1 h
            obtain ⟨k, hk, h⟩ := bind_eq_ok.1 h
            obtain ⟨_, -, h⟩ := bind_eq_ok.1 h
            cases h
            exact filled_of_assemble hnodup
              (from_of_readNamed hread (List.forall_mem_nil _) hgot) hk
          · cases h

end Tenancy.Json
