import Mathlib.Data.String.Basic
import Mathlib.Order.Basic
import Tenancy.Json.Shape
import Tenancy.Proofs.Json.Scan

/-!
# Values of any kind are read back

A proper value is one that JSON can hold: integers of 64 bits, members sorted by name, and not too
many containers inside each other. Proper values are read back from their text (`reads_readAny`), and
nothing else is read (`proper_of_readAny`).
-/

namespace Tenancy.Json

open Text

/-- Members sorted by name, no name twice. -/
def Sorted (members : List (String × Json)) : Prop := (members.map (·.1)).Pairwise (· < ·)

/-- A value that can be read, with at most `depth` containers inside each other. -/
inductive Proper : Nat → Json → Prop
  | null {depth} : Proper depth .null
  | bool {depth b} : Proper depth (.bool b)
  | int {depth n} : -9223372036854775808 ≤ n → n < 18446744073709551616 → Proper depth (.int n)
  | real {depth} {n : Numeral} : n.Real → Proper depth (.real n.chars)
  | text {depth s} : Proper depth (.text s)
  | list {depth items} : (∀ j ∈ items, Proper depth j) → Proper (depth + 1) (.list items)
  | object {depth members} : Sorted members → (∀ m ∈ members, Proper depth m.2) →
      Proper (depth + 1) (.object members)

/-! ## Steps of reading -/

theorem bind_eq_ok {α β : Type} {x : Reading α} {f : α → Reading β} {b : β} :
    (x >>= f) = .ok b ↔ ∃ a, x = .ok a ∧ f a = .ok b := by
  constructor
  · intro h
    cases x with
    | error e => cases h
    | ok a => exact ⟨a, rfl, h⟩
  · rintro ⟨a, rfl, h⟩
    exact h

theorem ok_bind {α β : Type} (a : α) (f : α → Reading β) : ((.ok a : Reading α) >>= f) = f a := rfl

/-- A character that a value can start with. -/
def Starts (c : Char) : Prop := isSpace c = false ∧ c ≠ ']'

theorem skipSpace_cons {c : Char} (hc : isSpace c = false) (cs : List Char) :
    skipSpace (c :: cs) = c :: cs :=
  List.dropWhile_cons_of_neg (by rw [hc]; exact Bool.false_ne_true)

theorem nextItem_first {c : Char} (hc : Starts c) (cs : List Char) :
    nextItem true (c :: cs) = .ok (.item (c :: cs)) := by
  unfold nextItem
  rw [skipSpace_cons hc.1]
  split
  · rename_i heq
    cases heq
  · rename_i heq
    cases heq
    exact absurd rfl hc.2
  · rename_i heq
    cases heq
    rfl

theorem nextItem_comma {c : Char} (hc : Starts c) (cs : List Char) :
    nextItem false (',' :: c :: cs) = .ok (.item (c :: cs)) := by
  rw [nextItem, skipSpace_cons (by decide)]
  split
  · rename_i heq
    cases heq
  · rename_i heq
    cases heq
  · rename_i heq
    cases heq
    rw [if_neg Bool.false_ne_true, if_pos rfl, skipSpace_cons hc.1]
    split
    · rename_i heq
      cases heq
    · rename_i heq
      cases heq
      exact absurd rfl hc.2
    · rfl

theorem nextName_first (cs : List Char) : nextName true ('"' :: cs) = .ok (.item cs) := rfl

theorem nextName_comma (cs : List Char) : nextName false (',' :: '"' :: cs) = .ok (.item cs) := rfl

theorem readColon_colon (cs : List Char) : readColon (':' :: cs) = .ok cs := rfl

/-! ## Lists and objects -/

/-- The items behind the first ones of a list. -/
def moreItems (items : List Json) : List Char :=
  if items = [] then [] else ',' :: itemChars items

theorem itemChars_cons (j : Json) (items : List Json) :
    itemChars (j :: items) = chars j ++ moreItems items := by
  cases items <;> simp [itemChars, moreItems]

/-- The members behind the first ones of an object. -/
def moreMembers (members : List (String × Json)) : List Char :=
  if members = [] then [] else ',' :: memberChars members

theorem memberChars_cons (m : String × Json) (members : List (String × Json)) :
    memberChars (m :: members) =
      '"' :: (m.1.toList.flatMap escape ++ '"' :: ':' :: (chars m.2 ++ moreMembers members)) := by
  obtain ⟨name, j⟩ := m
  cases members <;> simp [memberChars, pairChars, moreMembers, quote]

theorem ends_moreItems (items : List Json) (rest : List Char) :
    Ends (moreItems items ++ ']' :: rest) := by
  unfold moreItems
  split
  · rintro c ⟨⟩
    decide
  · rintro c ⟨⟩
    decide

theorem ends_moreMembers (members : List (String × Json)) (rest : List Char) :
    Ends (moreMembers members ++ '}' :: rest) := by
  unfold moreMembers
  split
  · rintro c ⟨⟩
    decide
  · rintro c ⟨⟩
    decide

/-- The text of the value starts as a value does and is read back. -/
structure Reads (item : List Char → Reading (Json × List Char)) (j : Json) : Prop where
  starts : ∃ c cs, chars j = c :: cs ∧ Starts c
  read : ∀ rest, Ends rest → item (chars j ++ rest) = .ok (j, rest)

section

variable {item : List Char → Reading (Json × List Char)}

theorem readItems_item {j : Json} (hread : Reads item j) {fuel : Nat} {first : Bool}
    {cs tail : List Char} (htail : Ends tail)
    (hnext : nextItem first cs = .ok (.item (chars j ++ tail))) :
    readItems item (fuel + 1) first cs = (do
      let (items, cs) ← readItems item fuel false tail
      .ok (j :: items, cs)) := by
  rw [readItems, hnext, ok_bind]
  simp only
  rw [hread.read tail htail, ok_bind]

theorem readItems_more (items : List Json) : ∀ fuel, items.length < fuel →
    (∀ j ∈ items, Reads item j) → ∀ rest : List Char,
      readItems item fuel false (moreItems items ++ ']' :: rest) = .ok (items, ']' :: rest) := by
  induction items with
  | nil =>
    intro fuel hfuel _ rest
    obtain ⟨fuel, rfl⟩ : ∃ k, fuel = k + 1 := ⟨fuel - 1, by omega⟩
    rfl
  | cons j items ih =>
    intro fuel hfuel hreads rest
    obtain ⟨fuel, rfl⟩ : ∃ k, fuel = k + 1 := ⟨fuel - 1, by omega⟩
    have hj := hreads j List.mem_cons_self
    obtain ⟨c, cs, hcs, hc⟩ := hj.starts
    have hnext : nextItem false (moreItems (j :: items) ++ ']' :: rest) =
        .ok (.item (chars j ++ (moreItems items ++ ']' :: rest))) := by
      rw [moreItems, if_neg (List.cons_ne_nil j items), itemChars_cons, hcs]
      simpa using nextItem_comma hc (cs ++ (moreItems items ++ ']' :: rest))
    rw [readItems_item hj (ends_moreItems items rest) hnext,
      ih fuel (by simpa using hfuel) (fun k hk => hreads k (List.mem_cons_of_mem j hk)) rest]
    rfl

theorem readItems_chars {items : List Json} {fuel : Nat} (hfuel : items.length < fuel)
    (hreads : ∀ j ∈ items, Reads item j) (rest : List Char) :
    readItems item fuel true (itemChars items ++ ']' :: rest) = .ok (items, ']' :: rest) := by
  obtain ⟨fuel, rfl⟩ : ∃ k, fuel = k + 1 := ⟨fuel - 1, by omega⟩
  cases items with
  | nil => rfl
  | cons j items =>
    have hj := hreads j List.mem_cons_self
    obtain ⟨c, cs, hcs, hc⟩ := hj.starts
    have hnext : nextItem true (itemChars (j :: items) ++ ']' :: rest) =
        .ok (.item (chars j ++ (moreItems items ++ ']' :: rest))) := by
      rw [itemChars_cons, hcs]
      simpa using nextItem_first hc (cs ++ (moreItems items ++ ']' :: rest))
    rw [readItems_item hj (ends_moreItems items rest) hnext,
      readItems_more items fuel (by simpa using hfuel)
        (fun k hk => hreads k (List.mem_cons_of_mem j hk)) rest]
    rfl

theorem readMembers_member {m : String × Json} (hread : Reads item m.2) {fuel : Nat} {first : Bool}
    {cs tail : List Char} (htail : Ends tail)
    (hnext : nextName first cs =
      .ok (.item (m.1.toList.flatMap escape ++ '"' :: ':' :: (chars m.2 ++ tail)))) :
    readMembers item (fuel + 1) first cs = (do
      let (members, cs) ← readMembers item fuel false tail
      .ok (m :: members, cs)) := by
  rw [readMembers, hnext, ok_bind]
  simp only
  rw [readText_quote, ok_bind]
  simp only
  rw [readColon_colon, ok_bind, hread.read tail htail, ok_bind]

theorem nextName_memberChars (m : String × Json) (members : List (String × Json)) (rest : List Char) :
    nextName true (memberChars (m :: members) ++ '}' :: rest) =
      .ok (.item (m.1.toList.flatMap escape ++
        '"' :: ':' :: (chars m.2 ++ (moreMembers members ++ '}' :: rest)))) := by
  rw [memberChars_cons]
  simpa using nextName_first _

theorem nextName_moreMembers (m : String × Json) (members : List (String × Json)) (rest : List Char) :
    nextName false (moreMembers (m :: members) ++ '}' :: rest) =
      .ok (.item (m.1.toList.flatMap escape ++
        '"' :: ':' :: (chars m.2 ++ (moreMembers members ++ '}' :: rest)))) := by
  rw [moreMembers, if_neg (List.cons_ne_nil m members), memberChars_cons]
  simpa using nextName_comma _

theorem readMembers_more (members : List (String × Json)) : ∀ fuel, members.length < fuel →
    (∀ m ∈ members, Reads item m.2) → ∀ rest : List Char,
      readMembers item fuel false (moreMembers members ++ '}' :: rest) =
        .ok (members, '}' :: rest) := by
  induction members with
  | nil =>
    intro fuel hfuel _ rest
    obtain ⟨fuel, rfl⟩ : ∃ k, fuel = k + 1 := ⟨fuel - 1, by omega⟩
    rfl
  | cons m members ih =>
    intro fuel hfuel hreads rest
    obtain ⟨fuel, rfl⟩ : ∃ k, fuel = k + 1 := ⟨fuel - 1, by omega⟩
    rw [readMembers_member (hreads m List.mem_cons_self) (ends_moreMembers members rest)
        (nextName_moreMembers m members rest),
      ih fuel (by simpa using hfuel) (fun k hk => hreads k (List.mem_cons_of_mem m hk)) rest]
    rfl

theorem readMembers_chars {members : List (String × Json)} {fuel : Nat}
    (hfuel : members.length < fuel) (hreads : ∀ m ∈ members, Reads item m.2) (rest : List Char) :
    readMembers item fuel true (memberChars members ++ '}' :: rest) =
      .ok (members, '}' :: rest) := by
  obtain ⟨fuel, rfl⟩ : ∃ k, fuel = k + 1 := ⟨fuel - 1, by omega⟩
  cases members with
  | nil => rfl
  | cons m members =>
    rw [readMembers_member (hreads m List.mem_cons_self) (ends_moreMembers members rest)
        (nextName_memberChars m members rest),
      readMembers_more members fuel (by simpa using hfuel)
        (fun k hk => hreads k (List.mem_cons_of_mem m hk)) rest]
    rfl

end

/-! ## Sorted members -/

theorem mem_putMember {name : String} {j : Json} {members : List (String × Json)}
    {m : String × Json} (h : m ∈ putMember name j members) : m = (name, j) ∨ m ∈ members := by
  induction members with
  | nil => exact .inl (List.mem_singleton.1 h)
  | cons n members ih =>
    obtain ⟨n, k⟩ := n
    rw [putMember] at h
    split at h
    · exact (List.mem_cons.1 h).imp_right (List.mem_cons_of_mem _)
    · split at h
      · exact List.mem_cons.1 h
      · rcases List.mem_cons.1 h with rfl | h
        · exact .inr List.mem_cons_self
        · exact (ih h).imp_right (List.mem_cons_of_mem _)

theorem Sorted.putMember {members : List (String × Json)} (h : Sorted members) (name : String)
    (j : Json) : Sorted (putMember name j members) := by
  induction members with
  | nil => exact List.pairwise_singleton _ _
  | cons n members ih =>
    obtain ⟨n, k⟩ := n
    obtain ⟨hfirst, hrest⟩ := List.pairwise_cons.1 h
    rw [Json.putMember]
    split
    · rename_i heq
      subst heq
      exact h
    · rename_i hne
      split
      · rename_i hlt
        refine List.pairwise_cons.2 ⟨fun x hx => ?_, h⟩
        rcases List.mem_cons.1 hx with rfl | hx
        · exact hlt
        · exact hlt.trans (hfirst x hx)
      · rename_i hnot
        have hlt : n < name := lt_of_le_of_ne (not_lt.1 hnot) fun heq => hne heq.symm
        refine List.pairwise_cons.2 ⟨fun x hx => ?_, ih hrest⟩
        obtain ⟨m, hm, rfl⟩ := List.mem_map.1 hx
        rcases mem_putMember hm with rfl | hm
        · exact hlt
        · exact hfirst m.1 (List.mem_map_of_mem hm)

/-- A member behind all others is put at the end. -/
theorem putMember_last {name : String} {j : Json} {members : List (String × Json)}
    (h : ∀ m ∈ members, m.1 < name) : putMember name j members = members ++ [(name, j)] := by
  induction members with
  | nil => rfl
  | cons n members ih =>
    obtain ⟨n, k⟩ := n
    have hlt : n < name := h (n, k) List.mem_cons_self
    rw [putMember, if_neg hlt.ne', if_neg hlt.not_gt, ih fun m hm => h m (List.mem_cons_of_mem _ hm)]
    rfl

/-- Sorted members stay as they are. -/
theorem sorted_of_sorted {members : List (String × Json)} (h : Sorted members) :
    sorted members = .object members := by
  have hfold : ∀ (rest acc : List (String × Json)), Sorted (acc ++ rest) →
      rest.foldl (fun acc m => putMember m.1 m.2 acc) acc = acc ++ rest := by
    intro rest
    induction rest with
    | nil => exact fun acc _ => (List.append_nil acc).symm
    | cons m rest ih =>
      intro acc hacc
      have hlt : ∀ n ∈ acc, n.1 < m.1 := by
        intro n hn
        unfold Sorted at hacc
        rw [List.map_append] at hacc
        exact (List.pairwise_append.1 hacc).2.2 n.1 (List.mem_map_of_mem hn) m.1 List.mem_cons_self
      rw [List.foldl_cons, putMember_last hlt, ih]
      · simp
      · simpa using hacc
  rw [sorted, hfold members [] h]
  rfl

/-- What is sorted has only the members that there were. -/
theorem exists_sorted (members : List (String × Json)) :
    ∃ ms, sorted members = .object ms ∧ Sorted ms ∧ ∀ m ∈ ms, m ∈ members := by
  have hfold : ∀ (rest acc : List (String × Json)), Sorted acc →
      Sorted (rest.foldl (fun acc m => putMember m.1 m.2 acc) acc) ∧
        ∀ m ∈ rest.foldl (fun acc m => putMember m.1 m.2 acc) acc, m ∈ rest ∨ m ∈ acc := by
    intro rest
    induction rest with
    | nil => exact fun acc hacc => ⟨hacc, fun m hm => .inr hm⟩
    | cons n rest ih =>
      intro acc hacc
      obtain ⟨hsorted, hmem⟩ := ih _ (hacc.putMember n.1 n.2)
      refine ⟨hsorted, fun m hm => ?_⟩
      rcases hmem m hm with hm | hm
      · exact .inl (List.mem_cons_of_mem n hm)
      · rcases mem_putMember hm with rfl | hm
        · exact .inl List.mem_cons_self
        · exact .inr hm
  obtain ⟨hsorted, hmem⟩ := hfold members [] .nil
  exact ⟨_, rfl, hsorted, fun m hm => (hmem m hm).elim id fun h => by cases h⟩

/-! ## Values -/

theorem isSpace_of_isDigit {c : Char} (h : c.isDigit = true) : isSpace c = false := by
  have hne : ∀ d : Char, d.isDigit = false → c ≠ d := by
    rintro d hd rfl
    rw [h] at hd
    cases hd
  simp only [isSpace, Bool.or_eq_false_iff, decide_eq_false_iff_not]
  exact ⟨⟨⟨hne ' ' (by decide), hne '\n' (by decide)⟩, hne '\t' (by decide)⟩, hne '\r' (by decide)⟩

/-- A character that a number starts with. -/
def StartsNumber (c : Char) : Prop := c = '-' ∨ c.isDigit = true

theorem StartsNumber.ne {c d : Char} (h : StartsNumber c) (hd : d.isDigit = false) (hm : d ≠ '-') :
    c ≠ d := by
  rintro rfl
  rcases h with rfl | h
  · exact hm rfl
  · rw [h] at hd
    cases hd

theorem StartsNumber.starts {c : Char} (h : StartsNumber c) : Starts c := by
  refine ⟨?_, h.ne (by decide) (by decide)⟩
  rcases h with rfl | h
  · decide
  · exact isSpace_of_isDigit h

theorem Numeral.Written.startsNumber {n : Numeral} (h : n.Written) :
    ∃ c cs, n.chars = c :: cs ∧ StartsNumber c := by
  rw [Numeral.chars_eq]
  split
  · exact ⟨_, _, rfl, .inl rfl⟩
  · obtain ⟨c, cs, hcs, hc⟩ := h.whole.exists_cons
    rw [hcs]
    exact ⟨c, _, rfl, .inr hc⟩

theorem startsNumber_signed (n : Int) : ∃ c cs, Text.signed n = c :: cs ∧ StartsNumber c := by
  unfold Text.signed
  split
  · exact ⟨_, _, rfl, .inl rfl⟩
  · obtain ⟨c, cs, hcs, hc⟩ := (isRun_decimal n.natAbs).exists_cons
    exact ⟨c, cs, hcs, .inr hc⟩

theorem readAny_number {c : Char} (hc : StartsNumber c) (depth : Nat) (cs : List Char) :
    readAny (depth + 1) (c :: cs) = readNumber (c :: cs) := by
  rw [readAny, skipSpace_cons hc.starts.1]
  split
  · rename_i heq
    cases heq
  · rename_i heq
    cases heq
    exact absurd rfl (hc.ne (d := 'n') (by decide) (by decide))
  · rename_i heq
    cases heq
    exact absurd rfl (hc.ne (d := 't') (by decide) (by decide))
  · rename_i heq
    cases heq
    exact absurd rfl (hc.ne (d := 'f') (by decide) (by decide))
  · rename_i heq
    cases heq
    exact absurd rfl (hc.ne (d := '"') (by decide) (by decide))
  · rename_i heq
    cases heq
    exact absurd rfl (hc.ne (d := '[') (by decide) (by decide))
  · rename_i heq
    cases heq
    exact absurd rfl (hc.ne (d := '{') (by decide) (by decide))
  · rename_i heq
    cases heq
    exact if_pos hc

theorem length_le_itemChars {items : List Json} (h : ∀ j ∈ items, chars j ≠ []) :
    items.length ≤ (itemChars items).length := by
  induction items with
  | nil => exact Nat.zero_le _
  | cons j items ih =>
    have hj : 0 < (chars j).length := List.length_pos_iff.2 (h j List.mem_cons_self)
    have hrest : items.length ≤ (moreItems items).length := by
      unfold moreItems
      split
      · rename_i hnil
        simp [hnil]
      · exact (ih fun k hk => h k (List.mem_cons_of_mem j hk)).trans (by simp)
    rw [itemChars_cons, List.length_cons, List.length_append]
    omega

theorem length_le_memberChars (members : List (String × Json)) :
    members.length ≤ (memberChars members).length := by
  induction members with
  | nil => exact Nat.zero_le _
  | cons m members ih =>
    have hrest : members.length ≤ (moreMembers members).length := by
      unfold moreMembers
      split
      · rename_i hnil
        simp [hnil]
      · exact ih.trans (by simp)
    rw [memberChars_cons]
    simp only [List.length_cons, List.length_append]
    omega

theorem readClosing_self {c : Char} (hc : isSpace c = false) (rest : List Char) :
    readClosing c (c :: rest) = .ok rest := by
  rw [readClosing, skipSpace_cons hc]
  exact if_pos rfl

/-- A list is read back, where its items are. -/
theorem readAny_list {depth : Nat} {items : List Json}
    (hreads : ∀ j ∈ items, Reads (readAny (depth + 1)) j) (rest : List Char) :
    readAny (depth + 2) (chars (.list items) ++ rest) = .ok (.list items, rest) := by
  have hne : ∀ j ∈ items, chars j ≠ [] := by
    intro j hj
    obtain ⟨c, cs, hcs, -⟩ := (hreads j hj).starts
    exact hcs ▸ List.cons_ne_nil c cs
  have hlen : items.length < (itemChars items ++ ']' :: rest).length + 1 := by
    have := length_le_itemChars hne
    simp only [List.length_append]
    omega
  have hchars : chars (.list items) ++ rest = '[' :: (itemChars items ++ ']' :: rest) := by
    simp [chars]
  have hread : readAny (depth + 2) ('[' :: (itemChars items ++ ']' :: rest)) =
      (do
        let (items, cs) ← readItems (readAny (depth + 1)) ((itemChars items ++ ']' :: rest).length + 1)
          true (itemChars items ++ ']' :: rest)
        .ok (.list items, ← readClosing ']' cs)) := rfl
  rw [hchars, hread, readItems_chars hlen hreads rest, ok_bind]
  simp only
  rw [readClosing_self (by decide), ok_bind]

/-- An object is read back, where its members are. -/
theorem readAny_object {depth : Nat} {members : List (String × Json)} (hsorted : Sorted members)
    (hreads : ∀ m ∈ members, Reads (readAny (depth + 1)) m.2) (rest : List Char) :
    readAny (depth + 2) (chars (.object members) ++ rest) = .ok (.object members, rest) := by
  have hlen : members.length < (memberChars members ++ '}' :: rest).length + 1 := by
    have := length_le_memberChars members
    simp only [List.length_append]
    omega
  have hchars : chars (.object members) ++ rest = '{' :: (memberChars members ++ '}' :: rest) := by
    simp [chars]
  have hread : readAny (depth + 2) ('{' :: (memberChars members ++ '}' :: rest)) =
      (do
        let (members, cs) ← readMembers (readAny (depth + 1))
          ((memberChars members ++ '}' :: rest).length + 1) true (memberChars members ++ '}' :: rest)
        .ok (sorted members, ← readClosing '}' cs)) := rfl
  rw [hchars, hread, readMembers_chars hlen hreads rest, ok_bind]
  simp only
  rw [readClosing_self (by decide), ok_bind, sorted_of_sorted hsorted]

/-- Proper values are read back, whatever follows them. -/
theorem reads_readAny {depth : Nat} {j : Json} (h : Proper depth j) :
    Reads (readAny (depth + 1)) j := by
  induction h with
  | null => exact ⟨⟨_, _, rfl, by decide, by decide⟩, fun rest _ => rfl⟩
  | @bool _ b => cases b <;> exact ⟨⟨_, _, rfl, by decide, by decide⟩, fun rest _ => rfl⟩
  | @int _ n h₀ h₁ =>
    obtain ⟨c, cs, hcs, hc⟩ := startsNumber_signed n
    refine ⟨⟨c, cs, hcs, hc.starts⟩, fun rest hrest => ?_⟩
    rw [← readNumber_int h₀ h₁ hrest, chars, hcs]
    exact readAny_number hc _ _
  | @real _ n h =>
    obtain ⟨c, cs, hcs, hc⟩ := h.toWritten.startsNumber
    refine ⟨⟨c, cs, hcs, hc.starts⟩, fun rest hrest => ?_⟩
    rw [← readNumber_real h hrest, chars, hcs]
    exact readAny_number hc _ _
  | @text depth s =>
    refine ⟨⟨_, _, rfl, by decide, by decide⟩, fun rest _ => ?_⟩
    have hchars : chars (.text s) ++ rest = '"' :: (s.toList.flatMap escape ++ '"' :: rest) := by
      simp [chars, quote]
    have hread : readAny (depth + 1) ('"' :: (s.toList.flatMap escape ++ '"' :: rest)) =
        readText (s.toList.flatMap escape ++ '"' :: rest) >>= fun read => .ok (.text read.1, read.2) :=
      rfl
    rw [hchars, hread, readText_quote, ok_bind]
  | list _ ih => exact ⟨⟨_, _, rfl, by decide, by decide⟩, fun rest _ => readAny_list ih rest⟩
  | object hsorted _ ih =>
    exact ⟨⟨_, _, rfl, by decide, by decide⟩, fun rest _ => readAny_object hsorted ih rest⟩

/-! ## What is read -/

section

variable {item : List Char → Reading (Json × List Char)} {P : Json → Prop}

/-- Every item read is one that `item` reads. -/
theorem forall_of_readItems (hitem : ∀ {cs j rest}, item cs = .ok (j, rest) → P j) {fuel : Nat} :
    ∀ {first : Bool} {cs rest : List Char} {items : List Json},
      readItems item fuel first cs = .ok (items, rest) → ∀ j ∈ items, P j := by
  induction fuel with
  | zero => exact fun h => nomatch h
  | succ fuel ih =>
    intro first cs rest items h
    rw [readItems] at h
    obtain ⟨next, -, h⟩ := bind_eq_ok.1 h
    cases next with
    | ended cs' =>
      cases h
      exact fun _ hj => nomatch hj
    | item cs' =>
      obtain ⟨⟨j, cs₁⟩, hj, h⟩ := bind_eq_ok.1 h
      obtain ⟨⟨js, cs₂⟩, hjs, h⟩ := bind_eq_ok.1 h
      cases h
      exact List.forall_mem_cons.2 ⟨hitem hj, ih hjs⟩

/-- Every member read holds a value that `item` reads. -/
theorem forall_of_readMembers (hitem : ∀ {cs j rest}, item cs = .ok (j, rest) → P j) {fuel : Nat} :
    ∀ {first : Bool} {cs rest : List Char} {members : List (String × Json)},
      readMembers item fuel first cs = .ok (members, rest) → ∀ m ∈ members, P m.2 := by
  induction fuel with
  | zero => exact fun h => nomatch h
  | succ fuel ih =>
    intro first cs rest members h
    rw [readMembers] at h
    obtain ⟨next, -, h⟩ := bind_eq_ok.1 h
    cases next with
    | ended cs' =>
      cases h
      exact fun _ hj => nomatch hj
    | item cs' =>
      obtain ⟨⟨name, cs₁⟩, -, h⟩ := bind_eq_ok.1 h
      obtain ⟨cs₂, -, h⟩ := bind_eq_ok.1 h
      obtain ⟨⟨j, cs₃⟩, hj, h⟩ := bind_eq_ok.1 h
      obtain ⟨⟨ms, cs₄⟩, hms, h⟩ := bind_eq_ok.1 h
      cases h
      exact List.forall_mem_cons.2 ⟨hitem hj, ih hms⟩

end

/-- Only proper values are read. -/
theorem proper_of_readAny {depth : Nat} : ∀ {cs rest : List Char} {j : Json},
    readAny (depth + 1) cs = .ok (j, rest) → Proper depth j := by
  induction depth using Nat.strongRecOn with
  | ind depth ih =>
    intro cs rest j h
    rw [readAny] at h
    split at h
    · cases h
    · obtain ⟨_, -, h⟩ := bind_eq_ok.1 h
      cases h
      exact .null
    · obtain ⟨_, -, h⟩ := bind_eq_ok.1 h
      cases h
      exact .bool
    · obtain ⟨_, -, h⟩ := bind_eq_ok.1 h
      cases h
      exact .bool
    · obtain ⟨_, -, h⟩ := bind_eq_ok.1 h
      cases h
      exact .text
    · cases depth with
      | zero => cases h
      | succ depth =>
        obtain ⟨⟨items, _⟩, hitems, h⟩ := bind_eq_ok.1 h
        obtain ⟨_, -, h⟩ := bind_eq_ok.1 h
        cases h
        exact .list (forall_of_readItems (ih depth (Nat.lt_succ_self depth)) hitems)
    · cases depth with
      | zero => cases h
      | succ depth =>
        obtain ⟨⟨members, _⟩, hmembers, h⟩ := bind_eq_ok.1 h
        obtain ⟨_, -, h⟩ := bind_eq_ok.1 h
        cases h
        obtain ⟨ms, heq, hsorted, hmem⟩ := exists_sorted members
        rw [heq]
        exact .object hsorted fun m hm =>
          forall_of_readMembers (ih depth (Nat.lt_succ_self depth)) hmembers m (hmem m hm)
    · split at h
      · rcases readNumber_cases h with ⟨n, rfl, h₀, h₁⟩ | ⟨n, rfl, hn⟩
        · exact .int h₀ h₁
        · exact .real hn
      · cases h

end Tenancy.Json
