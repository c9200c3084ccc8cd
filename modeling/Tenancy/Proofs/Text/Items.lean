import Mathlib.Data.List.Basic
import Tenancy.Proofs.Rpc.Caller
import Tenancy.Settings.Basic

/-!
# Items between commas

A list in one text is cut at its commas, and the blanks around each item are dropped. On bytes it is
cut in the same places, as no other character has the byte of a comma in its encoding
(`Text.splitOn_encode`); `Text.trim_eq_iff` says what is left of an item.
-/

namespace Tenancy

namespace Text

/-! ## Without blanks at the ends -/

/-- `core` is a part of `cs` with only blanks around it, and without a blank at its own ends. -/
def IsCore (cs core : List Char) : Prop :=
  ∃ front back, cs = front ++ core ++ back ∧
    (∀ c ∈ front, isBlank c = true) ∧ (∀ c ∈ back, isBlank c = true) ∧
    (∀ c ∈ core.head?, isBlank c = false) ∧ (∀ c ∈ core.getLast?, isBlank c = false)

theorem trimStart_eq_self {cs : List Char} (h : ∀ c ∈ cs.head?, isBlank c = false) :
    trimStart cs = cs := by
  cases cs with
  | nil => rfl
  | cons c cs => exact List.dropWhile_cons_of_neg (by simp [h c rfl])

theorem trimStart_append {front : List Char} (h : ∀ c ∈ front, isBlank c = true)
    (cs : List Char) : trimStart (front ++ cs) = trimStart cs :=
  List.dropWhile_append_of_pos h

theorem exists_trimStart (cs : List Char) :
    ∃ front, cs = front ++ trimStart cs ∧ (∀ c ∈ front, isBlank c = true) ∧
      ∀ c ∈ (trimStart cs).head?, isBlank c = false := by
  refine ⟨cs.takeWhile isBlank, List.takeWhile_append_dropWhile.symm,
    List.all_eq_true.1 List.all_takeWhile, fun c hc => ?_⟩
  have hhead := List.head?_dropWhile_not isBlank cs
  rw [trimStart] at hc
  rw [hc] at hhead
  simpa using hhead

theorem isCore_trim (cs : List Char) : IsCore cs (trim cs) := by
  obtain ⟨front, hcs, hfront, hhead⟩ := exists_trimStart cs
  obtain ⟨back, hrest, hback, hlast⟩ := exists_trimStart (trimStart cs).reverse
  have hmiddle : trimStart cs = trim cs ++ back.reverse := by
    rw [← List.reverse_inj, List.reverse_append, trim, List.reverse_reverse, List.reverse_reverse,
      ← hrest]
  refine ⟨front, back.reverse, ?_, hfront, fun c hc => hback c (List.mem_reverse.1 hc),
    fun c hc => hhead c ?_, fun c hc => hlast c ?_⟩
  · rw [List.append_assoc, ← hmiddle, ← hcs]
  · rw [hmiddle, List.head?_append]
    exact Option.mem_def.2 (by rw [Option.mem_def.1 hc, Option.some_or])
  · rw [trim, List.getLast?_reverse] at hc
    exact hc

theorem IsCore.trim_eq {cs core : List Char} (h : IsCore cs core) : trim cs = core := by
  obtain ⟨front, back, rfl, hfront, hback, hhead, hlast⟩ := h
  have hback' : ∀ c ∈ back.reverse, isBlank c = true := fun c hc => hback c (List.mem_reverse.1 hc)
  rw [trim, List.append_assoc, trimStart_append hfront]
  cases core with
  | nil =>
    have hnil : trimStart back = [] := by
      have hall := trimStart_append hback []
      rwa [List.append_nil] at hall
    rw [List.nil_append, hnil]
    rfl
  | cons c core =>
    have hstarts : trimStart (c :: core ++ back) = c :: core ++ back := trimStart_eq_self hhead
    rw [hstarts, List.reverse_append, trimStart_append hback', trimStart_eq_self,
      List.reverse_reverse]
    rwa [List.head?_reverse]

/-- Trimming leaves the core. -/
theorem trim_eq_iff {cs core : List Char} : trim cs = core ↔ IsCore cs core :=
  ⟨fun h => h ▸ isCore_trim cs, IsCore.trim_eq⟩

/-! ## Cutting -/

section Cut

variable {α : Type} [DecidableEq α]

theorem splitOn_cons (sep a : α) (rest : List α) :
    (a :: rest).splitOn sep =
      if a = sep then [] :: rest.splitOn sep else (rest.splitOn sep).modifyHead (a :: ·) := by
  simp only [List.splitOn, List.splitOnP_cons_eq_if_modifyHead, beq_iff_eq]

/-- What has no separator in front goes with the first piece. -/
theorem splitOn_append {sep : α} {front : List α} (h : sep ∉ front) (rest : List α) :
    (front ++ rest).splitOn sep = (rest.splitOn sep).modifyHead (front ++ ·) := by
  induction front with
  | nil => exact (congrFun List.modifyHead_id _).symm
  | cons a front ih =>
    obtain ⟨ha, hfront⟩ := not_or.1 (mt List.mem_cons.2 h)
    rw [List.cons_append, splitOn_cons, if_neg (Ne.symm ha), ih hfront, List.modifyHead_modifyHead]
    rfl

end Cut

theorem splitOn_eq (sep : Char) (cs : List Char) : splitOn sep cs = cs.splitOn sep := by
  induction cs with
  | nil => rfl
  | cons c cs ih =>
    rw [splitOn, splitOn_cons, ih]
    by_cases hc : c = sep
    · rw [if_pos hc, if_pos hc]
    · rw [if_neg hc, if_neg hc]
      cases hsplit : cs.splitOn sep with
      | nil => exact absurd hsplit (List.splitOnP_ne_nil _ _)
      | cons piece pieces => rfl

/-- The byte of a comma. -/
def comma : UInt8 := 0x2C

/-- Bytes of longer encodings are above those of single ones. -/
theorem comma_notMem_utf8EncodeChar {c : Char} (h : c ≠ ',') :
    comma ∉ String.utf8EncodeChar c := by
  have hne : c.val.toNat ≠ 44 := by
    intro heq
    refine h (Char.ext (UInt32.toNat_inj.1 ?_))
    rw [heq]
    rfl
  intro hmem
  unfold String.utf8EncodeChar at hmem
  simp only [comma] at hmem
  split_ifs at hmem <;>
    simp only [List.mem_cons, List.not_mem_nil, or_false, ← UInt8.toNat_inj, UInt8.toNat_ofNat',
      UInt8.reduceToNat] at hmem <;> omega

theorem splitOn_encode (cs : List Char) :
    (Utf8.encode (String.ofList cs)).splitOn comma =
      (splitOn ',' cs).map fun piece => Utf8.encode (String.ofList piece) := by
  rw [splitOn_eq]
  induction cs with
  | nil => rfl
  | cons c cs ih =>
    rw [Rpc.encode_ofList_cons, splitOn_cons]
    by_cases hc : c = ','
    · subst hc
      have hsep : String.utf8EncodeChar ',' = [comma] := by decide
      rw [hsep, List.singleton_append, splitOn_cons, if_pos rfl, if_pos rfl, ih]
      rfl
    · rw [splitOn_append (comma_notMem_utf8EncodeChar hc), ih, if_neg hc]
      cases cs.splitOn ',' with
      | nil => rfl
      | cons piece pieces =>
        exact congrArg (· :: pieces.map _) (Rpc.encode_ofList_cons c piece).symm

end Text

/-! ## Texts and their bytes -/

theorem Utf8.decode_eq_some_iff {bytes : Utf8.Bytes} {s : String} :
    Utf8.decode bytes = some s ↔ Utf8.encode s = bytes := by
  refine ⟨fun h => ?_, fun h => h ▸ Utf8.decode_encode s⟩
  unfold Utf8.decode String.fromUTF8? at h
  split at h
  · cases h
    rfl
  · cases h

theorem Utf8.encode_injective : Utf8.encode.Injective := fun s s' h =>
  Option.some.inj ((Utf8.decode_encode s).symm.trans (h ▸ Utf8.decode_encode s'))

end Tenancy
