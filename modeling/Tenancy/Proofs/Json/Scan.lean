import Tenancy.Json.Scan
import Tenancy.Proofs.Digits

/-!
# Texts and numbers are read back

A quoted text is read back as it was (`readText_quote`), and so is a number, where nothing follows
that it could go on with (`readNumber_int`, `readNumber_real`). Of what is read as a number, an
integer fits 64 bits, and any other keeps its digits (`readNumber_cases`).
-/

namespace Tenancy.Json

open Text

/-! ## Quoted text -/

theorem ofNat_toNat (c : Char) : Char.ofNat c.toNat = c := by
  have hvalid : c.toNat.isValidChar := c.valid
  rw [Char.ofNat, dif_pos hvalid]
  rfl

/-- Four digits of a number below 32, and the values of the last two. -/
theorem hexPadded_control : ∀ n < 32, ∃ a b, hexPadded 4 n = ['0', '0', a, b] ∧
    hexValue? a = some (n / 16) ∧ hexValue? b = some (n % 16) := by
  have htable : ∀ n < 32, hexPadded 4 n =
      ['0', '0', Nat.digitChar (n / 16), Nat.digitChar (n % 16)] ∧
      hexValue? (Nat.digitChar (n / 16)) = some (n / 16) ∧
      hexValue? (Nat.digitChar (n % 16)) = some (n % 16) := by decide
  exact fun n hn => ⟨_, _, htable n hn⟩

/-- Four characters are four bytes at least. -/
theorem fewerBytes_four (a b c d : Char) (cs : List Char) :
    fewerBytes 4 (a :: b :: c :: d :: cs) = false := by
  have ha := Char.utf8Size_pos a
  have hb := Char.utf8Size_pos b
  have hc := Char.utf8Size_pos c
  have hd := Char.utf8Size_pos d
  simp only [fewerBytes, List.take_succ_cons, List.take_zero, List.map_cons, List.map_nil,
    List.foldr_cons, List.foldr_nil, decide_eq_false_iff_not]
  omega

theorem readTextFrom_control {c : Char} (hc : c.toNat < 32) (cs : List Char) :
    readTextFrom .plain ('\\' :: 'u' :: hexPadded 4 c.toNat ++ cs) =
      push c (readTextFrom .plain cs) := by
  obtain ⟨a, b, hpad, ha, hb⟩ := hexPadded_control c.toNat hc
  have hzero : hexValue? '0' = some 0 := by decide
  have hvalue : ((0 * 16 + 0) * 16 + 0) * 16 + c.toNat / 16 = c.toNat / 16 := by omega
  have hmeaning : unitMeaning (c.toNat / 16 * 16 + c.toNat % 16) none = some (.inl c) := by
    have hsum : c.toNat / 16 * 16 + c.toNat % 16 = c.toNat := by omega
    rw [hsum, unitMeaning, if_neg (by omega), if_neg (by omega), ofNat_toNat]
  rw [hpad]
  simp only [List.cons_append, List.nil_append]
  have hopen : readTextFrom .plain ('\\' :: 'u' :: '0' :: '0' :: a :: b :: cs) =
      readTextFrom (.hex 0 0 none) ('0' :: '0' :: a :: b :: cs) := by
    simp [readTextFrom, fewerBytes_four]
  rw [hopen, readTextFrom, hzero]
  simp only
  rw [if_pos (by decide), readTextFrom, hzero]
  simp only
  rw [if_pos (by decide), readTextFrom, ha]
  simp only
  rw [if_pos (by decide), readTextFrom, hb]
  simp only
  rw [if_neg (by decide), hvalue, hmeaning]

/-- A character is read back from how it is written inside quotes. -/
theorem readTextFrom_escape (c : Char) (cs : List Char) :
    readTextFrom .plain (escape c ++ cs) = push c (readTextFrom .plain cs) := by
  have hshort : ∀ d e, e ≠ 'u' → shortEscape? e = some d →
      readTextFrom .plain ('\\' :: e :: cs) = push d (readTextFrom .plain cs) := by
    intro d e he hd
    simp [readTextFrom, he, hd]
  have hcode : ∀ n, c.toNat = n → c = Char.ofNat n := fun n hn => hn ▸ (ofNat_toNat c).symm
  unfold escape
  split
  · rename_i hc
    exact hc ▸ hshort '"' '"' (by decide) rfl
  split
  · rename_i hc
    exact hc ▸ hshort '\\' '\\' (by decide) rfl
  split
  · rename_i hc
    exact hc ▸ hshort '\n' 'n' (by decide) rfl
  split
  · rename_i hc
    exact hc ▸ hshort '\r' 'r' (by decide) rfl
  split
  · rename_i hc
    exact hc ▸ hshort '\t' 't' (by decide) rfl
  split
  · rename_i hc
    rw [hcode 8 hc]
    exact hshort (Char.ofNat 8) 'b' (by decide) rfl
  split
  · rename_i hc
    rw [hcode 12 hc]
    exact hshort (Char.ofNat 12) 'f' (by decide) rfl
  split
  · rename_i hc
    exact readTextFrom_control hc cs
  · rename_i hquote hslash _ _ _ _ _ hcontrol
    rw [List.singleton_append, readTextFrom, if_neg hquote, if_neg hslash, if_neg hcontrol]

theorem readText_quote (s : String) (rest : List Char) :
    readText (s.toList.flatMap escape ++ '"' :: rest) = .ok (s, rest) := by
  have hall : ∀ cs : List Char,
      readTextFrom .plain (cs.flatMap escape ++ '"' :: rest) = .ok (cs, rest) := by
    intro cs
    induction cs with
    | nil => rfl
    | cons c cs ih =>
      rw [List.flatMap_cons, List.append_assoc, readTextFrom_escape, ih]
      rfl
  rw [readText, hall]
  simp only [Except.bind, bind, String.ofList_toList]

/-! ## Numbers -/

/-- What may follow a number: nothing that would belong to it. -/
def Ends (rest : List Char) : Prop :=
  ∀ c ∈ rest.head?, c.isDigit = false ∧ c ≠ '.' ∧ c ≠ 'e' ∧ c ≠ 'E'

namespace Numeral

/-- A number as JSON writes one. -/
structure Written (n : Numeral) : Prop where
  whole : IsRun n.whole
  zero : n.whole.head? = some '0' → n.whole = ['0']
  fraction : ∀ ds, n.fraction = some ds → IsRun ds
  exponent : ∀ sign ds, n.exponent = some (sign, ds) →
    IsRun ds ∧ ∀ s, sign = some s → s = '+' ∨ s = '-'

def fractionChars : Option (List Char) → List Char
  | some ds => '.' :: ds
  | none => []

def exponentChars : Option (Option Char × List Char) → List Char
  | some (sign, ds) => 'e' :: (sign.toList ++ ds)
  | none => []

theorem chars_eq (n : Numeral) : n.chars = (if n.negative then ['-'] else []) ++
    (n.whole ++ (fractionChars n.fraction ++ exponentChars n.exponent)) := by
  obtain ⟨negative, whole, fraction, exponent⟩ := n
  cases fraction <;> rcases exponent with _ | ⟨_ | sign, ds⟩ <;> simp [chars, fractionChars, exponentChars]

end Numeral

theorem readFraction_chars {fraction : Option (List Char)}
    (h : ∀ ds, fraction = some ds → IsRun ds) {rest : List Char}
    (hrest : ∀ c ∈ rest.head?, c.isDigit = false ∧ c ≠ '.') :
    readFraction (Numeral.fractionChars fraction ++ rest) = .ok (fraction, rest) := by
  cases fraction with
  | none =>
    rw [Numeral.fractionChars, List.nil_append]
    unfold readFraction
    split
    · exact absurd rfl (hrest '.' rfl).2
    · rfl
  | some ds =>
    obtain ⟨hne, hdigits⟩ := h ds rfl
    obtain ⟨htake, hdrop⟩ := takeWhile_run hdigits fun c hc => (hrest c hc).1
    rw [Numeral.fractionChars, List.cons_append, readFraction, digitsOf, htake, hdrop]
    exact if_neg hne

theorem readExponent_chars {exponent : Option (Option Char × List Char)}
    (h : ∀ sign ds, exponent = some (sign, ds) →
      IsRun ds ∧ ∀ s, sign = some s → s = '+' ∨ s = '-') {rest : List Char} (hrest : Ends rest) :
    readExponent (Numeral.exponentChars exponent ++ rest) = .ok (exponent, rest) := by
  cases exponent with
  | none =>
    rw [Numeral.exponentChars, List.nil_append]
    cases rest with
    | nil => rfl
    | cons c rest =>
      obtain ⟨-, -, he, hE⟩ := hrest c rfl
      simp [readExponent, he, hE]
  | some x =>
    obtain ⟨sign, ds⟩ := x
    obtain ⟨hrun, hsign⟩ := h sign ds rfl
    obtain ⟨htake, hdrop⟩ := takeWhile_run hrun.2 fun c hc => (hrest c hc).1
    cases sign with
    | none =>
      obtain ⟨d, cs, hds, hd⟩ := hrun.exists_cons
      have hnot : d ≠ '+' ∧ d ≠ '-' := by
        constructor <;> rintro rfl <;> exact absurd hd (by decide)
      have hread : digitsOf (d :: (cs ++ rest)) = (ds, rest) := by
        rw [← List.cons_append, ← hds]
        exact Prod.ext htake hdrop
      simp only [Numeral.exponentChars, Option.toList_none, List.nil_append, hds, List.cons_append]
      simp [readExponent, hnot.1, hnot.2, hread, hds]
    | some s =>
      have hread : digitsOf (ds ++ rest) = (ds, rest) := Prod.ext htake hdrop
      simp [Numeral.exponentChars, readExponent, hsign s rfl, hread, hrun.1]

/-- A number behind its sign. -/
def readUnsigned (negative : Bool) (cs : List Char) : Reading (Numeral × List Char) :=
  if (digitsOf cs).1 = [] then .error (stopAt (digitsOf cs).2)
  else if (digitsOf cs).1.head? = some '0' ∧ (digitsOf cs).1 ≠ ['0'] then .error .malformed
  else
    (readFraction (digitsOf cs).2).bind fun f =>
      (readExponent f.2).bind fun e => .ok (⟨negative, (digitsOf cs).1, f.1, e.1⟩, e.2)

theorem readNumeral_plain {cs : List Char} (h : cs.head? ≠ some '-') :
    readNumeral cs = readUnsigned false cs := by
  cases cs with
  | nil => rfl
  | cons c cs =>
    have hc : c ≠ '-' := fun heq => h (congrArg some heq)
    unfold readNumeral
    split
    rename_i heq
    split at heq
    · rename_i hcons
      cases hcons
      exact absurd rfl hc
    · cases heq
      rfl

/-- A number is read back, where nothing follows that would belong to it. -/
theorem readNumeral_chars {n : Numeral} (h : n.Written) {rest : List Char} (hrest : Ends rest) :
    readNumeral (n.chars ++ rest) = .ok (n, rest) := by
  obtain ⟨negative, whole, fraction, exponent⟩ := n
  obtain ⟨hwhole, hzero, hfraction, hexponent⟩ := h
  dsimp only at hwhole hzero hfraction hexponent
  have hexp : ∀ c ∈ (Numeral.exponentChars exponent ++ rest).head?, c.isDigit = false ∧ c ≠ '.' := by
    intro c hc
    cases exponent with
    | none => exact ⟨(hrest c hc).1, (hrest c hc).2.1⟩
    | some x =>
      cases hc
      decide
  have hfrac : ∀ c ∈ (Numeral.fractionChars fraction ++
      (Numeral.exponentChars exponent ++ rest)).head?, c.isDigit = false := by
    intro c hc
    cases fraction with
    | none => exact (hexp c hc).1
    | some ds =>
      cases hc
      decide
  have hdigits := takeWhile_run hwhole.2 hfrac
  have hlead : ¬ (whole.head? = some '0' ∧ whole ≠ ['0']) := fun hl => hl.2 (hzero hl.1)
  have hread : readUnsigned negative (whole ++ (Numeral.fractionChars fraction ++
      (Numeral.exponentChars exponent ++ rest))) = .ok (⟨negative, whole, fraction, exponent⟩, rest) := by
    simp only [readUnsigned, digitsOf, hdigits.1, hdigits.2, if_neg hwhole.1, if_neg hlead,
      readFraction_chars hfraction hexp, Except.bind, readExponent_chars hexponent hrest]
  rw [Numeral.chars_eq]
  simp only [List.append_assoc]
  cases negative with
  | true => exact hread
  | false =>
    refine (readNumeral_plain ?_).trans hread
    obtain ⟨d, cs, hds, hd⟩ := hwhole.exists_cons
    simp only [Bool.false_eq_true, if_false, List.nil_append, hds, List.cons_append, List.head?_cons]
    rintro ⟨⟩
    exact absurd hd (by decide)

/-! ## What is read as a number -/

theorem isRun_takeWhile {cs : List Char} (h : cs.takeWhile Char.isDigit ≠ []) :
    IsRun (cs.takeWhile Char.isDigit) := ⟨h, fun c hc => List.all_eq_true.1 List.all_takeWhile c hc⟩

theorem isRun_of_readFraction {cs rest : List Char} {fraction : Option (List Char)}
    (h : readFraction cs = .ok (fraction, rest)) {ds : List Char} (hds : fraction = some ds) :
    IsRun ds := by
  unfold readFraction at h
  split at h
  · dsimp only [digitsOf] at h
    split at h
    · cases h
    · rename_i hne
      cases h
      cases hds
      exact isRun_takeWhile hne
  · cases h
    cases hds

/-- The sign of an exponent, and what follows it. -/
def readSign (cs : List Char) : Option Char × List Char :=
  match cs with
  | s :: rest => if s = '+' ∨ s = '-' then (some s, rest) else (none, s :: rest)
  | [] => (none, [])

theorem readSign_eq_some {cs : List Char} {s : Char} (h : (readSign cs).1 = some s) :
    s = '+' ∨ s = '-' := by
  unfold readSign at h
  split at h
  · split at h
    · rename_i hsign
      cases h
      exact hsign
    · cases h
  · cases h

theorem readExponent_cons (c : Char) (cs : List Char) :
    readExponent (c :: cs) =
      if c = 'e' ∨ c = 'E' then
        if (digitsOf (readSign cs).2).1 = [] then .error (stopAt (digitsOf (readSign cs).2).2)
        else .ok (some ((readSign cs).1, (digitsOf (readSign cs).2).1), (digitsOf (readSign cs).2).2)
      else .ok (none, c :: cs) := rfl

theorem isRun_of_readExponent {cs rest : List Char} {exponent : Option (Option Char × List Char)}
    (h : readExponent cs = .ok (exponent, rest)) {sign : Option Char} {ds : List Char}
    (hds : exponent = some (sign, ds)) : IsRun ds ∧ ∀ s, sign = some s → s = '+' ∨ s = '-' := by
  cases cs with
  | nil =>
    cases h
    cases hds
  | cons c cs =>
    rw [readExponent_cons] at h
    split at h
    · split at h
      · cases h
      · rename_i hne
        cases h
        cases hds
        exact ⟨isRun_takeWhile hne, fun s hs => readSign_eq_some hs⟩
    · cases h
      cases hds

/-- What is read as a number is one. -/
theorem written_of_readNumeral {n : Numeral} {cs rest : List Char}
    (h : readNumeral cs = .ok (n, rest)) : n.Written := by
  have hunsigned : ∀ negative cs, readUnsigned negative cs = .ok (n, rest) → n.Written := by
    intro negative cs h
    unfold readUnsigned at h
    split at h
    · cases h
    rename_i hne
    split at h
    · cases h
    rename_i hlead
    cases hf : readFraction (digitsOf cs).2 with
    | error e =>
      rw [hf] at h
      cases h
    | ok f =>
      rw [hf] at h
      cases he : readExponent f.2 with
      | error e =>
        simp only [Except.bind, he] at h
        cases h
      | ok e =>
        simp only [Except.bind, he] at h
        cases h
        refine ⟨isRun_takeWhile hne, fun hz => ?_, fun ds hds => isRun_of_readFraction hf hds,
          fun sign ds hds => isRun_of_readExponent he hds⟩
        exact Classical.byContradiction fun hnot => hlead ⟨hz, hnot⟩
  by_cases hminus : cs.head? = some '-'
  · obtain ⟨cs', rfl⟩ : ∃ cs', cs = '-' :: cs' := by
      cases cs with
      | nil => cases hminus
      | cons c cs' =>
        cases hminus
        exact ⟨cs', rfl⟩
    exact hunsigned true cs' h
  · rw [readNumeral_plain hminus] at h
    exact hunsigned false cs h

/-! ## Numbers as values -/

/-- Only zero starts with a zero. -/
theorem decimal_of_head? {n : Nat} (h : (decimal n).head? = some '0') : decimal n = ['0'] := by
  have hlead : ∀ n, n ≠ 0 → (decimal n).head? ≠ some '0' := by
    intro n
    induction n using Nat.strongRecOn with
    | ind n ih =>
      intro hn hz
      rcases Nat.lt_or_ge n 10 with hlt | hge
      · have htable : ∀ n < 10, n ≠ 0 → Nat.digitChar n ≠ '0' := by decide
        rw [decimal, Nat.toDigits_of_lt_base hlt] at hz
        exact htable n hlt hn (Option.some.inj hz)
      · obtain ⟨c, cs, hcs, -⟩ := (isRun_decimal (n / 10)).exists_cons
        have hhead : (decimal n).head? = (decimal (n / 10)).head? := by
          rw [decimal, Nat.toDigits_of_base_le (by decide) hge, ← decimal, hcs]
          rfl
        exact ih (n / 10) (by omega) (by omega) (hhead ▸ hz)
  rcases Nat.eq_zero_or_pos n with rfl | hpos
  · rfl
  · exact absurd h (hlead n (by omega))

theorem readNumber_int {n : Int} (h₀ : -9223372036854775808 ≤ n) (h₁ : n < 18446744073709551616)
    {rest : List Char} (hrest : Ends rest) :
    readNumber (Text.signed n ++ rest) = .ok (.int n, rest) := by
  let numeral : Numeral := ⟨decide (n < 0), decimal n.natAbs, none, none⟩
  have hwritten : numeral.Written :=
    ⟨isRun_decimal _, decimal_of_head?, fun _ h => (nomatch h), fun _ _ h => (nomatch h)⟩
  have hchars : Text.signed n = numeral.chars := by
    by_cases hn : n < 0 <;> simp [Text.signed, numeral, Numeral.chars, hn]
  have hvalue : numeral.toInt? = some n := by
    have hsize : UInt64.size = 18446744073709551616 := rfl
    simp only [Numeral.toInt?, numeral, value_decimal, hsize, decide_eq_true_eq]
    rw [if_neg (by simp)]
    by_cases hn : n < 0
    · rw [if_pos hn, if_pos ⟨by omega, by omega⟩]
      congr 1
      omega
    · rw [if_neg hn, if_pos (by omega)]
      congr 1
      omega
  rw [hchars, readNumber, readNumeral_chars hwritten hrest]
  simp only [bind, Except.bind, hvalue]

/-- A number that is no 64-bit integer and has a value as a fraction. -/
structure Numeral.Real (n : Numeral) : Prop extends n.Written where
  noInt : n.toInt? = none
  fits : n.tooLarge = false

theorem readNumber_real {n : Numeral} (h : n.Real) {rest : List Char} (hrest : Ends rest) :
    readNumber (n.chars ++ rest) = .ok (.real n.chars, rest) := by
  rw [readNumber, readNumeral_chars h.toWritten hrest]
  simp only [bind, Except.bind, h.noInt, h.fits]
  rfl

theorem range_of_toInt? {n : Numeral} {i : Int} (h : n.toInt? = some i) :
    -9223372036854775808 ≤ i ∧ i < 18446744073709551616 := by
  have hsize : UInt64.size = 18446744073709551616 := rfl
  unfold Numeral.toInt? at h
  rw [hsize] at h
  split at h
  · cases h
  · dsimp only at h
    split at h
    · split at h
      · cases h
        omega
      · cases h
    · split at h
      · cases h
        omega
      · cases h

/-- What is read as a number is an integer of 64 bits, or keeps its digits. -/
theorem readNumber_cases {cs rest : List Char} {j : Json} (h : readNumber cs = .ok (j, rest)) :
    (∃ i : Int, j = .int i ∧ -9223372036854775808 ≤ i ∧ i < 18446744073709551616) ∨
      ∃ n : Numeral, j = .real n.chars ∧ n.Real := by
  unfold readNumber at h
  cases hn : readNumeral cs with
  | error e =>
    rw [hn] at h
    cases h
  | ok x =>
    obtain ⟨n, rest'⟩ := x
    rw [hn] at h
    simp only [bind, Except.bind] at h
    split at h
    · rename_i i hi
      cases h
      exact .inl ⟨i, rfl, range_of_toInt? hi⟩
    · rename_i hnone
      split at h
      · cases h
      · rename_i hfits
        cases h
        exact .inr ⟨n, rfl, written_of_readNumeral hn, hnone, Bool.eq_false_iff.2 hfits⟩

end Tenancy.Json
