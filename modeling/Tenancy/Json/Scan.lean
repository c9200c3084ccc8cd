import Tenancy.Json.Basic

/-!
# Scanning JSON text

Each scanner takes the characters from where it stands, and either gives what it read with the
characters left, or the first reason to stop. A quoted text is read by an automaton that takes
one character at a time, so that an escape never looks ahead. `skipValue` passes over a value
without building it, at any depth.
-/

namespace Tenancy.Json

/-- Why reading stopped: the text is no JSON, it ends too early, or it is JSON of another kind. -/
inductive ReadError where
  | malformed
  | tooShort
  | mismatch
  deriving DecidableEq, Repr, Inhabited

/-- What a scanner gives, or why it stopped. -/
abbrev Reading := Except ReadError

def isSpace (c : Char) : Bool := c = ' ' || c = '\n' || c = '\t' || c = '\r'

def skipSpace (cs : List Char) : List Char := cs.dropWhile isSpace

/-- Passes over the characters of `word`. -/
def readWord : List Char → List Char → Reading (List Char)
  | [], cs => .ok cs
  | _ :: _, [] => .error .tooShort
  | w :: word, c :: cs => if w = c then readWord word cs else .error .malformed

/-! ## Quoted text -/

/-- Where the reader of a quoted text stands. `lead` is the first half of a pair of escapes that
stand for one character. -/
inductive TextState where
  | plain
  | escaped (lead : Option Nat)
  | hex (seen value : Nat) (lead : Option Nat)
  | halfway (lead : Nat)

/-- The character that a one-letter escape stands for. -/
def shortEscape? (c : Char) : Option Char :=
  match c with
  | '"' => some '"'
  | '\\' => some '\\'
  | '/' => some '/'
  | 'b' => some (Char.ofNat 8)
  | 'f' => some (Char.ofNat 12)
  | 'n' => some '\n'
  | 'r' => some '\r'
  | 't' => some '\t'
  | _ => none

/-- Fewer than `n` bytes are left. -/
def fewerBytes (n : Nat) (cs : List Char) : Bool :=
  ((cs.take n).map Char.utf8Size).foldr (· + ·) 0 < n

/-- What a finished four-digit escape gives: a character, the first half of a pair, or nothing. -/
def unitMeaning (value : Nat) : Option Nat → Option (Char ⊕ Nat)
  | none =>
    if 0xD800 ≤ value ∧ value ≤ 0xDBFF then some (.inr value)
    else if 0xDC00 ≤ value ∧ value ≤ 0xDFFF then none
    else some (.inl (Char.ofNat value))
  | some lead =>
    if 0xDC00 ≤ value ∧ value ≤ 0xDFFF then
      some (.inl (Char.ofNat (0x10000 + (lead - 0xD800) * 0x400 + (value - 0xDC00))))
    else none

def push (c : Char) (r : Reading (List Char × List Char)) : Reading (List Char × List Char) :=
  match r with
  | .ok (cs, rest) => .ok (c :: cs, rest)
  | .error e => .error e

/-- The text up to the closing quote. -/
def readTextFrom : TextState → List Char → Reading (List Char × List Char)
  | _, [] => .error .tooShort
  | .plain, c :: cs =>
    if c = '"' then .ok ([], cs)
    else if c = '\\' then readTextFrom (.escaped none) cs
    else if c.toNat < 32 then .error .malformed
    else push c (readTextFrom .plain cs)
  | .escaped lead, c :: cs =>
    if c = 'u' then
      if fewerBytes 4 cs then .error .tooShort else readTextFrom (.hex 0 0 lead) cs
    else match lead, shortEscape? c with
      | none, some d => push d (readTextFrom .plain cs)
      | _, _ => .error .malformed
  | .halfway lead, c :: cs =>
    if c = '\\' then readTextFrom (.escaped (some lead)) cs else .error .malformed
  | .hex seen value lead, c :: cs =>
    match Text.hexValue? c with
    | none => .error .malformed
    | some d =>
      let value := value * 16 + d
      if seen < 3 then readTextFrom (.hex (seen + 1) value lead) cs
      else match unitMeaning value lead with
        | none => .error .malformed
        | some (.inl ch) => push ch (readTextFrom .plain cs)
        | some (.inr half) => readTextFrom (.halfway half) cs

/-- The text behind an opening quote. -/
def readText (cs : List Char) : Reading (String × List Char) := do
  let (got, rest) ← readTextFrom .plain cs
  .ok (String.ofList got, rest)

/-- Passes over a text behind its opening quote. Escapes must be well formed, but two halves
need not make a pair. -/
def skipTextFrom : TextState → List Char → Reading (List Char)
  | _, [] => .error .tooShort
  | .plain, c :: cs =>
    if c = '"' then .ok cs
    else if c = '\\' then skipTextFrom (.escaped none) cs
    else if c.toNat < 32 then .error .malformed
    else skipTextFrom .plain cs
  | .escaped _, c :: cs =>
    if c = 'u' then
      if fewerBytes 4 cs then .error .tooShort else skipTextFrom (.hex 0 0 none) cs
    else if (shortEscape? c).isSome then skipTextFrom .plain cs
    else .error .malformed
  | .halfway _, _ :: _ => .error .malformed
  | .hex seen _ _, c :: cs =>
    if (Text.hexValue? c).isNone then .error .malformed
    else if seen < 3 then skipTextFrom (.hex (seen + 1) 0 none) cs
    else skipTextFrom .plain cs

/-! ## Numbers -/

/-- The parts of a written number. -/
structure Numeral where
  negative : Bool
  whole : List Char
  fraction : Option (List Char)
  exponent : Option (Option Char × List Char)

def digitsOf (cs : List Char) : List Char × List Char :=
  (cs.takeWhile Char.isDigit, cs.dropWhile Char.isDigit)

/-- Nothing is left, or something is that does not belong. -/
def stopAt (cs : List Char) : ReadError := if cs = [] then .tooShort else .malformed

def readFraction : List Char → Reading (Option (List Char) × List Char)
  | '.' :: cs =>
    let (digits, rest) := digitsOf cs
    if digits = [] then .error (stopAt rest) else .ok (some digits, rest)
  | cs => .ok (none, cs)

def readExponent : List Char → Reading (Option (Option Char × List Char) × List Char)
  | c :: cs =>
    if c = 'e' ∨ c = 'E' then
      let (sign, cs) := match cs with
        | s :: rest => if s = '+' ∨ s = '-' then (some s, rest) else (none, s :: rest)
        | [] => (none, [])
      let (digits, rest) := digitsOf cs
      if digits = [] then .error (stopAt rest) else .ok (some (sign, digits), rest)
    else .ok (none, c :: cs)
  | [] => .ok (none, [])

/-- A number, which starts with a minus sign or a digit. -/
def readNumeral (cs : List Char) : Reading (Numeral × List Char) := do
  let (negative, cs) := match cs with
    | '-' :: rest => (true, rest)
    | cs => (false, cs)
  let (whole, rest) := digitsOf cs
  if whole = [] then .error (stopAt rest)
  else if whole.head? = some '0' ∧ whole ≠ ['0'] then .error .malformed
  else
    let (fraction, rest) ← readFraction rest
    let (exponent, rest) ← readExponent rest
    .ok (⟨negative, whole, fraction, exponent⟩, rest)

namespace Numeral

def chars (n : Numeral) : List Char :=
  (if n.negative then ['-'] else []) ++ n.whole
    ++ (match n.fraction with | some ds => '.' :: ds | none => [])
    ++ (match n.exponent with
      | some (sign, ds) => 'e' :: (match sign with | some s => s :: ds | none => ds)
      | none => [])

/-- The exponent as it is written; zero where none is. -/
def power (n : Numeral) : Int :=
  match n.exponent with
  | some (sign, ds) =>
    let e : Int := Nat.ofDigitChars 10 ds 0
    if sign = some '-' then -e else e
  | none => 0

/-- The value whose digits go on after those of `value`, as long as it fits 64 bits, and how many
digits that took. -/
def fitting (value : Nat) : List Char → Nat × Nat
  | [] => (value, 0)
  | c :: cs =>
    let next := Nat.ofDigitChars 10 [c] value
    if next < UInt64.size then
      let (value, taken) := fitting next cs
      (value, taken + 1)
    else (value, 0)

/-- The number as a significand of at most 64 bits and a power of ten. Of the digits that do not
fit, those before the point count in the power, and those behind it do not count. -/
def scientific (n : Numeral) : Nat × Int :=
  let (value, taken) := fitting 0 n.whole
  let (value, places) := fitting value (n.fraction.getD [])
  (value, (n.whole.length : Int) - taken - places + n.power)

/-- The number with 53 significant bits that is nearest to `n`; a half goes to the even one. -/
def nearestDouble (n : Nat) : Nat :=
  let unit : Nat := 1 <<< (n.log2 - 52)
  let rest := n % unit
  if 2 * rest < unit ∨ (2 * rest = unit ∧ n / unit % 2 = 0) then n - rest else n - rest + unit

/-- Half a unit above the largest double-precision number. -/
def doubleLimit : Nat := (1 <<< 1024) - (1 <<< 970)

/-- The largest power of ten that has a double-precision value. -/
def maxPower : Nat := 308

/-- The number has no double-precision value: the product of its significand and its power of
ten, each rounded before, is too large. -/
def tooLarge (n : Numeral) : Bool :=
  let (value, power) := n.scientific
  value ≠ 0 && 0 ≤ power &&
    (maxPower < power || doubleLimit ≤ nearestDouble value * nearestDouble (Nat.pow 10 power.toNat))

/-- The integer that the number writes, if it fits 64 bits. A minus sign in front of zero, a
fraction and an exponent make it no integer. -/
def toInt? (n : Numeral) : Option Int :=
  if n.fraction.isSome ∨ n.exponent.isSome then none
  else
    let value := Nat.ofDigitChars 10 n.whole 0
    if n.negative then if 0 < value ∧ value ≤ UInt64.size / 2 then some (-(value : Int)) else none
    else if value < UInt64.size then some value else none

end Numeral

/-- A number as a value. -/
def readNumber (cs : List Char) : Reading (Json × List Char) := do
  let (n, rest) ← readNumeral cs
  match n.toInt? with
  | some i => .ok (.int i, rest)
  | none => if n.tooLarge then .error .malformed else .ok (.real n.chars, rest)

/-! ## Passing over values -/

/-- Passes over a value that holds no others. -/
def skipScalar : List Char → Reading (List Char)
  | [] => .error .tooShort
  | 'n' :: cs => readWord ['u', 'l', 'l'] cs
  | 't' :: cs => readWord ['r', 'u', 'e'] cs
  | 'f' :: cs => readWord ['a', 'l', 's', 'e'] cs
  | '"' :: cs => skipTextFrom .plain cs
  | c :: cs =>
    if c = '-' ∨ c.isDigit then
      match readNumeral (c :: cs) with
      | .ok (_, rest) => .ok rest
      | .error _ => .error .malformed
    else .error .malformed

/-- Passes over the name of a member and its colon. -/
def skipName (cs : List Char) : Reading (List Char) :=
  match skipSpace cs with
  | [] => .error .tooShort
  | '"' :: cs => do
    let cs ← skipTextFrom .plain cs
    match skipSpace cs with
    | [] => .error .tooShort
    | ':' :: cs => .ok cs
    | _ => .error .malformed
  | _ => .error .malformed

def closes (frame c : Char) : Bool :=
  (frame = '[' && c = ']') || (frame = '{' && c = '}')

/-- Where the skipper stands: before a value, right behind an opening bracket, or behind a value. -/
inductive SkipState where
  | value
  | opened
  | done

/-- `frames` are the brackets that are open, innermost first; `fuel` bounds the brackets, values
and separators still to pass. -/
def skipFrom : Nat → SkipState → List Char → List Char → Reading (List Char)
  | 0, _, _, _ => .error .malformed
  | _ + 1, .done, [], cs => .ok cs
  | fuel + 1, .value, frames, cs =>
    match skipSpace cs with
    | c :: rest =>
      if c = '[' ∨ c = '{' then skipFrom fuel .opened (c :: frames) rest
      else do
        let rest ← skipScalar (c :: rest)
        skipFrom fuel .done frames rest
    | [] => .error .tooShort
  | fuel + 1, .opened, [], cs => skipFrom fuel .done [] cs
  | fuel + 1, .opened, frame :: frames, cs =>
    match skipSpace cs with
    | [] => .error .tooShort
    | c :: rest =>
      if closes frame c then skipFrom fuel .done frames rest
      else do
        let cs ← if frame = '{' then skipName (c :: rest) else .ok (c :: rest)
        skipFrom fuel .value (frame :: frames) cs
  | fuel + 1, .done, frame :: frames, cs =>
    match skipSpace cs with
    | [] => .error .tooShort
    | c :: rest =>
      if closes frame c then skipFrom fuel .done frames rest
      else if c = ',' then do
        let cs ← if frame = '{' then skipName rest else .ok rest
        skipFrom fuel .value (frame :: frames) cs
      else .error .malformed

/-- Passes over one value of any kind. -/
def skipValue (cs : List Char) : Reading (List Char) :=
  skipFrom (2 * cs.length + 2) .value [] cs

end Tenancy.Json
