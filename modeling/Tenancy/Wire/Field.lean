import Tenancy.Wire.Varint

/-!
# Fields on the wire

A message is a run of fields, each behind a key that has its number and the form of its value.
The reader of a message knows the kind of some fields; it passes over the others, also over
groups of fields inside each other.
-/

namespace Tenancy.Wire

open Utf8 (Bytes)

/-! ## Keys -/

/-- The form of a value. -/
inductive Form where
  | varint
  | fixed64
  | delimited
  | groupStart
  | groupEnd
  | fixed32
  deriving DecidableEq, Repr, Inhabited

def Form.code : Form → Nat
  | .varint => 0
  | .fixed64 => 1
  | .delimited => 2
  | .groupStart => 3
  | .groupEnd => 4
  | .fixed32 => 5

def Form.ofCode? : Nat → Option Form
  | 0 => some .varint
  | 1 => some .fixed64
  | 2 => some .delimited
  | 3 => some .groupStart
  | 4 => some .groupEnd
  | 5 => some .fixed32
  | _ => none

def keyBytes (number : Nat) (f : Form) : Bytes := Varint.encode (8 * number + f.code)

/-- A key fits 32 bits, and no field has number zero. -/
def readKey? (bytes : Bytes) : Option (Nat × Form × Bytes) := do
  let (key, rest) ← Varint.read? bytes
  let f ← Form.ofCode? (key % 8)
  if key < UInt32.size ∧ key / 8 ≠ 0 then some (key / 8, f, rest) else none

/-! ## Passing over values -/

/-- Cuts off the first `n` bytes. -/
def cut? (n : Nat) (bytes : Bytes) : Option (Bytes × Bytes) :=
  if n ≤ bytes.length then some (bytes.splitAt n) else none

/-- Cuts off bytes that have their number in front. -/
def cutDelimited? (bytes : Bytes) : Option (Bytes × Bytes) := do
  let (n, rest) ← Varint.read? bytes
  cut? n rest

/-- Passes over the fields of a group and its end; `pass` passes over a value. -/
def skipGroup (pass : Nat → Form → Bytes → Option Bytes) (number : Nat) :
    Nat → Bytes → Option Bytes
  | 0, _ => none
  | fuel + 1, bytes => do
    let (n, f, rest) ← readKey? bytes
    if f = .groupEnd then if n = number then some rest else none
    else skipGroup pass number fuel (← pass n f rest)

/-- Passes over the value of the field with the given number, inside fewer groups than `depth`. -/
def skipValue : Nat → Nat → Form → Bytes → Option Bytes
  | 0, _, _, _ => none
  | depth + 1, number, f, bytes =>
    match f with
    | .varint => (Varint.read? bytes).map (·.2)
    | .fixed64 => (cut? 8 bytes).map (·.2)
    | .fixed32 => (cut? 4 bytes).map (·.2)
    | .delimited => (cutDelimited? bytes).map (·.2)
    | .groupStart => skipGroup (skipValue depth) number (bytes.length + 1) bytes
    | .groupEnd => none

/-- Groups inside each other that are passed over at most, and one. -/
def groupLimit : Nat := 100

/-! ## Values -/

inductive Kind where
  | text
  | int
  | flag
  deriving DecidableEq, Repr, Inhabited

inductive Value where
  | text (s : String)
  | int (n : Int64)
  | flag (b : Bool)
  deriving DecidableEq, Repr, Inhabited

namespace Value

def kind : Value → Kind
  | .text _ => .text
  | .int _ => .int
  | .flag _ => .flag

def form : Value → Form
  | .text _ => .delimited
  | .int _ => .varint
  | .flag _ => .varint

def bytes : Value → Bytes
  | .text s => Varint.encode (Utf8.size s) ++ Utf8.encode s
  | .int n => Varint.encode n.toUInt64.toNat
  | .flag b => Varint.encode (if b then 1 else 0)

/-- A value of a known kind; every word but zero is a flag that is up. -/
def read? (k : Kind) (f : Form) (bytes : Bytes) : Option (Value × Bytes) :=
  match k, f with
  | .text, .delimited => do
    let (inner, rest) ← cutDelimited? bytes
    some (.text (← Utf8.decode inner), rest)
  | .int, .varint => (Varint.read? bytes).map fun (n, rest) => (.int (UInt64.ofNat n).toInt64, rest)
  | .flag, .varint => (Varint.read? bytes).map fun (n, rest) => (.flag (n ≠ 0), rest)
  | _, _ => none

end Value

/-! ## Messages as fields -/

/-- The fields of a message in the order of the wire, with their numbers. -/
abbrev Fields := List (Nat × Value)

namespace Fields

def encode (fs : Fields) : Bytes :=
  fs.flatMap fun f => keyBytes f.1 f.2.form ++ f.2.bytes

/-- The fields of a known kind; `fuel` bounds the number of fields. -/
def readIn? (kind? : Nat → Option Kind) : Nat → Bytes → Option Fields
  | _, [] => some []
  | 0, _ :: _ => none
  | fuel + 1, b :: bytes => do
    let (number, f, rest) ← readKey? (b :: bytes)
    match kind? number with
    | some k =>
      let (v, rest) ← Value.read? k f rest
      let fs ← readIn? kind? fuel rest
      some ((number, v) :: fs)
    | none =>
      let rest ← skipValue groupLimit number f rest
      readIn? kind? fuel rest

/-- The fields of a message that has the given kinds; the others are left out. -/
def decode? (kind? : Nat → Option Kind) (bytes : Bytes) : Option Fields :=
  readIn? kind? bytes.length bytes

/-! ### Looking fields up -/

/-- What is under a number last, as `pick` takes it. -/
def last? {α : Type} (pick : Value → Option α) (fs : Fields) (number : Nat) : Option α :=
  (fs.filterMap fun f => if f.1 = number then pick f.2 else none).getLast?

def text (fs : Fields) (number : Nat) : String :=
  (fs.last? (fun | .text s => some s | _ => none) number).getD ""

def int? (fs : Fields) (number : Nat) : Option Int64 :=
  fs.last? (fun | .int n => some n | _ => none) number

def int (fs : Fields) (number : Nat) : Int64 := (fs.int? number).getD 0

def flag (fs : Fields) (number : Nat) : Bool :=
  (fs.last? (fun | .flag b => some b | _ => none) number).getD false

def texts (fs : Fields) (number : Nat) : List String :=
  fs.filterMap fun f => if f.1 = number then (match f.2 with | .text s => some s | _ => none) else none

/-! ### Building fields -/

/-- A field of its own; the empty text is left out. -/
def ofText (number : Nat) (s : String) : Fields := if s = "" then [] else [(number, .text s)]

def ofInt (number : Nat) (n : Int64) : Fields := if n = 0 then [] else [(number, .int n)]

/-- An optional number is written whenever it is there, also when it is zero. -/
def ofInt? (number : Nat) (n : Option Int64) : Fields := n.toList.map fun n => (number, .int n)

def ofFlag (number : Nat) (b : Bool) : Fields := if b then [(number, .flag true)] else []

def ofTexts (number : Nat) (ss : List String) : Fields := ss.map fun s => (number, .text s)

end Fields

end Tenancy.Wire
