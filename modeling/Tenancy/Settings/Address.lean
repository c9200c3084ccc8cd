import Tenancy.Text.Digits

/-!
# Socket addresses

An address is an IPv4 or IPv6 address with a port: `1.2.3.4:80`, `[2001:db8::1]:80`. An IPv6
address may name a scope by number behind a percent sign. `Address.ofText?` reads both forms;
`Address.text` writes IPv6 groups in lower case, with the longest run of at least two zero
groups cut to `::`.
-/

namespace Tenancy

inductive Address where
  | v4 (octets : List Nat) (port : Nat)
  | v6 (groups : List Nat) (scope port : Nat)
  deriving DecidableEq, Repr, Inhabited

namespace Address

/-! ## Reading -/

def digitIn? (radix : Nat) (c : Char) : Option Nat :=
  (Text.hexValue? c).filter (· < radix)

/-- A number below `limit` of at most `width` digits, if a width is given. Leading zeros are
refused where `plain` says so. -/
def readNumber (radix limit : Nat) (width : Option Nat) (plain : Bool) (cs : List Char) :
    Option (Nat × List Char) :=
  let digits := cs.takeWhile fun c => (digitIn? radix c).isSome
  let value := digits.foldl (fun n c => n * radix + (digitIn? radix c).getD 0) 0
  if digits = [] ∨ (width.map fun w => decide (w < digits.length)).getD false
      ∨ (plain ∧ digits.head? = some '0' ∧ 1 < digits.length) ∨ limit ≤ value then none
  else some (value, cs.drop digits.length)

def readChar (c : Char) : List Char → Option (List Char)
  | d :: rest => if d = c then some rest else none
  | [] => none

def readOctets (cs : List Char) : Option (List Nat × List Char) := do
  let octet := readNumber 10 256 (some 3) true
  let (a, cs) ← octet cs
  let (b, cs) ← octet (← readChar '.' cs)
  let (c, cs) ← octet (← readChar '.' cs)
  let (d, cs) ← octet (← readChar '.' cs)
  some ([a, b, c, d], cs)

/-- Up to `room` groups, with colons between them; the last two may be written as an IPv4
address, and the flag tells whether they were. -/
def readGroups : Nat → Bool → List Char → List Nat × Bool × List Char
  | 0, _, cs => ([], false, cs)
  | room + 1, first, cs =>
    match if first then some cs else readChar ':' cs with
    | none => ([], false, cs)
    | some inner =>
      match if 0 < room then readOctets inner else none with
      | some ([a, b, c, d], rest) => ([a * 256 + b, c * 256 + d], true, rest)
      | _ =>
        match readNumber 16 65536 (some 4) false inner with
        | none => ([], false, cs)
        | some (g, rest) =>
          let (groups, embedded, rest) := readGroups room false rest
          (g :: groups, embedded, rest)

def readV6 (cs : List Char) : Option (List Nat × List Char) :=
  let (head, embedded, rest) := readGroups 8 true cs
  if head.length = 8 then some (head, rest)
  else if embedded then none
  else do
    let rest ← readChar ':' (← readChar ':' rest)
    let (tail, _, rest) := readGroups (7 - head.length) true rest
    some (head ++ List.replicate (8 - head.length - tail.length) 0 ++ tail, rest)

def readPort (cs : List Char) : Option (Nat × List Char) := do
  readNumber 10 65536 none false (← readChar ':' cs)

def readSocketV4 (cs : List Char) : Option (Address × List Char) := do
  let (octets, cs) ← readOctets cs
  let (port, cs) ← readPort cs
  some (.v4 octets port, cs)

def readSocketV6 (cs : List Char) : Option (Address × List Char) := do
  let (groups, cs) ← readV6 (← readChar '[' cs)
  let (scope, cs) := ((readChar '%' cs).bind (readNumber 10 UInt32.size none false)).getD (0, cs)
  let (port, cs) ← readPort (← readChar ']' cs)
  some (.v6 groups scope port, cs)

/-- The address that a whole text writes. -/
def ofText? (s : String) : Option Address :=
  match (readSocketV4 s.toList).orElse fun _ => readSocketV6 s.toList with
  | some (a, []) => some a
  | _ => none

/-! ## Writing -/

def octetChars (octets : List Nat) : List Char :=
  ['.'].intercalate (octets.map Text.decimal)

def groupChars (groups : List Nat) : List Char :=
  [':'].intercalate (groups.map (Nat.toDigits 16))

/-- The number of zero groups in front. -/
def leadingZeros (groups : List Nat) : Nat := (groups.takeWhile (· = 0)).length

/-- Where the longest run of zero groups starts, and its length; the first of equal ones. -/
def longestZeros (groups : List Nat) : Nat × Nat :=
  (List.range groups.length).foldl
    (fun best i =>
      let n := leadingZeros (groups.drop i)
      if best.2 < n then (i, n) else best)
    (0, 0)

def v6Chars (groups : List Nat) : List Char :=
  match groups with
  | [0, 0, 0, 0, 0, 65535, a, b] =>
    "::ffff:".toList ++ octetChars [a / 256, a % 256, b / 256, b % 256]
  | _ =>
    let (start, n) := longestZeros groups
    if n ≤ 1 then groupChars groups
    else groupChars (groups.take start) ++ ':' :: ':' :: groupChars (groups.drop (start + n))

def text : Address → String
  | .v4 octets port => String.ofList (octetChars octets ++ ':' :: Text.decimal port)
  | .v6 groups scope port =>
    let zone := if scope = 0 then [] else '%' :: Text.decimal scope
    String.ofList ('[' :: v6Chars groups ++ zone ++ ']' :: ':' :: Text.decimal port)

end Address

end Tenancy
