import Tenancy.Json.Scan
import Tenancy.Time.Timestamp

/-!
# Reading JSON by shape

A `Shape` says what a text is expected to hold. Reading follows the text from left to right and
stops at the first character that breaks JSON or the shape, so of two faults the earlier one is
reported. A record is written as an object, whose unknown members are passed over, or as a list
of its fields in order. `read` gives the fields of a record in their declared order, without the
absent ones.
-/

namespace Tenancy.Json

/-- Whether a field may be left out: never, in an object, or also at the end of a list. An
optional field may be null as well. -/
inductive Presence where
  | required
  | optional
  | defaulted
  deriving DecidableEq, Repr

inductive Shape where
  | text
  | flag
  /-- An integer from 0 up to `2 ^ 64 - 1`. -/
  | count
  /-- A text that names a time. -/
  | time
  | any
  /-- One of some names: the name itself, or an object with null under it. -/
  | choice (names : List String)
  | record (fields : List (String × Presence × Shape))

/-- Containers inside each other that are read at most, and one. -/
def depthLimit : Nat := 128

/-! ## Lists and objects -/

/-- The next item of a list starts at the characters given, or the list has ended before them. -/
inductive Next where
  | item (cs : List Char)
  | ended (cs : List Char)

/-- Finds the next item of a list; `first` is the place behind the bracket. -/
def nextItem (first : Bool) (cs : List Char) : Reading Next :=
  match skipSpace cs with
  | [] => .error .tooShort
  | ']' :: rest => .ok (.ended (']' :: rest))
  | c :: rest =>
    if first then .ok (.item (c :: rest))
    else if c = ',' then
      match skipSpace rest with
      | [] => .error .tooShort
      | ']' :: _ => .error .malformed
      | rest => .ok (.item rest)
    else .error .malformed

/-- Finds the next name of an object, and gives the characters behind its opening quote. -/
def nextName (first : Bool) (cs : List Char) : Reading Next :=
  match skipSpace cs with
  | [] => .error .tooShort
  | '}' :: rest => .ok (.ended ('}' :: rest))
  | c :: rest =>
    if first then (if c = '"' then .ok (.item rest) else .error .malformed)
    else if c = ',' then
      match skipSpace rest with
      | [] => .error .tooShort
      | '"' :: rest => .ok (.item rest)
      | _ => .error .malformed
    else .error .malformed

/-- Passes over the bracket that ends a list or an object. -/
def readClosing (bracket : Char) (cs : List Char) : Reading (List Char) :=
  match skipSpace cs with
  | [] => .error .tooShort
  | c :: rest => if c = bracket then .ok rest else .error .malformed

def readColon (cs : List Char) : Reading (List Char) :=
  match skipSpace cs with
  | [] => .error .tooShort
  | c :: rest => if c = ':' then .ok rest else .error .malformed

section Containers

variable (item : List Char → Reading (Json × List Char))

/-- The items of a list up to its closing bracket. -/
def readItems : Nat → Bool → List Char → Reading (List Json × List Char)
  | 0, _, _ => .error .malformed
  | fuel + 1, first, cs => do
    match ← nextItem first cs with
    | .ended cs => .ok ([], cs)
    | .item cs =>
      let (j, cs) ← item cs
      let (rest, cs) ← readItems fuel false cs
      .ok (j :: rest, cs)

/-- The members of an object up to its closing bracket. -/
def readMembers : Nat → Bool → List Char → Reading (List (String × Json) × List Char)
  | 0, _, _ => .error .malformed
  | fuel + 1, first, cs => do
    match ← nextName first cs with
    | .ended cs => .ok ([], cs)
    | .item cs =>
      let (name, cs) ← readText cs
      let cs ← readColon cs
      let (j, cs) ← item cs
      let (rest, cs) ← readMembers fuel false cs
      .ok ((name, j) :: rest, cs)

end Containers

/-- A value of any kind; `depth` bounds the containers inside each other. -/
def readAny : Nat → List Char → Reading (Json × List Char)
  | 0, _ => .error .malformed
  | depth + 1, cs =>
    match skipSpace cs with
    | [] => .error .tooShort
    | 'n' :: cs => do .ok (.null, ← readWord ['u', 'l', 'l'] cs)
    | 't' :: cs => do .ok (.bool true, ← readWord ['r', 'u', 'e'] cs)
    | 'f' :: cs => do .ok (.bool false, ← readWord ['a', 'l', 's', 'e'] cs)
    | '"' :: cs => do
      let (s, cs) ← readText cs
      .ok (.text s, cs)
    | '[' :: cs =>
      if depth = 0 then .error .malformed
      else do
        let (items, cs) ← readItems (readAny depth) (cs.length + 1) true cs
        .ok (.list items, ← readClosing ']' cs)
    | '{' :: cs =>
      if depth = 0 then .error .malformed
      else do
        let (members, cs) ← readMembers (readAny depth) (cs.length + 1) true cs
        .ok (sorted members, ← readClosing '}' cs)
    | c :: cs => if c = '-' ∨ c.isDigit then readNumber (c :: cs) else .error .malformed

/-- The error for a value of the wrong kind: what breaks JSON in a value without parts comes
first. -/
def wrongKind (cs : List Char) : ReadError :=
  match cs with
  | '[' :: _ => .mismatch
  | '{' :: _ => .mismatch
  | cs =>
    match readAny 1 cs with
    | .ok _ => .mismatch
    | .error e => e

/-! ## Records -/

/-- The fields read so far, with `none` for an absent one. -/
abbrev Got := List (String × Option Json)

section Records

variable (read : Shape → List Char → Reading (Json × List Char))

/-- The value of a field; null stands for absence where that is allowed. -/
def readField (presence : Presence) (shape : Shape) (cs : List Char) : Reading (Option Json × List Char) :=
  if presence = .required then do
    let (j, cs) ← read shape cs
    .ok (some j, cs)
  else
    match skipSpace cs with
    | 'n' :: cs => do .ok (none, ← readWord ['u', 'l', 'l'] cs)
    | cs => do
      let (j, cs) ← read shape cs
      .ok (some j, cs)

/-- The fields of a record written as a list. -/
def readPositional : List (String × Presence × Shape) → Bool → List Char → Reading (Got × List Char)
  | [], _, cs => .ok ([], cs)
  | (name, presence, shape) :: fields, first, cs => do
    match ← nextItem first cs with
    | .ended cs =>
      if presence = .defaulted then
        let (got, cs) ← readPositional fields first cs
        .ok ((name, none) :: got, cs)
      else .error .mismatch
    | .item cs =>
      let (j, cs) ← readField read presence shape cs
      let (got, cs) ← readPositional fields false cs
      .ok ((name, j) :: got, cs)

/-- The fields of a record written as an object. A name that comes twice is an error. -/
def readNamed (fields : List (String × Presence × Shape)) :
    Nat → Bool → Got → List Char → Reading (Got × List Char)
  | 0, _, _, _ => .error .malformed
  | fuel + 1, first, got, cs => do
    match ← nextName first cs with
    | .ended cs => .ok (got, cs)
    | .item cs =>
      let (name, cs) ← readText cs
      match fields.find? (·.1 = name) with
      | some (_, presence, shape) =>
        if got.any (·.1 = name) then .error .mismatch
        else
          let cs ← readColon cs
          let (j, cs) ← readField read presence shape cs
          readNamed fields fuel false ((name, j) :: got) cs
      | none =>
        let cs ← readColon cs
        let cs ← skipValue cs
        readNamed fields fuel false got cs

end Records

/-- The record with the fields in declared order, unless a required one is missing. -/
def assemble (fields : List (String × Presence × Shape)) (got : Got) : Reading Json :=
  if fields.all fun f => f.2.1 ≠ .required || got.any (·.1 = f.1) then
    .ok (.object (fields.filterMap fun f =>
      ((got.find? (·.1 = f.1)).bind (·.2)).map fun j => (f.1, j)))
  else .error .mismatch

/-- One of the names, behind its opening quote. -/
def readChoice (names : List String) (cs : List Char) : Reading (Json × List Char) := do
  let (s, cs) ← readText cs
  if names.contains s then .ok (.text s, cs) else .error .mismatch

/-- A value of the shape; `depth` bounds the containers inside each other. -/
def readShape : Nat → Shape → List Char → Reading (Json × List Char)
  | 0, _, _ => .error .malformed
  | depth + 1, shape, cs =>
    match skipSpace cs with
    | [] => .error .tooShort
    | c :: rest =>
      match shape with
      | .any => readAny (depth + 1) (c :: rest)
      | .text =>
        if c = '"' then do
          let (s, cs) ← readText rest
          .ok (.text s, cs)
        else .error (wrongKind (c :: rest))
      | .flag =>
        if c = 't' then do .ok (.bool true, ← readWord ['r', 'u', 'e'] rest)
        else if c = 'f' then do .ok (.bool false, ← readWord ['a', 'l', 's', 'e'] rest)
        else .error (wrongKind (c :: rest))
      | .count =>
        if c = '-' ∨ c.isDigit then do
          let (j, cs) ← readNumber (c :: rest)
          match j with
          | .int n => if 0 ≤ n then .ok (.int n, cs) else .error .mismatch
          | _ => .error .mismatch
        else .error (wrongKind (c :: rest))
      | .time =>
        if c = '"' then do
          let (s, cs) ← readText rest
          match Timestamp.ofText? s with
          | some t => .ok (.text t.text, cs)
          | none => .error .mismatch
        else .error (wrongKind (c :: rest))
      | .choice names =>
        if c = '"' then readChoice names rest
        else if c = '{' then
          if depth = 0 then .error .malformed
          else
            match skipSpace rest with
            | [] => .error .tooShort
            | '"' :: cs => do
              let (j, cs) ← readChoice names cs
              let cs ← readColon cs
              match skipSpace cs with
              | [] => .error .tooShort
              | 'n' :: cs =>
                let cs ← readWord ['u', 'l', 'l'] cs
                .ok (j, ← readClosing '}' cs)
              | cs => .error (wrongKind cs)
            | _ => .error .malformed
        else .error .malformed
      | .record fields =>
        if c = '[' then
          if depth = 0 then .error .malformed
          else do
            let (got, cs) ← readPositional (readShape depth) fields true rest
            let j ← assemble fields got
            .ok (j, ← readClosing ']' cs)
        else if c = '{' then
          if depth = 0 then .error .malformed
          else do
            let (got, cs) ← readNamed (readShape depth) fields (rest.length + 1) true [] rest
            let j ← assemble fields got
            .ok (j, ← readClosing '}' cs)
        else .error (wrongKind (c :: rest))

/-- The value of the shape that a whole text holds. -/
def read (shape : Shape) (s : String) : Reading Json := do
  let (j, cs) ← readShape depthLimit shape s.toList
  if skipSpace cs = [] then .ok j else .error .malformed

end Tenancy.Json
