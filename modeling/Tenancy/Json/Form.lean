import Tenancy.Json.Shape

/-!
# JSON forms of types

A form ties a type to JSON: the shape that a text of it has, the value that is written, and what
a value of the shape stands for.
-/

namespace Tenancy.Json

structure Form (α : Type) where
  shape : Shape
  toJson : α → Json
  ofJson? : Json → Option α

namespace Form

variable {α : Type} (f : Form α)

/-- The text of a value. -/
def write (a : α) : String := (f.toJson a).compact

/-- The value that a text holds. -/
def read (s : String) : Reading α := do
  let j ← Json.read f.shape s
  match f.ofJson? j with
  | some a => .ok a
  | none => .error .mismatch

/-! ## Simple forms -/

def text : Form String where
  shape := .text
  toJson := .text
  ofJson? | .text s => some s | _ => none

def flag : Form Bool where
  shape := .flag
  toJson := .bool
  ofJson? | .bool b => some b | _ => none

/-- A count that fits 64 bits. -/
def count : Form Nat where
  shape := .count
  toJson n := .int n
  ofJson? | .int n => if 0 ≤ n then some n.toNat else none | _ => none

def time : Form Timestamp where
  shape := .time
  toJson t := .text t.text
  ofJson? | .text s => Timestamp.ofText? s | _ => none

def any : Form Json where
  shape := .any
  toJson j := j
  ofJson? := some

/-- One of the listed values, under its name. -/
def choice (name : α → String) (all : List α) : Form α where
  shape := .choice (all.map name)
  toJson a := .text (name a)
  ofJson? | .text s => all.find? (name · = s) | _ => none

/-! ## Fields of records -/

/-- A field of a record, for its shape. -/
def field (name : String) (presence : Presence) : String × Presence × Shape :=
  (name, presence, f.shape)

/-- A field with its value. -/
def member (name : String) (a : α) : List (String × Json) := [(name, f.toJson a)]

/-- A field that is left out when it has no value. -/
def member? (name : String) (a : Option α) : List (String × Json) :=
  match a with
  | some a => [(name, f.toJson a)]
  | none => []

/-- The value of a field that has to be there. -/
def get (name : String) (j : Json) : Option α := (j.member? name).bind f.ofJson?

/-- The value of a field that may be absent. -/
def get? (name : String) (j : Json) : Option (Option α) :=
  match j.member? name with
  | some k => (f.ofJson? k).map some
  | none => some none

end Form

end Tenancy.Json
