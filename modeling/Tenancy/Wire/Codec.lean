import Tenancy.Wire.Field

/-!
# Message types on the wire

A codec ties a message type to its fields: their numbers, names and kinds, the fields that a
message is written as, and the message that fields stand for. Of a field that comes more than
once the last one counts, unless it is a list.
-/

namespace Tenancy.Wire

open Utf8 (Bytes)

/-- How often a field comes. A plain field that is absent has the empty value of its kind. -/
inductive Presence where
  | plain
  | optional
  | list
  deriving DecidableEq, Repr, Inhabited

structure FieldType where
  number : Nat
  name : String
  kind : Kind
  presence : Presence := .plain
  deriving DecidableEq, Repr, Inhabited

/-- `fields` and `ofFields` go from a message to its fields and back. -/
structure Codec (α : Type) where
  types : List FieldType
  fields : α → Fields
  ofFields : Fields → α

namespace Codec

variable {α : Type} (c : Codec α)

def kind? (number : Nat) : Option Kind := (c.types.find? (·.number = number)).map (·.kind)

/-- The canonical form of a message. -/
def encode (m : α) : Bytes := (c.fields m).encode

/-- The message that bytes stand for, if they are well formed. -/
def decode? (bytes : Bytes) : Option α := (Fields.decode? c.kind? bytes).map c.ofFields

end Codec

end Tenancy.Wire
