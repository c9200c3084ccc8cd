import Tenancy.Namespace
import Tenancy.Text.Utf8

/-!
# Tenants

A tenant is a user, inside an organization or outside any. `Tenant.isolate` and
`Tenant.deisolate` are the codec of its namespace; a `Key` is a physical name that remembers
how long the logical one is.
-/

namespace Tenancy

structure Tenant where
  user : String
  organization : Option String := none
  deriving DecidableEq, Repr, Inhabited

namespace Tenant

/-- A tenant from request fields: an empty organization is none. -/
def ofParts (user : String) (organization : Option String) : Tenant :=
  ⟨user, organization.filter (· ≠ "")⟩

/-- The tenant in another organization, or outside any when `organization` is empty. -/
def withOrganization (t : Tenant) (organization : String) : Tenant :=
  ⟨t.user, if organization = "" then none else some organization⟩

/-- The organization, or the empty text when there is none. -/
def organizationId (t : Tenant) : String := t.organization.getD ""

def hasOrganization (t : Tenant) : Bool := t.organization.isSome

/-- What every physical name of the tenant starts with. -/
def stem (t : Tenant) : String := Namespace.stem t.organizationId t.user

def isolate (t : Tenant) (logical : String) : String :=
  Namespace.isolate t.organizationId t.user logical

def deisolate (t : Tenant) (physical : String) : String :=
  Namespace.deisolate t.organizationId t.user physical

/-- Neither id contains the delimiter, so no other such tenant shares a physical name. -/
def isDelimiterSafe (t : Tenant) : Bool :=
  !t.user.toList.contains Namespace.delimiter
    && !t.organizationId.toList.contains Namespace.delimiter

/-- The organization and the user, as logs show them. -/
def display (t : Tenant) : String :=
  match t.organization with
  | some org => org ++ "/" ++ t.user
  | none => t.user

@[simp] theorem deisolate_isolate (t : Tenant) (logical : String) :
    t.deisolate (t.isolate logical) = logical :=
  Namespace.deisolate_isolate ..

end Tenant

/-- The physical name of a logical key, with the length of the logical part in bytes. -/
structure Key where
  physical : String
  logicalBytes : Nat
  deriving DecidableEq, Repr, Inhabited

namespace Key

def ofLogical (t : Tenant) (logical : String) : Key := ⟨t.isolate logical, Utf8.size logical⟩

/-- What is left of `bytes` after the first `n`, if that is a text. -/
def textFrom (bytes : Utf8.Bytes) (n : Nat) : String := (Utf8.decode (bytes.drop n)).getD ""

/-- The logical name: the last `logicalBytes` bytes, or the empty text when those do not start
at a character. -/
def logical (k : Key) : String :=
  let bytes := Utf8.encode k.physical
  if k.logicalBytes ≤ bytes.length then textFrom bytes (bytes.length - k.logicalBytes) else ""

end Key

end Tenancy
