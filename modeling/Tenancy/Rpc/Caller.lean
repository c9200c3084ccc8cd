import Tenancy.Rpc.Status
import Tenancy.Tenant

/-!
# Who calls

A remote call names its tenant in two headers, or has one attached by whoever passed it on. The
attached one counts only when the user header is missing. Of a header that comes more than once
the first one counts.
-/

namespace Tenancy.Rpc

structure Caller where
  /-- The values of the header `x-user-id`. -/
  user : List Utf8.Bytes := []
  /-- The values of the header `x-organization-id`. -/
  organization : List Utf8.Bytes := []
  attached : Option Tenant := none
  deriving DecidableEq, Repr, Inhabited

/-- The text of a header value. Visible ASCII characters, blanks and tabs are text. -/
def headerText? (value : Utf8.Bytes) : Option String :=
  if value.all fun b => (32 ≤ b.toNat && b.toNat < 127) || b.toNat = 9 then
    some (String.ofList (value.map fun b => Char.ofNat b.toNat))
  else none

namespace Caller

def tenant (c : Caller) : Except Status Tenant :=
  match c.user with
  | user :: _ =>
    match headerText? user with
    | none => .error ⟨.invalidArgument, "Invalid user id header"⟩
    | some user =>
      match c.organization with
      | [] => .ok (.ofParts user none)
      | organization :: _ =>
        match headerText? organization with
        | none => .error ⟨.invalidArgument, "Invalid organization id header"⟩
        | some organization => .ok (.ofParts user (some organization))
  | [] =>
    match c.attached with
    | some t => .ok t
    | none => .error ⟨.unauthenticated, "Missing user id"⟩

end Caller

end Tenancy.Rpc
