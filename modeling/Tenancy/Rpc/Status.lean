import Tenancy.Error

/-!
# Status of a remote call

Why a remote call failed: a code with a number, and a message.
-/

namespace Tenancy.Rpc

inductive StatusCode where
  | invalidArgument
  | permissionDenied
  | unimplemented
  | internal
  | unauthenticated
  deriving DecidableEq, Repr, Inhabited

namespace StatusCode

def name : StatusCode → String
  | .invalidArgument => "InvalidArgument"
  | .permissionDenied => "PermissionDenied"
  | .unimplemented => "Unimplemented"
  | .internal => "Internal"
  | .unauthenticated => "Unauthenticated"

def number : StatusCode → Nat
  | .invalidArgument => 3
  | .permissionDenied => 7
  | .unimplemented => 12
  | .internal => 13
  | .unauthenticated => 16

/-- The status of a class of gateway errors. -/
def ofCode : ErrorCode → StatusCode
  | .unauthorized => .unauthenticated
  | .forbidden => .permissionDenied
  | .invalidInput => .invalidArgument
  | .missingField => .invalidArgument
  | .invalidRange => .invalidArgument
  | .storeError => .internal
  | .internalError => .internal

end StatusCode

structure Status where
  code : StatusCode
  message : String
  deriving DecidableEq, Repr, Inhabited

def Status.ofError (e : GatewayError) : Status := ⟨.ofCode e.code, e.message⟩

end Tenancy.Rpc
