import Tenancy.Time.Span

/-!
# Errors

What can go wrong in each part, with one text per cause, and the form in which the gateway
reports it to callers: a code and a message.
-/

namespace Tenancy

/-- Why a store call failed. -/
inductive StoreError where
  | connection (reason : String)
  | operation (name reason : String)
  | subscriptionClosed (channel : String)
  | closed
  deriving DecidableEq, Repr, Inhabited

def StoreError.message : StoreError → String
  | .connection reason => "Store connection failed: " ++ reason
  | .operation name reason => "Store operation " ++ name ++ " failed: " ++ reason
  | .subscriptionClosed channel =>
    "Subscription to channel " ++ channel ++ " was closed by the store"
  | .closed => "Store is closed"

/-- Why the arguments of a call were refused. -/
inductive ValidationError where
  | requiredFieldMissing (field : String)
  | invalidValue (field reason : String)
  | ttlOutOfRange (ttl max : Span)
  deriving DecidableEq, Repr, Inhabited

def ValidationError.message : ValidationError → String
  | .requiredFieldMissing field => "Required field missing: " ++ field
  | .invalidValue field reason => "Invalid value for " ++ field ++ ": " ++ reason
  | .ttlOutOfRange ttl max =>
    "TTL " ++ ttl.text ++ " is outside the allowed range (0, " ++ max.text ++ "]"

/-- Why a user was refused. -/
inductive AuthError where
  | missingUser
  | denied (user : String)
  | unavailable (reason : String)
  deriving DecidableEq, Repr, Inhabited

def AuthError.message : AuthError → String
  | .missingUser => "User id is required"
  | .denied user => "User " ++ user ++ " is not permitted"
  | .unavailable reason => "User validation unavailable: " ++ reason

/-- Why an audit record was lost. -/
inductive AuditError where
  | unavailable (reason : String)
  | rejected (reason : String)
  deriving DecidableEq, Repr, Inhabited

def AuditError.message : AuditError → String
  | .unavailable reason => "Audit sink unavailable: " ++ reason
  | .rejected reason => "Audit record rejected: " ++ reason

/-! ## Errors of the gateway -/

/-- The class of a gateway error. -/
inductive ErrorCode where
  | unauthorized
  | forbidden
  | invalidInput
  | missingField
  | invalidRange
  | storeError
  | internalError
  deriving DecidableEq, Repr, Inhabited

def ErrorCode.name : ErrorCode → String
  | .unauthorized => "Unauthorized"
  | .forbidden => "Forbidden"
  | .invalidInput => "InvalidInput"
  | .missingField => "MissingField"
  | .invalidRange => "InvalidRange"
  | .storeError => "StoreError"
  | .internalError => "InternalError"

/-- What a caller of the gateway is told. -/
structure GatewayError where
  code : ErrorCode
  message : String
  deriving DecidableEq, Repr, Inhabited

namespace GatewayError

def display (e : GatewayError) : String := e.code.name ++ ": " ++ e.message

def missingField (field : String) : GatewayError :=
  ⟨.missingField, "Required field '" ++ field ++ "' is missing"⟩

def invalidRange (field low high : String) : GatewayError :=
  ⟨.invalidRange, "Field '" ++ field ++ "' must be between " ++ low ++ " and " ++ high⟩

def ofStore (e : StoreError) : GatewayError := ⟨.storeError, e.message⟩

/-- A lease out of range is reported in whole milliseconds. -/
def ofValidation : ValidationError → GatewayError
  | .requiredFieldMissing field => missingField field
  | .invalidValue field reason =>
    ⟨.invalidInput, "Invalid value for '" ++ field ++ "': " ++ reason⟩
  | .ttlOutOfRange _ max => invalidRange "ttl_ms" "1" (String.ofList (Text.decimal max.millis))

def ofAuth (e : AuthError) : GatewayError :=
  ⟨match e with | .missingUser => .unauthorized | _ => .forbidden, e.message⟩

end GatewayError

end Tenancy
