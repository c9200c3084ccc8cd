import Tenancy.Log

/-!
# Authorization

Who may call the gateway. A validator is asked about a user id and remembers nothing.
-/

namespace Tenancy

structure Validator where
  check : String → Except AuthError Unit

namespace Validator

/-- Every user that has an id. -/
def allowAll : Validator := ⟨fun user => if user = "" then .error .missingUser else .ok ()⟩

instance : Inhabited Validator := ⟨allowAll⟩

/-- Only the listed users. -/
def allowList (users : List String) : Validator :=
  ⟨fun user =>
    if user = "" then .error .missingUser
    else if users.contains user then .ok ()
    else .error (.denied user)⟩

def denyAll : Validator := ⟨fun user => .error (.denied user)⟩

/-- The users cannot be looked up. -/
def unavailable (reason : String) : Validator := ⟨fun _ => .error (.unavailable reason)⟩

/-- The validator for a configured list of users: an empty list accepts everybody. -/
def ofAllowed (users : List String) : Validator × LogEvent :=
  if users = [] then (allowAll, .everyUserAccepted)
  else (allowList users, .allowListLoaded users.length)

end Validator

end Tenancy
