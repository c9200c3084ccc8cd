import Tenancy.Lease
import Tenancy.Relay.Feed
import Tenancy.Settings.Basic

/-!
# Requests

What tenants ask of the gateway, in logical names, and what they are answered. `Request.check`
is the first thing that is wrong with the arguments of a request, if anything is.
-/

namespace Tenancy

inductive Request where
  | acquire (key : String) (ttl : Span)
  | release (key token : String)
  | renew (key token : String) (ttl : Span)
  | publish (channel payload : String)
  | subscribe (channels : List String)
  deriving DecidableEq, Repr, Inhabited

inductive Response where
  | acquired (g : Lease.Grant)
  | released (success : Bool)
  | renewed (r : Lease.Renewal)
  | published (subscribers : Nat)
  | subscribed
  deriving DecidableEq, Repr, Inhabited

/-- A field that must not be empty. -/
def checkPresent (field value : String) : Except ValidationError Unit :=
  if value = "" then .error (.requiredFieldMissing field) else .ok ()

/-- The names in order, each once. -/
def sortedNames (names : List String) : List String := names.mergeSort.eraseReps

/-- Whether there are more than `limit` distinct names. Only a list that is longer than that has to
be put in order to see it. -/
def hasMoreThan (limit : Nat) (names : List String) : Bool :=
  limit < names.length && limit < (sortedNames names).length

/-- The channels of a subscription: at least one, none without a name, and at most `limit`
distinct ones. -/
def checkChannels (channels : List String) (limit : Nat) : Except GatewayError Unit :=
  if channels = [] then .error (.ofValidation (.requiredFieldMissing "channels"))
  else if channels.contains "" then
    .error (.ofValidation (.invalidValue "channels" "channel names must not be empty"))
  else if hasMoreThan limit channels then
    .error (.invalidRange "channels" "1" (String.ofList (Text.decimal limit)))
  else .ok ()

namespace Request

/-- The first check that the arguments fail: names, then token, then lease. -/
def check (s : Settings) : Request → Except GatewayError Unit
  | .acquire key ttl => do
    (checkPresent "key" key).mapError .ofValidation
    (checkTtl ttl s.maxLockTtl).mapError .ofValidation
  | .release key token => do
    (checkPresent "key" key).mapError .ofValidation
    (checkPresent "owner_token" token).mapError .ofValidation
  | .renew key token ttl => do
    (checkPresent "key" key).mapError .ofValidation
    (checkPresent "owner_token" token).mapError .ofValidation
    (checkTtl ttl s.maxLockTtl).mapError .ofValidation
  | .publish channel _ => (checkPresent "channel" channel).mapError .ofValidation
  | .subscribe channels => checkChannels channels s.maxChannels

end Request

end Tenancy
