import Tenancy.Store.Basic

/-!
# Feeds

A feed is an open subscription of one tenant, under the physical names of the distinct channels
that the tenant asked for. A relay reads it.
-/

namespace Tenancy

structure Feed where
  tenant : Tenant
  /-- The physical names, in the order in which they were first asked for. -/
  channels : List String
  /-- The subscription in the store. -/
  id : Nat
  deriving DecidableEq, Repr, Inhabited

/-- The physical names of the channels that a list of logical names asks for. -/
def Tenant.channels (t : Tenant) (names : List String) : List String :=
  (distinct names).map t.isolate

/-- Opens a feed: all that is published from then on reaches it. -/
def Feed.subscribe (t : Tenant) (names : List String) (s : Store) :
    Except StoreError Feed × Store :=
  match s.subscribe (t.channels names) with
  | (.ok id, s) => (.ok ⟨t, t.channels names, id⟩, s)
  | (.error e, s) => (.error e, s)

end Tenancy
