import Tenancy.Store.Basic

/-!
# Calls of a store

The calls that a store offers to everybody, as data, so that a run of them is a list.
-/

namespace Tenancy

inductive StoreCall where
  | get (key : String)
  | set (key value : String) (ttl : Option Span)
  | setIfAbsent (key value : String) (ttl : Option Span)
  | delete (key : String)
  | compareAndDelete (key expected : String)
  | compareAndExpire (key expected : String) (ttl : Span)
  | expire (key : String) (ttl : Span)
  | publish (channel payload : String)
  | subscribe (channels : List String)
  | ping
  deriving DecidableEq, Repr, Inhabited

inductive StoreAnswer where
  | done
  | flag (b : Bool)
  | value (v : Option String)
  | count (n : Nat)
  /-- The id of a new subscription. -/
  | opened (id : Nat)
  deriving DecidableEq, Repr, Inhabited

namespace Store

def answered {α : Type} (f : α → StoreAnswer) (r : Except StoreError α × Store) :
    Except StoreError StoreAnswer × Store :=
  (r.1.map f, r.2)

/-- The answer to a call at `now`. -/
def call (s : Store) (now : Instant) : StoreCall → Except StoreError StoreAnswer × Store
  | .get key => answered .value (s.get now key)
  | .set key value ttl => answered (fun _ => .done) (s.set now key value ttl)
  | .setIfAbsent key value ttl => answered .flag (s.setIfAbsent now key value ttl)
  | .delete key => answered .flag (s.delete now key)
  | .compareAndDelete key expected => answered .flag (s.compareAndDelete now key expected)
  | .compareAndExpire key expected ttl => answered .flag (s.compareAndExpire now key expected ttl)
  | .expire key ttl => answered .flag (s.expire now key ttl)
  | .publish channel payload => answered .count (s.publish channel payload)
  | .subscribe channels => answered .opened (s.subscribe channels)
  | .ping => (s.ping.map fun _ => .done, s)

end Store

end Tenancy
