import Tenancy.Tenant
import Tenancy.Time.Timestamp

/-!
# Messages

What travels on channels: a message as the store carries it, and as a relay hands it to a
caller, under the logical name of its channel.
-/

namespace Tenancy

structure Message where
  channel : String
  payload : String
  deriving DecidableEq, Repr, Inhabited

/-- A message for a caller, stamped when it was taken from the store. -/
structure RelayedMessage where
  channel : String
  payload : String
  time : Timestamp
  deriving DecidableEq, Repr, Inhabited

/-- The caller's view of a store message. -/
def Message.relayed (m : Message) (t : Tenant) (now : Timestamp) : RelayedMessage :=
  ⟨t.deisolate m.channel, m.payload, now⟩

end Tenancy
