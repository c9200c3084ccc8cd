import Tenancy.Error
import Tenancy.Message

/-!
# Mailboxes

The bounded queue between a relay and its caller. The relay puts items in while there is room;
the caller takes them out, or drops the mailbox with all that is in it.
-/

namespace Tenancy

/-- What a caller receives: a message, or the error that ended the relay. -/
inductive RelayItem where
  | message (m : RelayedMessage)
  | failure (e : GatewayError)
  deriving DecidableEq, Repr, Inhabited

structure Mailbox where
  capacity : Nat
  items : List RelayItem := []
  /-- The caller still listens. -/
  isOpen : Bool := true
  deriving DecidableEq, Repr, Inhabited

namespace Mailbox

def hasRoom (b : Mailbox) : Bool := b.items.length < b.capacity

def put (b : Mailbox) (x : RelayItem) : Mailbox := { b with items := b.items ++ [x] }

def take? (b : Mailbox) : Option (RelayItem × Mailbox) :=
  match b.items with
  | [] => none
  | x :: rest => some (x, { b with items := rest })

def drop (b : Mailbox) : Mailbox := { b with items := [], isOpen := false }

end Mailbox

end Tenancy
