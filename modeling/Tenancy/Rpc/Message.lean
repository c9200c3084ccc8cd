import Tenancy.Wire.Codec

/-!
# Messages of the remote interface

The types that callers and the gateway exchange, with their forms on the wire. Times are
milliseconds from 1970-01-01T00:00:00Z.
-/

namespace Tenancy.Rpc

open Wire

structure AcquireLockRequest where
  key : String := ""
  ttlMs : Int64 := 0
  deriving DecidableEq, Repr, Inhabited

structure AcquireLockResponse where
  acquired : Bool := false
  /-- Empty unless the lock was acquired. -/
  ownerToken : String := ""
  expiresAt : Option Int64 := none
  deriving DecidableEq, Repr, Inhabited

structure ReleaseLockRequest where
  key : String := ""
  ownerToken : String := ""
  deriving DecidableEq, Repr, Inhabited

structure ReleaseLockResponse where
  released : Bool := false
  deriving DecidableEq, Repr, Inhabited

structure RenewLockRequest where
  key : String := ""
  ownerToken : String := ""
  ttlMs : Int64 := 0
  deriving DecidableEq, Repr, Inhabited

structure RenewLockResponse where
  renewed : Bool := false
  expiresAt : Option Int64 := none
  deriving DecidableEq, Repr, Inhabited

structure PublishRequest where
  channel : String := ""
  message : String := ""
  deriving DecidableEq, Repr, Inhabited

structure PublishResponse where
  subscriberCount : Int64 := 0
  deriving DecidableEq, Repr, Inhabited

structure SubscribeRequest where
  channels : List String := []
  deriving DecidableEq, Repr, Inhabited

structure SubscribeMessage where
  channel : String := ""
  message : String := ""
  timestamp : Int64 := 0
  deriving DecidableEq, Repr, Inhabited

/-! ## Forms on the wire -/

def AcquireLockRequest.codec : Codec AcquireLockRequest where
  types := [⟨1, "key", .text, .plain⟩, ⟨2, "ttl_ms", .int, .plain⟩]
  fields m := .ofText 1 m.key ++ .ofInt 2 m.ttlMs
  ofFields fs := ⟨fs.text 1, fs.int 2⟩

def AcquireLockResponse.codec : Codec AcquireLockResponse where
  types :=
    [⟨1, "acquired", .flag, .plain⟩, ⟨2, "owner_token", .text, .plain⟩,
     ⟨3, "expires_at", .int, .optional⟩]
  fields m := .ofFlag 1 m.acquired ++ .ofText 2 m.ownerToken ++ .ofInt? 3 m.expiresAt
  ofFields fs := ⟨fs.flag 1, fs.text 2, fs.int? 3⟩

def ReleaseLockRequest.codec : Codec ReleaseLockRequest where
  types := [⟨1, "key", .text, .plain⟩, ⟨2, "owner_token", .text, .plain⟩]
  fields m := .ofText 1 m.key ++ .ofText 2 m.ownerToken
  ofFields fs := ⟨fs.text 1, fs.text 2⟩

def ReleaseLockResponse.codec : Codec ReleaseLockResponse where
  types := [⟨1, "released", .flag, .plain⟩]
  fields m := .ofFlag 1 m.released
  ofFields fs := ⟨fs.flag 1⟩

def RenewLockRequest.codec : Codec RenewLockRequest where
  types :=
    [⟨1, "key", .text, .plain⟩, ⟨2, "owner_token", .text, .plain⟩, ⟨3, "ttl_ms", .int, .plain⟩]
  fields m := .ofText 1 m.key ++ .ofText 2 m.ownerToken ++ .ofInt 3 m.ttlMs
  ofFields fs := ⟨fs.text 1, fs.text 2, fs.int 3⟩

def RenewLockResponse.codec : Codec RenewLockResponse where
  types := [⟨1, "renewed", .flag, .plain⟩, ⟨2, "expires_at", .int, .optional⟩]
  fields m := .ofFlag 1 m.renewed ++ .ofInt? 2 m.expiresAt
  ofFields fs := ⟨fs.flag 1, fs.int? 2⟩

def PublishRequest.codec : Codec PublishRequest where
  types := [⟨1, "channel", .text, .plain⟩, ⟨2, "message", .text, .plain⟩]
  fields m := .ofText 1 m.channel ++ .ofText 2 m.message
  ofFields fs := ⟨fs.text 1, fs.text 2⟩

def PublishResponse.codec : Codec PublishResponse where
  types := [⟨1, "subscriber_count", .int, .plain⟩]
  fields m := .ofInt 1 m.subscriberCount
  ofFields fs := ⟨fs.int 1⟩

def SubscribeRequest.codec : Codec SubscribeRequest where
  types := [⟨1, "channels", .text, .list⟩]
  fields m := .ofTexts 1 m.channels
  ofFields fs := ⟨fs.texts 1⟩

def SubscribeMessage.codec : Codec SubscribeMessage where
  types :=
    [⟨1, "channel", .text, .plain⟩, ⟨2, "message", .text, .plain⟩, ⟨3, "timestamp", .int, .plain⟩]
  fields m := .ofText 1 m.channel ++ .ofText 2 m.message ++ .ofInt 3 m.timestamp
  ofFields fs := ⟨fs.text 1, fs.text 2, fs.int 3⟩

end Tenancy.Rpc
