import Tenancy.Settings.Address
import Tenancy.Text.Blank
import Tenancy.Text.Utf8
import Tenancy.Time.Span

/-!
# Settings

The settings of a gateway, and how they are read from environment variables. A variable that is
unset, is no text, or does not hold what its setting needs leaves the setting at its default.
-/

namespace Tenancy

/-- Environment variables with their bytes. -/
abbrev Environment := List (String × Utf8.Bytes)

namespace Environment

/-- The value of a variable, if it is set to a text. -/
def text? (env : Environment) (name : String) : Option String :=
  (env.find? (·.1 = name)).bind fun v => Utf8.decode v.2

/-- The value without blanks at its ends, as `parse` reads it. -/
def parse? {α : Type} (env : Environment) (name : String) (parse : String → Option α) : Option α :=
  (env.text? name).bind fun s => parse (String.ofList (Text.trim s.toList))

end Environment

/-- A whole number below `2 ^ 64`, with an optional plus sign in front. -/
def wordOfText? (s : String) : Option Nat :=
  let digits := match s.toList with
    | '+' :: rest => rest
    | cs => cs
  (Text.readNat? digits).filter (· < UInt64.size)

structure Settings where
  rpcAddress : Address := .v4 [0, 0, 0, 0] 50051
  httpAddress : Address := .v4 [0, 0, 0, 0] 8080
  /-- The longest lease. -/
  maxLockTtl : Span := .ofSecs 3600
  /-- Messages that a relay holds for its caller. -/
  relayBuffer : Nat := 64
  /-- The most distinct channels of one subscription. -/
  maxChannels : Nat := 256
  /-- The users that may call; none means everybody. -/
  allowedUsers : List String := []
  expiryInterval : Span := .ofMillis 100
  channelCapacity : Nat := 1024
  deriving DecidableEq, Repr, Inhabited

namespace Settings

/-- The items of a list between commas, without blanks around them; empty ones are dropped. -/
def listOfText (s : String) : List String :=
  ((Text.splitOn ',' s.toList).map fun item => String.ofList (Text.trim item)).filter (· ≠ "")

def positive? (env : Environment) (name : String) : Option Nat :=
  (env.parse? name wordOfText?).filter (0 < ·)

def ofEnvironment (env : Environment) : Settings :=
  let defaults : Settings := {}
  { rpcAddress := (env.parse? "TENANTKV_GRPC_BIND" Address.ofText?).getD defaults.rpcAddress
    httpAddress := (env.parse? "TENANTKV_HTTP_BIND" Address.ofText?).getD defaults.httpAddress
    maxLockTtl := ((env.parse? "TENANTKV_MAX_LOCK_TTL_SECS" wordOfText?).map Span.ofSecs).getD
      defaults.maxLockTtl
    relayBuffer := (positive? env "TENANTKV_RELAY_BUFFER").getD defaults.relayBuffer
    maxChannels := (positive? env "TENANTKV_MAX_CHANNELS").getD defaults.maxChannels
    allowedUsers := ((env.text? "TENANTKV_ALLOWED_USERS").map listOfText).getD []
    expiryInterval := ((positive? env "TENANTKV_EXPIRY_INTERVAL_MS").map Span.ofMillis).getD
      defaults.expiryInterval
    channelCapacity := (positive? env "TENANTKV_CHANNEL_CAPACITY").getD defaults.channelCapacity }

end Settings

end Tenancy
