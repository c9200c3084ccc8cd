import Tenancy.Error

/-!
# Metrics

What is counted: a `Sample` is one observation, `Sample.changes` are the series that it moves,
and `Counts` adds them up. `Series.text` is the name of a series with its labels.
-/

namespace Tenancy.Metrics

/-- The number `digits / 10 ^ places`. -/
structure Decimal where
  digits : Int
  places : Nat
  deriving DecidableEq, Repr, Inhabited

def Decimal.le (a b : Decimal) : Bool :=
  a.digits * Int.pow 10 b.places ≤ b.digits * Int.pow 10 a.places

def Decimal.zero : Decimal := ⟨0, 0⟩

/-- One observation. Durations are in seconds. -/
inductive Sample where
  | lock (operation outcome : String) (seconds : Decimal)
  | publish (success : Bool) (seconds : Decimal)
  | relayMessage (delivered : Bool)
  | relayStarted
  | relayStopped
  | auditFailure (operation : String)
  deriving DecidableEq, Repr, Inhabited

inductive Series where
  | lockOperations (operation outcome : String)
  | durationBucket (operation bound : String)
  | durationCount (operation : String)
  | publishes (status : String)
  | relayMessages (status : String)
  | activeRelays
  | auditFailures (operation : String)
  deriving DecidableEq, Repr, Inhabited

/-- The upper bounds of the duration buckets, in seconds, as they are written and as numbers. -/
def durationBounds : List (String × Decimal) :=
  [("0.0001", ⟨1, 4⟩), ("0.0005", ⟨5, 4⟩), ("0.001", ⟨1, 3⟩), ("0.005", ⟨5, 3⟩),
   ("0.01", ⟨1, 2⟩), ("0.025", ⟨25, 3⟩), ("0.05", ⟨5, 2⟩), ("0.1", ⟨1, 1⟩), ("0.25", ⟨25, 2⟩),
   ("0.5", ⟨5, 1⟩), ("1", ⟨1, 0⟩)]

/-- The series that count a duration. -/
def durationSeries (operation : String) (seconds : Decimal) : List Series :=
  .durationCount operation :: .durationBucket operation "+Inf" ::
    (durationBounds.filter fun b => seconds.le b.2).map fun b => .durationBucket operation b.1

/-- The series that a sample moves, with the amounts. -/
def Sample.changes : Sample → List (Series × Int)
  | .lock operation outcome seconds =>
    (Series.lockOperations operation outcome :: durationSeries operation seconds).map (·, 1)
  | .publish success seconds =>
    (Series.publishes (if success then "success" else "error")
      :: durationSeries "publish" seconds).map (·, 1)
  | .relayMessage delivered =>
    [(.relayMessages (if delivered then "delivered" else "dropped"), 1)]
  | .relayStarted => [(.activeRelays, 1)]
  | .relayStopped => [(.activeRelays, -1)]
  | .auditFailure operation => [(.auditFailures operation, 1)]

/-- The amount by which samples moved a series. -/
def total (samples : List Sample) (s : Series) : Int :=
  ((samples.flatMap Sample.changes).filterMap fun c => if c.1 = s then some c.2 else none).foldr
    (· + ·) 0

/-- Amounts by series, each series once. -/
abbrev Counts := List (Series × Int)

namespace Counts

def add (s : Series) (n : Int) : Counts → Counts
  | [] => [(s, n)]
  | (t, m) :: rest => if t = s then (t, m + n) :: rest else (t, m) :: add s n rest

/-- The amounts of all series that the samples moved away from zero. -/
def ofSamples (samples : List Sample) : Counts :=
  ((samples.flatMap Sample.changes).foldl (fun counts c => add c.1 c.2 counts) []).filter (·.2 ≠ 0)

end Counts

/-! ## Names -/

/-- A label value between quotes. -/
def escapeLabel (s : String) : List Char :=
  s.toList.flatMap fun c =>
    if c = '\\' then ['\\', '\\']
    else if c = '"' then ['\\', '"']
    else if c = '\n' then ['\\', 'n']
    else [c]

def labelText (l : String × String) : List Char :=
  l.1.toList ++ '=' :: '"' :: escapeLabel l.2 ++ ['"']

def named (name : String) (labels : List (String × String)) : String :=
  if labels = [] then name
  else String.ofList (name.toList ++ '{' :: [','].intercalate (labels.map labelText) ++ ['}'])

def Series.text : Series → String
  | .lockOperations operation outcome =>
    named "tenantkv_lock_operations_total" [("operation", operation), ("outcome", outcome)]
  | .durationBucket operation bound =>
    named "tenantkv_operation_duration_seconds_bucket" [("operation", operation), ("le", bound)]
  | .durationCount operation =>
    named "tenantkv_operation_duration_seconds_count" [("operation", operation)]
  | .publishes status => named "tenantkv_publish_total" [("status", status)]
  | .relayMessages status => named "tenantkv_relay_messages_total" [("status", status)]
  | .activeRelays => named "tenantkv_active_relays" []
  | .auditFailures operation => named "tenantkv_audit_failures_total" [("operation", operation)]

/-- What registering the metrics a second time answers: the first name is taken. -/
def registeredTwice : GatewayError :=
  ⟨.internalError,
    "Failed to register lock_operations_total: Duplicate metrics collector registration attempted"⟩

end Tenancy.Metrics
