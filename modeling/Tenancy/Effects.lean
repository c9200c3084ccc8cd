import Tenancy.Log
import Tenancy.Metrics

/-!
# Effects

What a step leaves behind besides its answer and the new state: log events, metric samples, and
records that are on their way to the audit sink.
-/

namespace Tenancy

structure Effects where
  log : List LogEvent := []
  samples : List Metrics.Sample := []
  records : List Audit.Record := []
  deriving Repr, Inhabited

namespace Effects

def none : Effects := {}

def ofLog (log : List LogEvent) : Effects := { log }

def ofSamples (samples : List Metrics.Sample) : Effects := { samples }

/-- The effects of one step and then another. -/
def append (a b : Effects) : Effects :=
  ⟨a.log ++ b.log, a.samples ++ b.samples, a.records ++ b.records⟩

instance : Append Effects := ⟨append⟩

@[simp] theorem log_append (a b : Effects) : (a ++ b).log = a.log ++ b.log := rfl

@[simp] theorem samples_append (a b : Effects) : (a ++ b).samples = a.samples ++ b.samples := rfl

@[simp] theorem records_append (a b : Effects) : (a ++ b).records = a.records ++ b.records := rfl

end Effects

end Tenancy
