import PipelineTraining.Json.Reader

/-!
Which members of each record are looked at. Anything else in a record's object
is passed over unread.
-/

namespace PipelineTraining

def Json.Interest.members (names : List String) : Json.Interest :=
  .record (names.map fun name => (name, .everything))

namespace Document
open Json

def stageInterest : Interest :=
  .members ["chunk", "logical"]

def topologyInterest : Interest :=
  .members ["pipeline_depth", "num_layers", "virtual_stages"]

def layoutInterest : Interest :=
  .members ["pipeline_depth", "chunks", "layers_per_chunk", "placement"]

def transferInterest : Interest :=
  .record [
    ("kind", .everything),
    ("from", stageInterest),
    ("to", stageInterest),
    ("microbatch", .everything)]

/-- The kind of an operation may come last, so all of it is looked at. -/
def operationInterest : Interest :=
  .everything

def rankPlanInterest : Interest :=
  .record [("rank", .everything), ("ops", .each operationInterest)]

def statisticsInterest : Interest :=
  .members ["makespan", "busy", "bubble"]

def planInterest : Interest :=
  .record [
    ("layout", layoutInterest),
    ("num_microbatches", .everything),
    ("memory_limit", .everything),
    ("split_backward", .everything),
    ("post_validation", .everything),
    ("ranks", .each rankPlanInterest),
    ("stats", statisticsInterest)]

def recordInterest : Interest :=
  .record [
    ("iteration", .everything),
    ("rank", .everything),
    ("operation", operationInterest),
    ("start_us", .everything),
    ("end_us", .everything)]

def fingerprintInterest : Interest :=
  .members ["checksum", "l2_norm", "non_finite"]

def stageFingerprintInterest : Interest :=
  .record [
    ("stage", .everything),
    ("replica", .everything),
    ("fingerprint", fingerprintInterest)]

def matchModeInterest : Interest :=
  .record [("exact", .everything), ("tolerance", .members ["relative"])]

def costInterest : Interest :=
  .members ["forward", "backward", "weight", "comm"]

def windowInterest : Interest :=
  .members ["start_iteration", "end_iteration", "ranks"]

def validationInterest : Interest :=
  .members ["enabled", "exact_numeric_match", "relative_tolerance"]

def configInterest : Interest :=
  .record [
    ("pipeline_depth", .everything),
    ("num_layers", .everything),
    ("num_microbatches", .everything),
    ("memory_limit", .everything),
    ("interleave_factor", .everything),
    ("v_schedule", .everything),
    ("split_backward", .everything),
    ("post_validation", validationInterest),
    ("profiling", windowInterest),
    ("recv_timeout_ms", .everything),
    ("cost", costInterest)]

end Document
end PipelineTraining
