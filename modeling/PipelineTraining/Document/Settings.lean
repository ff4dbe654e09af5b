import PipelineTraining.Document.Record
import PipelineTraining.Document.Source

/-!
Settings as JSON records: costs, the timing window, validation settings, the
memory limit and the whole configuration.
-/

namespace PipelineTraining
open Document

namespace Document

def required {A : Type} : Option A → Except Refusal A
  | some value => .ok value
  | none => .error .form

end Document

namespace RankSet

def encode (set : RankSet) : Json :=
  .array (set.ranks.map .natural)

def decode? (json : Json) : Option RankSet :=
  (naturals? json).map ofList

end RankSet

namespace MemoryLimit

def encode : MemoryLimit → Json
  | .auto => .string "auto"
  | .fixed count => .natural count

/-- The name of the automatic limit may be in capitals. -/
def ofName (name : String) : Except Refusal MemoryLimit :=
  if name.toLower = "auto" then .ok .auto else .error (.limit name)

def decode : Json → Except Refusal MemoryLimit
  | .string name => ofName name
  | json => required ((natural? json).map .fixed)

end MemoryLimit

namespace Document

def jsonMembers : Json → Except Refusal (Members Json)
  | .object members => .ok (.named (members.map fun member => (some member.1, member.2)))
  | .array items => .ok (.listed items)
  | _ => .error .form

def json : Source Json where
  natural value := required (natural? value)
  switch value := required (bool? value)
  real value := required (real? value)
  limit := MemoryLimit.decode
  ranks value := required (nullable? RankSet.decode? value)
  members := jsonMembers

end Document

namespace CostModel

def encode (cost : CostModel) : Json :=
  .object [
    ("forward", .natural cost.forward),
    ("backward", .natural cost.backward),
    ("weight", .natural cost.weight),
    ("comm", .natural cost.transfer)]

def decode : Json → Except Refusal CostModel :=
  readCost json

end CostModel

namespace Window

def encode (window : Window) : Json :=
  .object [
    ("start_iteration", .natural window.first),
    ("end_iteration", .natural window.last),
    ("ranks", .optional (window.ranks.map RankSet.encode))]

def decode : Json → Except Refusal Window :=
  readWindow json

end Window

namespace ValidationSettings

def encode (settings : ValidationSettings) : Json :=
  .object [
    ("enabled", .bool settings.enabled),
    ("exact_numeric_match", .bool settings.exact),
    ("relative_tolerance", .real settings.tolerance)]

def decode : Json → Except Refusal ValidationSettings :=
  readValidation json

end ValidationSettings

namespace Config

def membersWith (config : Config) (validation : Json) : List (String × Json) := [
  ("pipeline_depth", .natural config.depth),
  ("num_layers", .natural config.layers),
  ("num_microbatches", .natural config.microbatches),
  ("memory_limit", config.limit.encode),
  ("interleave_factor", .natural config.interleave),
  ("v_schedule", .bool config.folded),
  ("split_backward", .bool config.split),
  ("post_validation", validation),
  ("profiling", config.profiling.encode),
  ("recv_timeout_ms", .natural config.timeoutMilliseconds),
  ("cost", config.cost.encode)]

def encode (config : Config) : Json :=
  .object (config.membersWith config.validation.encode)

def decode : Json → Except Refusal Config :=
  readConfig json

end Config
end PipelineTraining
