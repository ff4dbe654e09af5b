import PipelineTraining.Config.Basic

/-!
Records whose members all have a usual value, read from any kind of document.
A `Source` tells how a document spells numbers, switches, lists and members;
the members of a record are taken up in the order of the document, so the first
refusal is the one reported.
-/

namespace PipelineTraining.Document

/-- Why a document is refused. A memory limit that is neither a number nor `auto` is named. -/
inductive Refusal where
  | form
  | limit (text : String)
deriving DecidableEq

inductive Members (V : Type) where
  | named (entries : List (Option String × V))
  | listed (items : List V)

structure Source (V : Type) where
  natural : V → Except Refusal Nat
  switch : V → Except Refusal Bool
  real : V → Except Refusal Float
  limit : V → Except Refusal MemoryLimit
  ranks : V → Except Refusal (Option RankSet)
  members : V → Except Refusal (Members V)

structure Field (V R : Type) where
  name : String
  enter : V → R → Except Refusal R

variable {V R : Type}

/-- Takes up named members. Unknown ones are passed over; a known one may not come twice. -/
def fillNamed (fields : List (Field V R)) :
    List String → List (Option String × V) → R → Except Refusal R
  | _, [], record => .ok record
  | _, (none, _) :: _, _ => .error .form
  | seen, (some name, value) :: rest, record =>
      match fields.find? fun field => field.name == name with
      | none => fillNamed fields seen rest record
      | some field =>
          if name ∈ seen then .error .form
          else
            match field.enter value record with
            | .error refusal => .error refusal
            | .ok record => fillNamed fields (name :: seen) rest record

def fillListed : List (Field V R) → List V → R → Except Refusal R
  | _, [], record => .ok record
  | [], _ :: _, _ => .error .form
  | field :: fields, value :: rest, record =>
      match field.enter value record with
      | .error refusal => .error refusal
      | .ok record => fillListed fields rest record

def readRecord (source : Source V) (fields : List (Field V R)) (usual : R) (value : V) :
    Except Refusal R :=
  match source.members value with
  | .error refusal => .error refusal
  | .ok (.named entries) => fillNamed fields [] entries usual
  | .ok (.listed items) => fillListed fields items usual

def field (name : String) {A : Type} (read : V → Except Refusal A) (put : A → R → R) :
    Field V R where
  name := name
  enter value record := (read value).map fun content => put content record

def costFields (source : Source V) : List (Field V CostModel) := [
  field "forward" source.natural fun ticks cost => { cost with forward := ticks },
  field "backward" source.natural fun ticks cost => { cost with backward := ticks },
  field "weight" source.natural fun ticks cost => { cost with weight := ticks },
  field "comm" source.natural fun ticks cost => { cost with transfer := ticks }]

def readCost (source : Source V) : V → Except Refusal CostModel :=
  readRecord source (costFields source) .uniform

def windowFields (source : Source V) : List (Field V Window) := [
  field "start_iteration" source.natural fun first window => { window with first := first },
  field "end_iteration" source.natural fun last window => { window with last := last },
  field "ranks" source.ranks fun ranks window => { window with ranks := ranks }]

def readWindow (source : Source V) : V → Except Refusal Window :=
  readRecord source (windowFields source) .standard

def validationFields (source : Source V) : List (Field V ValidationSettings) := [
  field "enabled" source.switch fun enabled settings => { settings with enabled := enabled },
  field "exact_numeric_match" source.switch fun exact settings => { settings with exact := exact },
  field "relative_tolerance" source.real fun size settings => { settings with tolerance := size }]

def readValidation (source : Source V) : V → Except Refusal ValidationSettings :=
  readRecord source (validationFields source) .standard

def configFields (source : Source V) : List (Field V Config) := [
  field "pipeline_depth" source.natural fun depth config => { config with depth := depth },
  field "num_layers" source.natural fun layers config => { config with layers := layers },
  field "num_microbatches" source.natural fun count config => { config with microbatches := count },
  field "memory_limit" source.limit fun limit config => { config with limit := limit },
  field "interleave_factor" source.natural fun chunks config => { config with interleave := chunks },
  field "v_schedule" source.switch fun folded config => { config with folded := folded },
  field "split_backward" source.switch fun split config => { config with split := split },
  field "post_validation" (readValidation source) fun settings config =>
    { config with validation := settings },
  field "profiling" (readWindow source) fun window config => { config with profiling := window },
  field "recv_timeout_ms" source.natural fun span config =>
    { config with timeoutMilliseconds := span },
  field "cost" (readCost source) fun cost config => { config with cost := cost }]

def readConfig (source : Source V) : V → Except Refusal Config :=
  readRecord source (configFields source) .standard

end PipelineTraining.Document
