import PipelineTraining.Document.Interest
import PipelineTraining.Document.Yaml

/-!
Configurations from texts and files. What a document says is taken up first, so
a refused memory limit is reported even if the text goes wrong further on; only
a configuration that was read is checked.
-/

namespace PipelineTraining
open Document

inductive FileContent where
  | missing
  | text (content : String)
  | notText

def FileContent.ofBytes (bytes : List UInt8) : FileContent :=
  ((String.fromUTF8? ⟨bytes.toArray⟩).map .text).getD .notText

namespace Config

def unreadable (format : DocumentFormat) : Refusal → Fault
  | .form => .configuration (.unreadable format none)
  | .limit text => .configuration (.unreadable format (some text))

def accept (format : DocumentFormat) (whole : Bool) : Except Refusal Config → Except Fault Config
  | .error refusal => .error (unreadable format refusal)
  | .ok config => if whole then .ok config else .error (unreadable format .form)

def readJson (text : String) : Except Fault Config :=
  let (value, whole) := Json.read configInterest text
  match value with
  | none => .error (unreadable .json .form)
  | some value => accept .json whole (Config.decode value)

/-- A text without any document says nothing against the standard. -/
def readYaml (text : String) : Except Fault Config :=
  let document := Yaml.Document.ofText text
  let whole := document.whole && !document.more
  match document.root with
  | none => accept .yaml whole (.ok .standard)
  | some root => accept .yaml whole (readConfig (yaml document) root)

def checked (read : Except Fault Config) : Except Fault Config := do
  let config ← read
  config.check
  return config

def ofJson (text : String) : Except Fault Config :=
  checked (readJson text)

def ofYaml (text : String) : Except Fault Config :=
  checked (readYaml text)

/-- The file that a path leads to: its last part that names anything but the place itself. -/
def fileName? (path : String) : Option String :=
  let parts := (path.splitOn "/").filter fun part => part != "" && part != "."
  parts.getLast?.filter (· != "..")

def extension? (path : String) : Option String :=
  match (((fileName? path).getD "").splitOn ".").reverse with
  | last :: front :: rest => if front = "" ∧ rest = [] then none else some last
  | _ => none

def ofFile (path : String) : FileContent → Except Fault Config
  | .missing => .error (.io "No such file or directory (os error 2)")
  | .notText => .error (.io "stream did not contain valid UTF-8")
  | .text content =>
      match extension? path with
      | some "yaml" => ofYaml content
      | some "yml" => ofYaml content
      | some "json" => ofJson content
      | _ => .error (.configuration (.unknownExtension path))

end Config
end PipelineTraining
