import PipelineTraining.Document.Settings
import PipelineTraining.Yaml.Core
import PipelineTraining.Yaml.Node

/-!
Settings in YAML. Where a number or a switch is due, a plain scalar is read as
one whatever its tag. A memory limit may be of any kind, and there the tag and
the style of a scalar decide what it is.
-/

namespace PipelineTraining.Yaml

namespace Document

def resolve (document : Document) : Node → Node
  | .alias anchor =>
      let places := document.anchored.filter fun place => place.anchor == anchor
      match places with
      | [] => .blank
      | first :: rest =>
          (rest.foldl (fun (best place : Anchored) =>
            if best.order < place.order then place else best) first).node
  | node => node

end Document

namespace Node

/-- The text of a scalar where a value of one kind is due: plain, or literal with that tag. -/
def due? (kind : String) : Node → Option String
  | .scalar text .plain _ => some text
  | .scalar text .literal tag => if tag = some (Core.tagOf kind) then some text else none
  | _ => none

def isEmpty : Node → Bool
  | .scalar "" .plain _ => true
  | _ => false

/-- Whether an optional value is absent; none if the tag says so and the text does not. -/
def isAbsent? : Node → Option Bool
  | .scalar text .plain none => some (text == "" || Core.isNull text)
  | .scalar text .plain (some tag) =>
      if tag = Core.tagOf "null" then (if Core.isNull text then some true else none)
      else some false
  | _ => some false

def key? : Node → Option String
  | .scalar text _ _ => some text
  | _ => none

end Node

end PipelineTraining.Yaml

namespace PipelineTraining.Document
open Yaml

def limitOfPlain (text : String) : Except Refusal MemoryLimit :=
  if text = "" ∨ Core.isNull text ∨ (Core.switch? text).isSome then .error .form
  else
    match Core.count? text with
    | some count => .ok (.fixed count)
    | none =>
        let isReal := !Core.isPadded text.toList && (Core.real? text).isSome
        if Core.isWhole text ∨ isReal then .error .form else MemoryLimit.ofName text

def limitOfNode : Node → Except Refusal MemoryLimit
  | .scalar text style tag =>
      match tag with
      | none => if style = .plain then limitOfPlain text else MemoryLimit.ofName text
      | some tag =>
          if tag.isLocal && tag.isText then .error .form
          else if tag = Core.tagOf "int" then required ((Core.count? text).map .fixed)
          else if ["bool", "float", "null"].any fun kind => tag == Core.tagOf kind then .error .form
          else if tag.isLocal ∧ style = .plain then limitOfPlain text
          else MemoryLimit.ofName text
  | _ => .error .form

def yamlNatural (document : Yaml.Document) (node : Node) : Except Refusal Nat :=
  required (((document.resolve node).due? "int").bind Core.natural?)

def yamlSwitch (document : Yaml.Document) (node : Node) : Except Refusal Bool :=
  required (((document.resolve node).due? "bool").bind Core.switch?)

def yamlReal (document : Yaml.Document) (node : Node) : Except Refusal Float :=
  required (((document.resolve node).due? "float").bind Core.real?)

def yamlRanks (document : Yaml.Document) (node : Node) : Except Refusal (Option RankSet) :=
  let node := document.resolve node
  match node.isAbsent? with
  | none => .error .form
  | some true => .ok none
  | some false =>
      match node with
      | .sequence items => do
          let ranks ← items.mapM (yamlNatural document)
          return some (.ofList ranks)
      | node => if node.isEmpty then .ok (some .empty) else .error .form

def yamlMembers (document : Yaml.Document) (node : Node) : Except Refusal (Members Node) :=
  match document.resolve node with
  | .mapping entries =>
      .ok (.named (entries.map fun entry => ((document.resolve entry.1).key?, entry.2)))
  | node => if node.isEmpty then .ok (.named []) else .error .form

def yaml (document : Yaml.Document) : Source Node where
  natural := yamlNatural document
  switch := yamlSwitch document
  real := yamlReal document
  limit node := limitOfNode (document.resolve node)
  ranks := yamlRanks document
  members := yamlMembers document

end PipelineTraining.Document
