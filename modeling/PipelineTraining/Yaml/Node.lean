import PipelineTraining.Yaml.Token

/-!
The first document of a YAML text as a tree. Anchored nodes are kept in a table,
and an alias names its place in it. A text that breaks off keeps what was
readable before, open collections closed at that point.
-/

namespace PipelineTraining.Yaml

inductive Node where
  | scalar (text : String) (style : Style) (tag : Option Tag)
  | sequence (items : List Node)
  | mapping (entries : List (Node × Node))
  | alias (anchor : Nat)

namespace Node

def blank : Node := .scalar "" .plain none

end Node

/-- An anchored node. Of several under one number the one that began last counts. -/
structure Anchored where
  anchor : Nat
  order : Nat
  node : Node

structure Composer where
  tokens : List Token
  tags : List (String × Tag)
  names : List (String × Nat)
  order : Nat
  anchored : List Anchored

structure Composed (α : Type) where
  value : α
  rest : Composer
  whole : Bool

namespace Composer

def advance (composer : Composer) : Composer :=
  { composer with tokens := composer.tokens.tail }

def next? (composer : Composer) : Option Token :=
  composer.tokens.head?

def nextIs (composer : Composer) (wanted : List Token) : Bool :=
  composer.next?.any fun token => wanted.contains token

def failed (composer : Composer) : Composed (Option Node) := ⟨none, composer, false⟩

/-- An anchor's number is how many names are in use; a name that is used again gets a new one. -/
def declare (composer : Composer) (name : Option String) : Composer × Option (Nat × Nat) :=
  match name with
  | none => (composer, none)
  | some name =>
      let anchor := composer.names.length
      let others := composer.names.filter fun entry => entry.1 != name
      ({ composer with names := (name, anchor) :: others, order := composer.order + 1 },
        some (anchor, composer.order))

def keep (composer : Composer) (place : Option (Nat × Nat)) (node : Node) : Composer :=
  match place with
  | none => composer
  | some (anchor, order) =>
      { composer with anchored := ⟨anchor, order, node⟩ :: composer.anchored }

def properties (composer : Composer) : Option String × Option (String × Tag) × Composer :=
  match composer.tokens with
  | .anchor name :: .tag handle suffix :: rest =>
      (some name, some (handle, suffix), { composer with tokens := rest })
  | .anchor name :: rest => (some name, none, { composer with tokens := rest })
  | .tag handle suffix :: .anchor name :: rest =>
      (some name, some (handle, suffix), { composer with tokens := rest })
  | .tag handle suffix :: rest => (none, some (handle, suffix), { composer with tokens := rest })
  | _ => (none, none, composer)

def fullTag (composer : Composer) : Option (String × Tag) → Option (Option Tag)
  | none => some none
  | some (handle, suffix) =>
      if handle = "" then some (some suffix)
      else (composer.tags.lookup handle).map fun front => some (front ++ suffix)

mutual

/-- A node of a block or flow collection. In a block mapping a sequence need not be indented. -/
def node : Nat → Bool → Bool → Composer → Composed (Option Node)
  | 0, _, _, composer => composer.failed
  | steps + 1, block, indentless, composer =>
      match composer.next? with
      | some (.alias name) =>
          match composer.names.lookup name with
          | some anchor => ⟨some (.alias anchor), composer.advance, true⟩
          | none => composer.failed
      | _ =>
          let (name, tag, composer) := composer.properties
          match composer.fullTag tag with
          | none => composer.failed
          | some tag =>
              let (composer, place) := composer.declare name
              let finish (found : Composed Node) : Composed (Option Node) :=
                ⟨some found.value, found.rest.keep place found.value, found.whole⟩
              let sequence (found : Composed (List Node)) : Composed (Option Node) :=
                finish ⟨.sequence found.value, found.rest, found.whole⟩
              let mapping (found : Composed (List (Node × Node))) : Composed (Option Node) :=
                finish ⟨.mapping found.value, found.rest, found.whole⟩
              match composer.next? with
              | some (.scalar text style) =>
                  finish ⟨.scalar text style tag, composer.advance, true⟩
              | some .flowSequenceStart => sequence (flowItems steps true composer.advance)
              | some .flowMappingStart => mapping (flowEntries steps true composer.advance)
              | some .blockEntry =>
                  if indentless then sequence (indentlessItems steps composer)
                  else if place.isSome ∨ tag.isSome then
                    finish ⟨.scalar "" .plain tag, composer, true⟩
                  else composer.failed
              | other =>
                  if block ∧ other = some .blockSequenceStart then
                    sequence (blockItems steps composer.advance)
                  else if block ∧ other = some .blockMappingStart then
                    mapping (blockEntries steps composer.advance)
                  else if other.isSome ∧ (place.isSome ∨ tag.isSome) then
                    finish ⟨.scalar "" .plain tag, composer, true⟩
                  else composer.failed

def nodeUnless : Nat → Bool → Bool → List Token → Composer → Composed (Option Node)
  | 0, _, _, _, composer => composer.failed
  | steps + 1, block, indentless, enders, composer =>
      if composer.nextIs enders then ⟨some .blank, composer, true⟩
      else node steps block indentless composer

def blockItems : Nat → Composer → Composed (List Node)
  | 0, composer => ⟨[], composer, false⟩
  | steps + 1, composer =>
      match composer.next? with
      | some .blockEntry =>
          match nodeUnless steps true false [.blockEntry, .blockEnd] composer.advance with
          | ⟨none, rest, _⟩ => ⟨[], rest, false⟩
          | ⟨some item, rest, false⟩ => ⟨[item], rest, false⟩
          | ⟨some item, rest, true⟩ =>
              let found := blockItems steps rest
              ⟨item :: found.value, found.rest, found.whole⟩
      | some .blockEnd => ⟨[], composer.advance, true⟩
      | _ => ⟨[], composer, false⟩

def indentlessItems : Nat → Composer → Composed (List Node)
  | 0, composer => ⟨[], composer, false⟩
  | steps + 1, composer =>
      match composer.next? with
      | some .blockEntry =>
          match nodeUnless steps true false [.blockEntry, .key, .value, .blockEnd]
              composer.advance with
          | ⟨none, rest, _⟩ => ⟨[], rest, false⟩
          | ⟨some item, rest, false⟩ => ⟨[item], rest, false⟩
          | ⟨some item, rest, true⟩ =>
              let found := indentlessItems steps rest
              ⟨item :: found.value, found.rest, found.whole⟩
      | some _ => ⟨[], composer, true⟩
      | none => ⟨[], composer, false⟩

def blockValue : Nat → Composer → Composed (Option Node)
  | 0, composer => composer.failed
  | steps + 1, composer =>
      match composer.next? with
      | some .value =>
          nodeUnless steps true true [.key, .value, .blockEnd] composer.advance
      | some _ => ⟨some .blank, composer, true⟩
      | none => composer.failed

def blockEntries : Nat → Composer → Composed (List (Node × Node))
  | 0, composer => ⟨[], composer, false⟩
  | steps + 1, composer =>
      match composer.next? with
      | some .key =>
          match nodeUnless steps true true [.key, .value, .blockEnd] composer.advance with
          | ⟨some key, rest, true⟩ =>
              match blockValue steps rest with
              | ⟨none, rest, _⟩ => ⟨[], rest, false⟩
              | ⟨some value, rest, false⟩ => ⟨[(key, value)], rest, false⟩
              | ⟨some value, rest, true⟩ =>
                  let found := blockEntries steps rest
                  ⟨(key, value) :: found.value, found.rest, found.whole⟩
          | ⟨_, rest, _⟩ => ⟨[], rest, false⟩
      | some .blockEnd => ⟨[], composer.advance, true⟩
      | _ => ⟨[], composer, false⟩

def flowPair : Nat → Composer → Composed (List (Node × Node))
  | 0, composer => ⟨[], composer, false⟩
  | steps + 1, composer =>
      let key :=
        if composer.nextIs [.value, .flowEntry, .flowSequenceEnd] then
          ⟨some .blank, composer.advance, true⟩
        else node steps false false composer
      match key with
      | ⟨some key, rest, true⟩ =>
          let value :=
            match rest.next? with
            | some .value => nodeUnless steps false false [.flowEntry, .flowSequenceEnd] rest.advance
            | some _ => ⟨some .blank, rest, true⟩
            | none => rest.failed
          match value with
          | ⟨some value, rest, whole⟩ => ⟨[(key, value)], rest, whole⟩
          | ⟨none, rest, _⟩ => ⟨[], rest, false⟩
      | ⟨_, rest, _⟩ => ⟨[], rest, false⟩

def flowItems : Nat → Bool → Composer → Composed (List Node)
  | 0, _, composer => ⟨[], composer, false⟩
  | steps + 1, first, composer =>
      if composer.nextIs [.flowSequenceEnd] then ⟨[], composer.advance, true⟩
      else if !first && !composer.nextIs [.flowEntry] then ⟨[], composer, false⟩
      else
        let composer := if first then composer else composer.advance
        if composer.nextIs [.flowSequenceEnd] then ⟨[], composer.advance, true⟩
        else
          let item :=
            if composer.nextIs [.key] then
              let pair := flowPair steps composer.advance
              ⟨some (.mapping pair.value), pair.rest, pair.whole⟩
            else node steps false false composer
          match item with
          | ⟨none, rest, _⟩ => ⟨[], rest, false⟩
          | ⟨some item, rest, false⟩ => ⟨[item], rest, false⟩
          | ⟨some item, rest, true⟩ =>
              let found := flowItems steps false rest
              ⟨item :: found.value, found.rest, found.whole⟩

def flowValue : Nat → Composer → Composed (Option Node)
  | 0, composer => composer.failed
  | steps + 1, composer =>
      match composer.next? with
      | some .value => nodeUnless steps false false [.flowEntry, .flowMappingEnd] composer.advance
      | some _ => ⟨some .blank, composer, true⟩
      | none => composer.failed

def flowEntries : Nat → Bool → Composer → Composed (List (Node × Node))
  | 0, _, composer => ⟨[], composer, false⟩
  | steps + 1, first, composer =>
      if composer.nextIs [.flowMappingEnd] then ⟨[], composer.advance, true⟩
      else if !first && !composer.nextIs [.flowEntry] then ⟨[], composer, false⟩
      else
        let composer := if first then composer else composer.advance
        if composer.nextIs [.flowMappingEnd] then ⟨[], composer.advance, true⟩
        else
          let keyed := composer.nextIs [.key]
          let key :=
            if keyed then
              nodeUnless steps false false [.value, .flowEntry, .flowMappingEnd] composer.advance
            else node steps false false composer
          match key with
          | ⟨some key, rest, true⟩ =>
              let value := if keyed then flowValue steps rest else ⟨some .blank, rest, true⟩
              match value with
              | ⟨none, rest, _⟩ => ⟨[], rest, false⟩
              | ⟨some value, rest, false⟩ => ⟨[(key, value)], rest, false⟩
              | ⟨some value, rest, true⟩ =>
                  let found := flowEntries steps false rest
                  ⟨(key, value) :: found.value, found.rest, found.whole⟩
          | ⟨_, rest, _⟩ => ⟨[], rest, false⟩

end

def isDirective : Token → Bool
  | .versionDirective .. => true
  | .tagDirective .. => true
  | _ => false

/-- Takes the directives in front of a document. There is at most one version, 1.1 or 1.2, and
one declaration of a handle. -/
def directives : Nat → Bool → Composer → Option Composer
  | 0, _, _ => none
  | steps + 1, versioned, composer =>
      match composer.tokens with
      | .versionDirective major minor :: rest =>
          if versioned ∨ major ≠ 1 ∨ (minor ≠ 1 ∧ minor ≠ 2) then none
          else directives steps true { composer with tokens := rest }
      | .tagDirective handle front :: rest =>
          if (composer.tags.lookup handle).isSome then none
          else
            directives steps versioned
              { composer with tokens := rest, tags := (handle, front) :: composer.tags }
      | _ => some composer

end Composer

structure Document where
  root : Option Node
  anchored : List Anchored
  whole : Bool
  more : Bool

namespace Document

def usualTags : List (String × Tag) :=
  [("!", .ofText "!"), ("!!", .ofText "tag:yaml.org,2002:")]

def void : Document := ⟨none, [], true, false⟩

def unreadable : Document := ⟨none, [], false, false⟩

def ending (found : Composed (Option Node)) : Document :=
  let rest := found.rest.tokens.dropWhile (· == .documentEnd)
  { root := found.value
    anchored := found.rest.anchored
    whole := found.whole && !found.rest.tokens.isEmpty
    more := rest != [.streamEnd] }

def content (composer : Composer) : Composed (Option Node) :=
  Composer.node (4 * composer.tokens.length + 8) true false composer

def ofTokens (tokens : List Token) : Document :=
  let composer : Composer := ⟨tokens, [], [], 0, []⟩
  match tokens with
  | [] => unreadable
  | .streamEnd :: _ => void
  | token :: _ =>
      if Composer.isDirective token ∨ token = .documentStart then
        match composer.directives (tokens.length + 1) false with
        | none => unreadable
        | some composer =>
            let usual := usualTags.filter fun entry => (composer.tags.lookup entry.1).isNone
            let composer := { composer with tags := composer.tags ++ usual }
            match composer.tokens with
            | .documentStart :: rest =>
                let composer := { composer with tokens := rest }
                if composer.next?.any fun token => Composer.isDirective token ||
                    token == .documentStart || token == .documentEnd || token == .streamEnd then
                  ending ⟨some .blank, composer, true⟩
                else ending (content composer)
            | _ => unreadable
      else ending (content { composer with tags := usualTags })

def ofText (text : String) : Document :=
  ofTokens (tokens text)

end Document
end PipelineTraining.Yaml
