import PipelineTraining.Json.Value

/-!
Records in data files. A record is an object whose members may come in any
order, or a list of its members' values in their own order. An object may hold
members nobody knows, but none that is known twice; a list may not be longer
than the record.
-/

namespace PipelineTraining.Document

structure Slots where
  listed : Bool
  values : List (Option Json)

def repeated (members : List (String × Json)) (name : String) : Bool :=
  1 < members.countP fun member => member.1 == name

def slots? (names : List String) : Json → Option Slots
  | .array items =>
      if names.length < items.length then none
      else some ⟨true, items.map some ++ List.replicate (names.length - items.length) none⟩
  | .object members =>
      if names.any (repeated members) then none
      else some ⟨false, names.map fun name => members.lookup name⟩
  | _ => none

def values? (names : List String) (json : Json) : Option (List Json) :=
  (slots? names json).bind fun slots => slots.values.mapM id

def natural? : Json → Option Nat
  | .whole value => if 0 ≤ value then some value.toNat else none
  | _ => none

def bool? : Json → Option Bool
  | .bool value => some value
  | _ => none

/-- Whole numbers are numbers too. -/
def real? : Json → Option Float
  | .real value => some value
  | .whole value =>
      let size := value.natAbs.toUInt64.toFloat
      some (if value < 0 then -size else size)
  | _ => none

def list? {α : Type} (item? : Json → Option α) : Json → Option (List α)
  | .array items => items.mapM item?
  | _ => none

def naturals? : Json → Option (List Nat) :=
  list? natural?

/-- A choice without further data: its name, or an object with the name and null. -/
def name? : Json → Option String
  | .string name => some name
  | .object [(name, .null)] => some name
  | _ => none

/-- The name of such a choice inside a record that says its own kind: there an object without
members passes for null. -/
def looseName? : Json → Option String
  | .object [(name, .object [])] => some name
  | json => name? json

def nullable? {α : Type} (value? : Json → Option α) : Json → Option (Option α)
  | .null => some none
  | json => (value? json).map some

end PipelineTraining.Document
