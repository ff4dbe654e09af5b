import Mathlib.Data.List.Nodup
import PipelineTraining.Document.Settings

/-!
Records on their way through data files. JSON carries every value as it is except for numbers
that are not finite, in whose place it has null. An object that holds all members of a record
under their names reads as the list of their values.
-/

namespace PipelineTraining

namespace Decimal
open Float.Model

variable {value : Float}

theorem exponent_of_not_finite (broken : value.isFinite = false) :
    value.toBits.toNat / Binary.hidden % 2048 = 2047 := by
  have unpacked : (UnpackedFloat.unpack Format.binary64 value.toBits.toBitVec).isFinite = false :=
    broken
  by_cases full : @UnpackedFloat.unpackExponent Format.binary64 value.toBits.toBitVec = -1#_
  · have bits := congrArg BitVec.toNat full
    simpa [UnpackedFloat.unpackExponent, BitVec.extractLsb_toNat, Nat.shiftRight_eq_div_pow,
      Binary.hidden] using bits
  · -- With any other exponent the bits stand for a finite number: small, zero or normal.
    rw [show UnpackedFloat.unpack Format.binary64 value.toBits.toBitVec = _ from if_neg full]
      at unpacked
    by_cases low : @UnpackedFloat.unpackExponent Format.binary64 value.toBits.toBitVec = 0#_
    · rw [if_pos low] at unpacked
      by_cases zero : @UnpackedFloat.unpackMantissa Format.binary64 value.toBits.toBitVec = 0#_
      · rw [dif_pos zero] at unpacked
        cases unpacked
      · rw [dif_neg zero] at unpacked
        cases unpacked
    · rw [if_neg low] at unpacked
      cases unpacked

/-- In data files such a number is written as null. -/
theorem data_write_of_not_finite (broken : value.isFinite = false) : data.write value = "null" := by
  have exponent := exponent_of_not_finite broken
  unfold Style.write Binary.ofFloat Binary.ofBits
  simp only [exponent, if_true]
  split
  · rfl
  · rfl
  · rename_i found
    split at found <;> cases found

end Decimal

namespace Json

mutual

/-- What a data file carries of a value: null stands for numbers that are not finite. -/
def carried : Json → Json
  | .null => .null
  | .bool value => .bool value
  | .whole value => .whole value
  | .real value => if value.isFinite then .real value else .null
  | .string text => .string text
  | .array items => .array (carriedItems items)
  | .object members => .object (carriedMembers members)

def carriedItems : List Json → List Json
  | [] => []
  | item :: rest => carried item :: carriedItems rest

def carriedMembers : List (String × Json) → List (String × Json)
  | [] => []
  | (name, value) :: rest => (name, carried value) :: carriedMembers rest

end

mutual

theorem write_carried (json : Json) : json.carried.write = json.write := by
  cases json with
  | null | bool | whole | string => rfl
  | real value =>
      cases finite : value.isFinite with
      | true => simp [carried, finite]
      | false => simp [carried, finite, write, Decimal.data_write_of_not_finite finite]
  | array items => simp only [carried, write, writeItems_carried items]
  | object members => simp only [carried, write, writeMembers_carried members]

theorem writeItems_carried (items : List Json) :
    writeItems (carriedItems items) = writeItems items := by
  cases items with
  | nil => rfl
  | cons item rest => simp only [carriedItems, writeItems, write_carried item,
      writeItems_carried rest]

theorem writeMembers_carried (members : List (String × Json)) :
    writeMembers (carriedMembers members) = writeMembers members := by
  cases members with
  | nil => rfl
  | cons member rest => simp only [carriedMembers, writeMembers, write_carried member.2,
      writeMembers_carried rest]

end

@[simp] theorem carried_natural (value : Nat) : (natural value).carried = natural value := rfl

@[simp] theorem carried_bool (value : Bool) : (bool value).carried = bool value := rfl

@[simp] theorem carried_string (text : String) : (string text).carried = string text := rfl

theorem carriedItems_eq (items : List Json) : carriedItems items = items.map carried := by
  induction items with
  | nil => rfl
  | cons item rest ih => simp [carriedItems, ih]

theorem map_fst_carriedMembers (members : List (String × Json)) :
    (carriedMembers members).map Prod.fst = members.map Prod.fst := by
  induction members with
  | nil => rfl
  | cons member rest ih => simp [carriedMembers, ih]

theorem map_snd_carriedMembers (members : List (String × Json)) :
    (carriedMembers members).map Prod.snd = members.map fun member => member.2.carried := by
  induction members with
  | nil => rfl
  | cons member rest ih => simp [carriedMembers, ih]

end Json

namespace Document
open Json

variable {α : Type} {names : List String} {members : List (String × Json)}

@[simp] theorem natural?_natural (value : Nat) : natural? (.natural value) = some value := by
  simp [natural?, Json.natural]

@[simp] theorem bool?_bool (value : Bool) : bool? (.bool value) = some value := rfl

theorem list?_array {item? : Json → Option α} {encode : α → Json}
    (read : ∀ item, item? (encode item).carried = some item) (items : List α) :
    list? item? (Json.array (items.map encode)).carried = some items := by
  rw [Json.carried, Json.carriedItems_eq, List.map_map]
  induction items with
  | nil => rfl
  | cons item rest ih =>
      simp only [list?] at ih
      simp [list?, read, ih]

theorem naturals?_array (values : List Nat) :
    naturals? (Json.array (values.map .natural)).carried = some values :=
  list?_array (fun value => by simp) values

theorem repeated_eq_false (distinct : (members.map Prod.fst).Nodup) (name : String) :
    repeated members name = false := by
  have once := List.nodup_iff_count_le_one.mp distinct name
  rw [List.count, List.countP_map] at once
  exact decide_eq_false (Nat.not_lt_of_le once)

theorem map_lookup (distinct : (members.map Prod.fst).Nodup) :
    (members.map Prod.fst).map (fun name => members.lookup name) =
      (members.map Prod.snd).map some := by
  induction members with
  | nil => rfl
  | cons member rest ih =>
      obtain ⟨name, value⟩ := member
      obtain ⟨fresh, distinct⟩ := List.nodup_cons.mp distinct
      have others : ∀ other ∈ rest.map Prod.fst,
          ((name, value) :: rest).lookup other = rest.lookup other := by
        intro other listed
        have different : other ≠ name := fun same => fresh (same ▸ listed)
        rw [List.lookup_cons, beq_false_of_ne different]
      simp only [List.map_cons, List.lookup_cons_self]
      rw [List.map_congr_left others, ih distinct]

theorem slots?_object (named : members.map Prod.fst = names) (distinct : names.Nodup) :
    slots? names (.object members) = some ⟨false, (members.map Prod.snd).map some⟩ := by
  subst named
  have once : (members.map Prod.fst).any (repeated members) = false := by
    rw [List.any_eq_false]
    intro name _
    simp [repeated_eq_false distinct]
  rw [slots?, once, if_neg Bool.false_ne_true, map_lookup distinct]

theorem slots?_carried (named : members.map Prod.fst = names) (distinct : names.Nodup) :
    slots? names (Json.object members).carried =
      some ⟨false, (members.map fun member => member.2.carried).map some⟩ := by
  rw [carried, slots?_object ((map_fst_carriedMembers members).trans named) distinct,
    map_snd_carriedMembers]

theorem values?_carried (named : members.map Prod.fst = names) (distinct : names.Nodup) :
    values? names (Json.object members).carried =
      some (members.map fun member => member.2.carried) := by
  rw [values?, slots?_carried named distinct, Option.bind_some, List.mapM_map]
  exact List.mapM_pure.trans (congrArg some (List.map_id _))

variable {V R : Type} {fields later : List (Field V R)} {entries : List (String × V)}

theorem find?_field (distinct : (fields.map Field.name).Nodup) {field : Field V R}
    (member : field ∈ fields) :
    fields.find? (fun other => other.name == field.name) = some field := by
  induction fields with
  | nil => cases member
  | cons first rest ih =>
      obtain ⟨fresh, distinct⟩ := List.nodup_cons.mp distinct
      rcases List.mem_cons.mp member with rfl | later
      · simp
      · have different : first.name ≠ field.name :=
          fun same => fresh (same ▸ List.mem_map_of_mem later)
        rw [List.find?_cons_of_neg (by simpa using different), ih distinct later]

/-- Members that come under the names of the fields still open, in their order, are taken up as
the list of their values is. -/
theorem fillNamed_eq_fillListed {seen : List String}
    (found : ∀ field ∈ later, fields.find? (fun other => other.name == field.name) = some field)
    (unseen : ∀ field ∈ later, field.name ∉ seen) (distinct : (later.map Field.name).Nodup)
    (named : entries.map Prod.fst = later.map Field.name) (record : R) :
    fillNamed fields seen (entries.map fun entry => (some entry.1, entry.2)) record =
      fillListed later (entries.map Prod.snd) record := by
  induction later generalizing entries seen record with
  | nil =>
      rw [List.map_eq_nil_iff.mp named]
      rfl
  | cons field later ih =>
      obtain ⟨⟨name, value⟩, rest, rfl, rfl, aligned⟩ := List.map_eq_cons_iff.mp named
      obtain ⟨fresh, distinct⟩ := List.nodup_cons.mp distinct
      simp only [List.map_cons, fillNamed, fillListed, found field List.mem_cons_self,
        if_neg (unseen field List.mem_cons_self)]
      cases field.enter value record with
      | error refusal => rfl
      | ok record =>
          refine ih (fun field member => found field (List.mem_cons_of_mem _ member)) ?_ distinct
            aligned record
          intro other member seen
          rcases List.mem_cons.mp seen with same | old
          · exact fresh (same ▸ List.mem_map_of_mem member)
          · exact unseen other (List.mem_cons_of_mem _ member) old

theorem readRecord_object {fields : List (Field Json R)}
    (named : members.map Prod.fst = fields.map Field.name)
    (distinct : (fields.map Field.name).Nodup) (usual : R) :
    readRecord json fields usual (.object members) =
      fillListed fields (members.map Prod.snd) usual :=
  fillNamed_eq_fillListed (fun _ member => find?_field distinct member)
    (fun _ _ seen => by cases seen) distinct named usual

theorem readRecord_carried {fields : List (Field Json R)}
    (named : members.map Prod.fst = fields.map Field.name)
    (distinct : (fields.map Field.name).Nodup) (usual : R) :
    readRecord json fields usual (Json.object members).carried =
      fillListed fields (members.map fun member => member.2.carried) usual := by
  rw [carried, readRecord_object ((map_fst_carriedMembers members).trans named) distinct,
    map_snd_carriedMembers]

end Document
end PipelineTraining
