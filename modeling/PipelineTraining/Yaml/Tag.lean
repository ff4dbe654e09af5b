import PipelineTraining.Yaml.Scalar

/-!
Tags, which name the kind of a node. A tag is written in a few ASCII characters;
percent escapes spell other bytes, so a tag need not be well-formed text.
-/

namespace PipelineTraining.Yaml

abbrev Tag := List UInt8

namespace Tag

def ofText (text : String) : Tag :=
  text.toUTF8.toList

/-- A tag ends in front of its first null byte. -/
def ended (tag : Tag) : Tag :=
  tag.takeWhile (· != 0)

/-- Tags of kinds that only the reader of a document knows begin with an exclamation mark. -/
def isLocal (tag : Tag) : Bool :=
  tag.head? == some '!'.toNat.toUInt8

def isText (tag : Tag) : Bool :=
  (String.fromUTF8? ⟨tag.toArray⟩).isSome

end Tag

def isUriChar (verbatim : Bool) (char : Char) : Bool :=
  isWordChar char || ";/?:@&=+$.!~*'()%".contains char ||
    (verbatim && (char == ',' || char == '[' || char == ']'))

def readEscapedByte (cursor : Cursor) : Option (UInt8 × Cursor) :=
  let digits := (cursor.rest.drop 1).take 2
  if !cursor.sees '%' || digits.length < 2 then none
  else (hexNumber? digits).map fun byte => (byte.toUInt8, cursor.skipMany 3)

def sequenceLength? (lead : UInt8) : Option Nat :=
  if lead < 0x80 then some 1
  else if lead < 0xC0 then none
  else if lead < 0xE0 then some 2
  else if lead < 0xF0 then some 3
  else if lead < 0xF8 then some 4
  else none

def readTrail : Nat → Cursor → Option (List UInt8 × Cursor)
  | 0, cursor => some ([], cursor)
  | count + 1, cursor => do
      let (byte, cursor) ← readEscapedByte cursor
      if byte < 0x80 ∨ 0xC0 ≤ byte then none
      let (trail, cursor) ← readTrail count cursor
      return (byte :: trail, cursor)

/-- A character in percent escapes. Only the form of its bytes is looked at, so they may spell a
code point that no character has. -/
def readEscapedChar (cursor : Cursor) : Option (List UInt8 × Cursor) := do
  let (lead, cursor) ← readEscapedByte cursor
  let length ← sequenceLength? lead
  let (trail, cursor) ← readTrail (length - 1) cursor
  return (lead :: trail, cursor)

def readUri (verbatim : Bool) : Nat → Tag → Cursor → Option (Tag × Cursor)
  | 0, _, _ => none
  | steps + 1, read, cursor =>
      match cursor.peek? with
      | none => some (read, cursor)
      | some char =>
          if !isUriChar verbatim char then some (read, cursor)
          else if char = '%' then
            match readEscapedChar cursor with
            | none => none
            | some (bytes, cursor) => readUri verbatim steps (read ++ bytes) cursor
          else readUri verbatim steps (read ++ [char.toNat.toUInt8]) cursor.skip

end PipelineTraining.Yaml
