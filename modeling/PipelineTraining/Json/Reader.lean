import PipelineTraining.Json.Number

/-!
Reading data files. The reader is told which parts of a document somebody will
look at. Those must be legible: numbers in range, no half of a surrogate pair in
a string, nesting within bounds. The rest is only checked for its form. A text
that breaks off still yields what was readable before, its open lists and
objects closed at that point.
-/

namespace PipelineTraining.Json

/-- Which parts of a value are looked at. The members of a record may also stand in a list, in
their order. -/
inductive Interest where
  | nothing
  | everything
  | record (members : List (String × Interest))
  | each (item : Interest)

namespace Interest

def matters : Interest → Bool
  | .nothing => false
  | _ => true

def member (interest : Interest) (name : String) : Interest :=
  match interest with
  | .nothing => .nothing
  | .everything => .everything
  | .record members => (members.lookup name).getD .nothing
  | .each _ => .nothing

def item (interest : Interest) (index : Nat) : Interest :=
  match interest with
  | .nothing => .nothing
  | .everything => .everything
  | .record members => (members[index]?.map Prod.snd).getD .nothing
  | .each item => item

end Interest

structure Reading where
  value : Option Json
  rest : Option (List Char)

namespace Reading

def complete (value : Json) (rest : List Char) : Reading := ⟨some value, some rest⟩

def broken : Reading := ⟨none, none⟩

/-- A container that broke off keeps what it had. -/
def partly (value : Json) : Reading := ⟨some value, none⟩

end Reading

def depthBound : Nat := 128

def isBlank (char : Char) : Bool :=
  char == ' ' || char == '\n' || char == '\t' || char == '\r'

def skipBlanks (chars : List Char) : List Char :=
  chars.dropWhile isBlank

def hexDigit? (char : Char) : Option Nat :=
  if '0' ≤ char ∧ char ≤ '9' then some (char.toNat - '0'.toNat)
  else if 'a' ≤ char ∧ char ≤ 'f' then some (char.toNat - 'a'.toNat + 10)
  else if 'A' ≤ char ∧ char ≤ 'F' then some (char.toNat - 'A'.toNat + 10)
  else none

def hexFour : List Char → Option (Nat × List Char)
  | a :: b :: c :: d :: rest => do
      let a ← hexDigit? a
      let b ← hexDigit? b
      let c ← hexDigit? c
      let d ← hexDigit? d
      return (((a * 16 + b) * 16 + c) * 16 + d, rest)
  | _ => none

inductive Piece where
  | char (value : Char)
  | half (unit : Nat)

def readEscape : List Char → Option (Piece × List Char)
  | '"' :: rest => some (.char '"', rest)
  | '\\' :: rest => some (.char '\\', rest)
  | '/' :: rest => some (.char '/', rest)
  | 'b' :: rest => some (.char (Char.ofNat 8), rest)
  | 'f' :: rest => some (.char (Char.ofNat 12), rest)
  | 'n' :: rest => some (.char '\n', rest)
  | 'r' :: rest => some (.char '\r', rest)
  | 't' :: rest => some (.char '\t', rest)
  | 'u' :: rest => do
      let (unit, rest) ← hexFour rest
      if 0xD800 ≤ unit ∧ unit < 0xE000 then return (.half unit, rest)
      else return (.char (Char.ofNat unit), rest)
  | _ => none

def readPieces : Nat → List Char → Option (List Piece × List Char)
  | 0, _ => none
  | _ + 1, [] => none
  | _ + 1, '"' :: rest => some ([], rest)
  | steps + 1, '\\' :: rest => do
      let (piece, rest) ← readEscape rest
      let (pieces, rest) ← readPieces steps rest
      return (piece :: pieces, rest)
  | steps + 1, char :: rest =>
      if char.toNat < 32 then none
      else do
        let (pieces, rest) ← readPieces steps rest
        return (.char char :: pieces, rest)

def joinPieces : List Piece → Option (List Char)
  | [] => some []
  | .char value :: rest => (joinPieces rest).map (value :: ·)
  | .half first :: .half second :: rest =>
      if first < 0xDC00 ∧ 0xDC00 ≤ second then
        let code := 0x10000 + (first - 0xD800) * 0x400 + (second - 0xDC00)
        (joinPieces rest).map (Char.ofNat code :: ·)
      else none
  | .half _ :: _ => none

/-- A string behind its opening quote. One that nobody looks at may be illegible. -/
def readString (interest : Interest) (chars : List Char) : Option (String × List Char) := do
  let (pieces, rest) ← readPieces (chars.length + 1) chars
  match joinPieces pieces with
  | some text => return (String.ofList text, rest)
  | none => if interest.matters then none else return ("", rest)

def readNumber (interest : Interest) (chars : List Char) : Reading :=
  match readLiteral chars with
  | none => .broken
  | some (literal, rest) =>
      match literal.value? with
      | some value => .complete value rest
      | none => if interest.matters then .broken else .complete .null rest

def readWord (chars : List Char) : Reading :=
  match chars with
  | 'n' :: 'u' :: 'l' :: 'l' :: rest => .complete .null rest
  | 't' :: 'r' :: 'u' :: 'e' :: rest => .complete (.bool true) rest
  | 'f' :: 'a' :: 'l' :: 's' :: 'e' :: rest => .complete (.bool false) rest
  | _ => .broken

abbrev Items := List Json × Option (List Char)

abbrev Members := List (String × Json) × Option (List Char)

mutual

def readValue : Nat → Interest → Nat → List Char → Reading
  | 0, _, _, _ => .broken
  | steps + 1, interest, depth, chars =>
      match skipBlanks chars with
      | [] => .broken
      | '"' :: rest =>
          match readString interest rest with
          | some (text, rest) => .complete (.string text) rest
          | none => .broken
      | '[' :: rest =>
          if interest.matters ∧ depthBound ≤ depth + 1 then .broken
          else
            match skipBlanks rest with
            | ']' :: rest => .complete (.array []) rest
            | rest =>
                let (items, rest) := readItems steps interest (depth + 1) 0 rest
                ⟨some (.array items), rest⟩
      | '\x7b' :: rest =>
          if interest.matters ∧ depthBound ≤ depth + 1 then .broken
          else
            match skipBlanks rest with
            | '\x7d' :: rest => .complete (.object []) rest
            | rest =>
                let (members, rest) := readMembers steps interest (depth + 1) rest
                ⟨some (.object members), rest⟩
      | char :: rest =>
          if char = '-' ∨ char.isDigit then readNumber interest (char :: rest)
          else readWord (char :: rest)

def readItems : Nat → Interest → Nat → Nat → List Char → Items
  | 0, _, _, _, _ => ([], none)
  | steps + 1, interest, depth, index, chars =>
      match readValue steps (interest.item index) depth chars with
      | ⟨none, _⟩ => ([], none)
      | ⟨some value, none⟩ => ([value], none)
      | ⟨some value, some rest⟩ =>
          match skipBlanks rest with
          | ']' :: rest => ([value], some rest)
          | ',' :: rest =>
              let (items, rest) := readItems steps interest depth (index + 1) rest
              (value :: items, rest)
          | _ => ([value], none)

def readMembers : Nat → Interest → Nat → List Char → Members
  | 0, _, _, _ => ([], none)
  | steps + 1, interest, depth, chars =>
      match skipBlanks chars with
      | '"' :: rest =>
          match readString interest rest with
          | none => ([], none)
          | some (name, rest) =>
              match skipBlanks rest with
              | ':' :: rest =>
                  match readValue steps (interest.member name) depth rest with
                  | ⟨none, _⟩ => ([], none)
                  | ⟨some value, none⟩ => ([(name, value)], none)
                  | ⟨some value, some rest⟩ =>
                      match skipBlanks rest with
                      | '\x7d' :: rest => ([(name, value)], some rest)
                      | ',' :: rest =>
                          let (members, rest) := readMembers steps interest depth rest
                          ((name, value) :: members, rest)
                      | _ => ([(name, value)], none)
              | _ => ([], none)
      | _ => ([], none)

end

def read (interest : Interest) (text : String) : Option Json × Bool :=
  let chars := text.toList
  let reading := readValue (2 * chars.length + 2) interest 0 chars
  (reading.value,
    match reading.rest with
    | some rest => (skipBlanks rest).isEmpty
    | none => false)

def read? (interest : Interest) (text : String) : Option Json :=
  match read interest text with
  | (some value, true) => some value
  | _ => none

end PipelineTraining.Json
