import PipelineTraining.Yaml.Cursor

/-!
The three ways to write a scalar: plain, between quotes, and as a block of
lines. Line breaks inside the first two fold into blanks; a block keeps its
lines or folds them, and says what becomes of its end.
-/

namespace PipelineTraining.Yaml

inductive Style where
  | plain
  | singleQuoted
  | doubleQuoted
  | literal
  | folded
deriving DecidableEq

/-- Text read so far, last character first, and the blanks or line breaks behind it that may
still fold away. -/
structure Folding where
  text : List Char
  blanks : List Char
  firstBreak : List Char
  moreBreaks : List Char
  broken : Bool

namespace Folding

def empty : Folding := ⟨[], [], [], [], false⟩

def add (folding : Folding) (char : Char) : Folding :=
  { folding with text := char :: folding.text }

/-- Takes the blanks into the text. One line break becomes a space, of several the first is
lost. -/
def settle (folding : Folding) : Folding :=
  let text :=
    if folding.broken then
      if folding.firstBreak = ['\n'] then
        if folding.moreBreaks.isEmpty then ' ' :: folding.text
        else folding.moreBreaks ++ folding.text
      else folding.moreBreaks ++ folding.firstBreak ++ folding.text
    else folding.blanks ++ folding.text
  { empty with text := text }

/-- Blanks at a line's start or end are dropped once there is a line break. -/
def addBlank (folding : Folding) (char : Char) : Folding :=
  if folding.broken then folding else { folding with blanks := char :: folding.blanks }

def addBreak (folding : Folding) (read : List Char) : Folding :=
  if folding.broken then { folding with moreBreaks := read ++ folding.moreBreaks }
  else { folding with blanks := [], firstBreak := read, broken := true }

def result (folding : Folding) : String :=
  String.ofList folding.text.reverse

end Folding

/-- Reads blanks and line breaks. A tab may not stand in for indentation. -/
def readGap (indent : Int) (tabsIndent : Bool) : Nat → Folding → Cursor → Option (Folding × Cursor)
  | 0, _, _ => none
  | steps + 1, folding, cursor =>
      match cursor.peek? with
      | none => some (folding, cursor)
      | some char =>
          if isBlankChar char then
            if folding.broken && (cursor.column : Int) < indent && char == '\t' && !tabsIndent then
              none
            else readGap indent tabsIndent steps (folding.addBlank char) cursor.skip
          else if isBreakChar char then
            let (read, next) := cursor.skipBreak
            readGap indent tabsIndent steps (folding.addBreak read) next
          else some (folding, cursor)

def isFlowFollower (char : Char) : Bool :=
  char == ',' || char == '?' || char == '[' || char == ']' || char == '\x7b' || char == '\x7d'

def isFlowMark (char : Char) : Bool :=
  char == ',' || char == '[' || char == ']' || char == '\x7b' || char == '\x7d'

def readPlainWord (inFlow : Bool) : Nat → Folding → Cursor → Option (Folding × Cursor)
  | 0, _, _ => none
  | steps + 1, folding, cursor =>
      match cursor.peek? with
      | none => some (folding, cursor)
      | some char =>
          if cursor.seesGap then some (folding, cursor)
          else if inFlow && char == ':' && (cursor.peekAt? 1).any isFlowFollower then none
          else if (char == ':' && cursor.seesGapAt 1) || (inFlow && isFlowMark char) then
            some (folding, cursor)
          else readPlainWord inFlow steps (folding.settle.add char) cursor.skip

/-- A plain scalar ends at a comment, a mark, a document mark or a line that is indented less
than its surroundings demand. -/
def readPlainWords (inFlow : Bool) (indent : Int) :
    Nat → Folding → Cursor → Option (Folding × Cursor)
  | 0, _, _ => none
  | steps + 1, folding, cursor =>
      if cursor.seesDocumentMark || cursor.sees '#' then some (folding, cursor)
      else
        match readPlainWord inFlow (cursor.rest.length + 1) folding cursor with
        | none => none
        | some (folding, cursor) =>
            if !(cursor.seesBlank || cursor.seesBreak) then some (folding, cursor)
            else
              match readGap indent false (cursor.rest.length + 1) folding cursor with
              | none => none
              | some (folding, cursor) =>
                  if !inFlow && (cursor.column : Int) < indent then some (folding, cursor)
                  else readPlainWords inFlow indent steps folding cursor

def readPlain (inFlow : Bool) (indent : Int) (cursor : Cursor) : Option (String × Bool × Cursor) :=
  (readPlainWords inFlow indent (cursor.rest.length + 1) .empty cursor).map fun found =>
    (found.1.result, found.1.broken, found.2)

def escapedChar? (char : Char) : Option Char :=
  match char with
  | '0' => some (Char.ofNat 0)
  | 'a' => some (Char.ofNat 7)
  | 'b' => some (Char.ofNat 8)
  | 't' => some '\t'
  | '\t' => some '\t'
  | 'n' => some '\n'
  | 'v' => some (Char.ofNat 11)
  | 'f' => some (Char.ofNat 12)
  | 'r' => some '\r'
  | 'e' => some (Char.ofNat 27)
  | ' ' => some ' '
  | '"' => some '"'
  | '/' => some '/'
  | '\\' => some '\\'
  | 'N' => some '\u0085'
  | '_' => some '\u00a0'
  | 'L' => some '\u2028'
  | 'P' => some '\u2029'
  | _ => none

def codeLength? (char : Char) : Option Nat :=
  match char with
  | 'x' => some 2
  | 'u' => some 4
  | 'U' => some 8
  | _ => none

def hexValue? (char : Char) : Option Nat :=
  if '0' ≤ char ∧ char ≤ '9' then some (char.toNat - '0'.toNat)
  else if 'a' ≤ char ∧ char ≤ 'f' then some (char.toNat - 'a'.toNat + 10)
  else if 'A' ≤ char ∧ char ≤ 'F' then some (char.toNat - 'A'.toNat + 10)
  else none

def hexNumber? (digits : List Char) : Option Nat :=
  digits.foldlM (fun number char => (hexValue? char).map (number * 16 + ·)) 0

def readEscaped (rest : List Char) : Option (Char × Nat) :=
  match rest with
  | [] => none
  | char :: rest =>
      match escapedChar? char with
      | some read => some (read, 1)
      | none => do
          let length ← codeLength? char
          let digits := rest.take length
          if digits.length ≠ length then none
          let code ← hexNumber? digits
          if (0xD800 ≤ code ∧ code ≤ 0xDFFF) ∨ 0x10FFFF < code then none
          else return (Char.ofNat code, length + 1)

/-- The characters of a quoted scalar up to the next gap or the closing quote. A backslash at
the end of a line lets the line break vanish. -/
def readQuotedWord (double : Bool) : Nat → Folding → Cursor → Option (Folding × Cursor)
  | 0, _, _ => none
  | steps + 1, folding, cursor =>
      match cursor.peek? with
      | none => some (folding, cursor)
      | some char =>
          if cursor.seesGap then some (folding, cursor)
          else if !double && char == '\'' && cursor.seesAt 1 '\'' then
            readQuotedWord double steps (folding.add '\'') (cursor.skipMany 2)
          else if char == (if double then '"' else '\'') then some (folding, cursor)
          else if double && char == '\\' then
            if (cursor.peekAt? 1).any isBreakChar then
              some ({ folding with broken := true }, cursor.skip.skipBreak.2)
            else
              match readEscaped cursor.rest.tail with
              | none => none
              | some (read, length) =>
                  readQuotedWord double steps (folding.add read) (cursor.skipMany (length + 1))
          else readQuotedWord double steps (folding.add char) cursor.skip

def readQuotedWords (double : Bool) : Nat → Folding → Cursor → Option (Folding × Cursor)
  | 0, _, _ => none
  | steps + 1, folding, cursor =>
      if cursor.seesDocumentMark || cursor.atEnd then none
      else
        match readQuotedWord double (cursor.rest.length + 1) folding cursor with
        | none => none
        | some (folding, cursor) =>
            if cursor.sees (if double then '"' else '\'') then some (folding, cursor.skip)
            else
              match readGap 0 true (cursor.rest.length + 1) folding cursor with
              | none => none
              | some (folding, cursor) => readQuotedWords double steps folding.settle cursor

def readQuoted (double : Bool) (cursor : Cursor) : Option (String × Cursor) :=
  (readQuotedWords double (cursor.rest.length + 1) .empty cursor.skip).map fun found =>
    (found.1.result, found.2)

inductive Chomping where
  | strip
  | clip
  | keep
deriving DecidableEq

def readChomping (cursor : Cursor) : Chomping × Cursor :=
  if cursor.sees '+' then (.keep, cursor.skip)
  else if cursor.sees '-' then (.strip, cursor.skip)
  else (.clip, cursor)

def readIncrement (cursor : Cursor) : Option (Nat × Cursor) :=
  match cursor.peek? with
  | some char =>
      if char.isDigit then
        if char = '0' then none else some (char.toNat - '0'.toNat, cursor.skip)
      else some (0, cursor)
  | none => some (0, cursor)

def readHeader (cursor : Cursor) : Option (Chomping × Nat × Cursor) :=
  if cursor.sees '+' || cursor.sees '-' then do
    let (chomping, cursor) := readChomping cursor
    let (increment, cursor) ← readIncrement cursor
    return (chomping, increment, cursor)
  else do
    let (increment, cursor) ← readIncrement cursor
    let (chomping, cursor) := if increment = 0 then (.clip, cursor) else readChomping cursor
    return (chomping, increment, cursor)

def readLineEnd (cursor : Cursor) : Option Cursor :=
  let cursor := cursor.skipWhile isBlankChar
  let cursor := if cursor.sees '#' then cursor.skipToBreak else cursor
  if cursor.atEnd then some cursor
  else if cursor.seesBreak then some cursor.skipBreak.2
  else none

/-- Indentation and empty lines before a line of a block. An indentation of zero is not known
yet; the widest one seen is reported. -/
def readBlockBreaks (indent : Nat) :
    Nat → Nat → List Char → Cursor → Option (Nat × List Char × Cursor)
  | 0, _, _, _ => none
  | steps + 1, widest, breaks, cursor =>
      let room := if indent = 0 then cursor.rest.length else indent - cursor.column
      let spaces := min room (cursor.rest.takeWhile (· == ' ')).length
      let cursor := cursor.skipMany spaces
      let widest := max widest cursor.column
      if (indent = 0 ∨ cursor.column < indent) ∧ cursor.sees '\t' then none
      else if cursor.seesBreak then
        let (read, next) := cursor.skipBreak
        readBlockBreaks indent steps widest (read ++ breaks) next
      else some (widest, breaks, cursor)

structure Block where
  text : List Char
  lineBreak : List Char
  emptyLines : List Char
  blankBefore : Bool

/-- A folded block joins two lines by a space unless one of them is indented further. -/
def Block.addLine (folds : Bool) (block : Block) (blankAhead : Bool) (line : List Char) : Block :=
  let joined :=
    if folds && block.lineBreak == ['\n'] && !block.blankBefore && !blankAhead then
      if block.emptyLines.isEmpty then ' ' :: block.text else block.text
    else block.lineBreak ++ block.text
  { block with text := line.reverse ++ (block.emptyLines ++ joined), blankBefore := blankAhead }

def readBlockLines (folds : Bool) (indent : Nat) : Nat → Block → Cursor → Option (Block × Cursor)
  | 0, _, _ => none
  | steps + 1, block, cursor =>
      if cursor.column ≠ indent ∨ cursor.atEnd then some (block, cursor)
      else
        let line := cursor.rest.takeWhile fun char => !isBreakChar char
        let block := block.addLine folds cursor.seesBlank line
        let (read, cursor) := (cursor.skipMany line.length).skipBreak
        match readBlockBreaks indent (cursor.rest.length + 1) 0 [] cursor with
        | none => none
        | some (_, breaks, cursor) =>
            readBlockLines folds indent steps { block with lineBreak := read, emptyLines := breaks } cursor

def Block.result (block : Block) (chomping : Chomping) : String :=
  let ended := if chomping = .strip then block.text else block.lineBreak ++ block.text
  let kept := if chomping = .keep then block.emptyLines ++ ended else ended
  String.ofList kept.reverse

/-- A block scalar, from its mark on. Unless its header says how far, it is indented as far as
its first line, but further than its surroundings. -/
def readBlock (folds : Bool) (around : Int) (cursor : Cursor) : Option (String × Cursor) := do
  let (chomping, increment, cursor) ← readHeader cursor.skip
  let cursor ← readLineEnd cursor
  let asked : Nat := if increment = 0 then 0 else (max around 0).toNat + increment
  let (widest, breaks, cursor) ← readBlockBreaks asked (cursor.rest.length + 1) 0 [] cursor
  let indent := if asked = 0 then max (max widest (around + 1).toNat) 1 else asked
  let (block, cursor) ←
    readBlockLines folds indent (cursor.rest.length + 1) ⟨[], [], breaks, false⟩ cursor
  return (block.result chomping, cursor)

end PipelineTraining.Yaml
