/-!
A place in a YAML text: what lies ahead, how many bytes lie behind, and the line
and column it lies at.
-/

namespace PipelineTraining.Yaml

structure Cursor where
  rest : List Char
  bytes : Nat
  line : Nat
  column : Nat

/-- Five characters end a line, among them the one-character line and paragraph ends. -/
def isBreakChar (char : Char) : Bool :=
  char == '\n' || char == '\r' || char == '\u0085' || char == '\u2028' || char == '\u2029'

def isBlankChar (char : Char) : Bool :=
  char == ' ' || char == '\t'

def isWordChar (char : Char) : Bool :=
  char.isAlphanum || char == '-' || char == '_'

namespace Cursor

def start (text : List Char) : Cursor := ⟨text, 0, 0, 0⟩

def peek? (cursor : Cursor) : Option Char := cursor.rest.head?

def peekAt? (cursor : Cursor) (distance : Nat) : Option Char := cursor.rest[distance]?

def sees (cursor : Cursor) (char : Char) : Bool := cursor.peek? == some char

def seesAt (cursor : Cursor) (distance : Nat) (char : Char) : Bool :=
  cursor.peekAt? distance == some char

def atEnd (cursor : Cursor) : Bool := cursor.rest.isEmpty

def seesBreak (cursor : Cursor) : Bool := cursor.peek?.any isBreakChar

def seesBlank (cursor : Cursor) : Bool := cursor.peek?.any isBlankChar

def seesGapAt (cursor : Cursor) (distance : Nat) : Bool :=
  (cursor.peekAt? distance).all fun char => isBlankChar char || isBreakChar char

def seesGap (cursor : Cursor) : Bool := cursor.seesGapAt 0

def sizeOf (chars : List Char) : Nat :=
  chars.foldl (fun size char => size + char.utf8Size) 0

/-- Steps over characters of a line. Each takes up one column, whatever its size. -/
def skipMany (cursor : Cursor) (count : Nat) : Cursor where
  rest := cursor.rest.drop count
  bytes := cursor.bytes + sizeOf (cursor.rest.take count)
  line := cursor.line
  column := cursor.column + count

def skip (cursor : Cursor) : Cursor :=
  cursor.skipMany 1

/-- Steps over a line break and tells what it reads as: a line feed, unless it is a line or
paragraph separator. -/
def skipBreak (cursor : Cursor) : List Char × Cursor :=
  match cursor.rest with
  | '\r' :: '\n' :: rest => (['\n'], ⟨rest, cursor.bytes + 2, cursor.line + 1, 0⟩)
  | char :: rest =>
      let read := if char = '\u2028' ∨ char = '\u2029' then char else '\n'
      if isBreakChar char then ([read], ⟨rest, cursor.bytes + char.utf8Size, cursor.line + 1, 0⟩)
      else ([], cursor)
  | [] => ([], cursor)

/-- Steps over all characters ahead that satisfy a test. None of them may be a line break. -/
def skipWhile (cursor : Cursor) (test : Char → Bool) : Cursor :=
  cursor.skipMany (cursor.rest.takeWhile test).length

def skipToBreak (cursor : Cursor) : Cursor :=
  cursor.skipWhile fun char => !isBreakChar char

/-- A byte order mark may stand at the start of any line. It is no part of the text, but takes up
the first column. -/
def skipMark (cursor : Cursor) : Cursor :=
  if cursor.column == 0 && cursor.sees '\ufeff' then cursor.skip else cursor

def seesThree (cursor : Cursor) (char : Char) : Bool :=
  cursor.seesAt 0 char && cursor.seesAt 1 char && cursor.seesAt 2 char && cursor.seesGapAt 3

/-- A document starts or ends here: three hyphens or three points that fill the line's start. -/
def seesDocumentMark (cursor : Cursor) : Bool :=
  cursor.column == 0 && (cursor.seesThree '-' || cursor.seesThree '.')

end Cursor
end PipelineTraining.Yaml
