import PipelineTraining.Yaml.Tag

/-!
The tokens of a YAML text. Indentation opens and closes block collections; a
scalar becomes a key only once the colon behind it is seen, so the tokens that
announce a key are put in afterwards, in front of it. Where a text cannot be
read on, the tokens before that point are kept.
-/

namespace PipelineTraining.Yaml

inductive Token where
  | streamEnd
  | versionDirective (major minor : Nat)
  | tagDirective (handle : String) (front : Tag)
  | documentStart
  | documentEnd
  | blockSequenceStart
  | blockMappingStart
  | blockEnd
  | flowSequenceStart
  | flowSequenceEnd
  | flowMappingStart
  | flowMappingEnd
  | blockEntry
  | flowEntry
  | key
  | value
  | alias (name : String)
  | anchor (name : String)
  | tag (handle : String) (suffix : Tag)
  | scalar (text : String) (style : Style)
deriving DecidableEq

structure KeyPlace where
  number : Nat
  required : Bool
  bytes : Nat
  line : Nat
  column : Nat

structure Scanner where
  cursor : Cursor
  /-- The tokens read so far, the latest first, and their number. -/
  latest : List Token
  count : Nat
  indent : Int
  outerIndents : List Int
  /-- One place for every open bracket, the innermost first, and one for the block context. -/
  places : List (Option KeyPlace)
  keyAllowed : Bool

namespace Scanner

def start (text : List Char) : Scanner where
  cursor := .start text
  latest := []
  count := 0
  indent := -1
  outerIndents := []
  places := [none]
  keyAllowed := true

def inFlow (scanner : Scanner) : Bool :=
  1 < scanner.places.length

def emit (scanner : Scanner) (token : Token) : Scanner :=
  { scanner with latest := token :: scanner.latest, count := scanner.count + 1 }

def insertAt (scanner : Scanner) (number : Nat) (token : Token) : Scanner :=
  { scanner with
    latest := scanner.latest.insertIdx (scanner.count - number) token
    count := scanner.count + 1 }

def tokens (scanner : Scanner) : List Token :=
  scanner.latest.reverse

def moveTo (scanner : Scanner) (cursor : Cursor) : Scanner :=
  { scanner with cursor := cursor }

def skip (scanner : Scanner) (count : Nat) : Scanner :=
  scanner.moveTo (scanner.cursor.skipMany count)

/-- Byte order marks, blanks, comments and line breaks. At the start of a line of the block context a tab is no
blank. -/
def skipToToken : Nat → Scanner → Scanner
  | 0, scanner => scanner
  | steps + 1, scanner =>
      let tabs := scanner.inFlow || !scanner.keyAllowed
      let cursor := scanner.cursor.skipMark.skipWhile fun char =>
        char == ' ' || (tabs && char == '\t')
      let cursor := if cursor.sees '#' then cursor.skipToBreak else cursor
      if cursor.seesBreak then
        skipToToken steps { scanner with
          cursor := cursor.skipBreak.2
          keyAllowed := scanner.keyAllowed || !scanner.inFlow }
      else scanner.moveTo cursor

/-- A key fits on one line and into 1024 bytes. -/
def isStale (cursor : Cursor) (place : KeyPlace) : Bool :=
  place.line < cursor.line || place.bytes + 1024 < cursor.bytes

def dropStale (scanner : Scanner) : Option Scanner :=
  let stale (place : Option KeyPlace) : Bool := place.any (isStale scanner.cursor)
  if scanner.places.any fun place => stale place && place.any KeyPlace.required then none
  else
    some { scanner with
      places := scanner.places.map fun place => if stale place then none else place }

def dropPlace (scanner : Scanner) : Option Scanner :=
  match scanner.places with
  | some place :: rest =>
      if place.required then none else some { scanner with places := none :: rest }
  | _ => some scanner

def savePlace (scanner : Scanner) : Option Scanner :=
  if scanner.keyAllowed then
    match scanner.dropPlace with
    | none => none
    | some scanner =>
        let cursor := scanner.cursor
        let place : KeyPlace := {
          number := scanner.count
          required := !scanner.inFlow && scanner.indent == cursor.column
          bytes := cursor.bytes
          line := cursor.line
          column := cursor.column }
        some { scanner with places := some place :: scanner.places.tail }
  else some scanner

def unrollFrom (column : Int) : List Int → Scanner → Scanner
  | [], scanner => scanner
  | outer :: rest, scanner =>
      if column < scanner.indent then
        unrollFrom column rest
          { (scanner.emit .blockEnd) with indent := outer, outerIndents := rest }
      else scanner

def unroll (scanner : Scanner) (column : Int) : Scanner :=
  if scanner.inFlow then scanner else unrollFrom column scanner.outerIndents scanner

def roll (scanner : Scanner) (column : Int) (number : Nat) (token : Token) : Scanner :=
  if scanner.inFlow then scanner
  else if scanner.indent < column then
    { (scanner.insertAt number token) with
      outerIndents := scanner.indent :: scanner.outerIndents
      indent := column }
  else scanner

def rollHere (scanner : Scanner) (token : Token) : Scanner :=
  scanner.roll scanner.cursor.column scanner.count token

def allowKey (scanner : Scanner) (allowed : Bool) : Scanner :=
  { scanner with keyAllowed := allowed }

/-- The end of the text counts as the start of a line. -/
def fetchStreamEnd (scanner : Scanner) : Option Scanner :=
  ((scanner.unroll (-1)).dropPlace).map fun scanner => (scanner.allowKey false).emit .streamEnd

def readVersionNumber (cursor : Cursor) : Option (Nat × Cursor) :=
  let digits := cursor.rest.takeWhile Char.isDigit
  if digits.isEmpty ∨ 9 < digits.length then none
  else
    some (digits.foldl (fun number char => number * 10 + (char.toNat - '0'.toNat)) 0,
      cursor.skipMany digits.length)

def readVersion (cursor : Cursor) : Option (Token × Cursor) := do
  let (major, cursor) ← readVersionNumber (cursor.skipWhile isBlankChar)
  if !cursor.sees '.' then none
  let (minor, cursor) ← readVersionNumber cursor.skip
  return (.versionDirective major minor, cursor)

def readHandle (directive : Bool) (cursor : Cursor) : Option (String × Cursor) :=
  if !cursor.sees '!' then none
  else
    let word := cursor.rest.tail.takeWhile isWordChar
    let cursor := cursor.skipMany (word.length + 1)
    if cursor.sees '!' then some (String.ofList ('!' :: word ++ ['!']), cursor.skip)
    else if directive ∧ word ≠ [] then none
    else some (String.ofList ('!' :: word), cursor)

def readTagDirective (cursor : Cursor) : Option (Token × Cursor) := do
  let cursor := cursor.skipWhile isBlankChar
  let (handle, cursor) ← readHandle true cursor
  if !cursor.seesBlank then none
  let cursor := cursor.skipWhile isBlankChar
  let (uri, cursor) ← readUri true (cursor.rest.length + 1) [] cursor
  if uri.isEmpty ∨ !cursor.seesGap then none
  return (.tagDirective handle (Tag.ended uri), cursor)

def readDirective (cursor : Cursor) : Option (Token × Cursor) := do
  let name := cursor.rest.takeWhile isWordChar
  let cursor := cursor.skipMany name.length
  if name.isEmpty ∨ !cursor.seesGap then none
  let (token, cursor) ←
    if name = ['Y', 'A', 'M', 'L'] then readVersion cursor
    else if name = ['T', 'A', 'G'] then readTagDirective cursor
    else none
  let cursor ← readLineEnd cursor
  return (token, cursor)

def fetchDirective (scanner : Scanner) : Option Scanner := do
  let scanner ← (scanner.unroll (-1)).dropPlace
  let (token, cursor) ← readDirective scanner.cursor.skip
  return ((scanner.allowKey false).moveTo cursor).emit token

def fetchDocumentMark (scanner : Scanner) : Option Scanner := do
  let scanner ← (scanner.unroll (-1)).dropPlace
  let token := if scanner.cursor.sees '-' then Token.documentStart else .documentEnd
  return ((scanner.allowKey false).skip 3).emit token

def fetchFlowStart (scanner : Scanner) (token : Token) : Option Scanner := do
  let scanner ← scanner.savePlace
  let opened := { scanner with places := none :: scanner.places, keyAllowed := true }
  return (opened.skip 1).emit token

def fetchFlowEnd (scanner : Scanner) (token : Token) : Option Scanner := do
  let scanner ← scanner.dropPlace
  let places := if scanner.inFlow then scanner.places.tail else scanner.places
  return (({ scanner with places := places, keyAllowed := false } : Scanner).skip 1).emit token

def fetchFlowEntry (scanner : Scanner) : Option Scanner := do
  let scanner ← scanner.dropPlace
  return ((scanner.allowKey true).skip 1).emit .flowEntry

def fetchBlockEntry (scanner : Scanner) : Option Scanner :=
  if !scanner.inFlow && !scanner.keyAllowed then none
  else do
    let scanner ← (scanner.rollHere .blockSequenceStart).dropPlace
    return ((scanner.allowKey true).skip 1).emit .blockEntry

def fetchKey (scanner : Scanner) : Option Scanner :=
  if !scanner.inFlow && !scanner.keyAllowed then none
  else do
    let scanner ← (scanner.rollHere .blockMappingStart).dropPlace
    return ((scanner.allowKey (!scanner.inFlow)).skip 1).emit .key

/-- A colon behind a place that may be a key makes it one; elsewhere it must be where a key
could stand. -/
def fetchValue (scanner : Scanner) : Option Scanner :=
  match scanner.places with
  | some place :: rest =>
      let keyed := (scanner.insertAt place.number .key).roll place.column place.number
        .blockMappingStart
      some ((({ keyed with places := none :: rest, keyAllowed := false } : Scanner).skip 1).emit
        .value)
  | _ =>
      if !scanner.inFlow && !scanner.keyAllowed then none
      else
        let scanner := scanner.rollHere .blockMappingStart
        some (((scanner.allowKey (!scanner.inFlow)).skip 1).emit .value)

def isAnchorEnd (char : Char) : Bool :=
  "?:,]\x7d%@\x60".contains char

def fetchAnchor (scanner : Scanner) (token : String → Token) : Option Scanner := do
  let scanner ← scanner.savePlace
  let cursor := scanner.cursor.skip
  let name := cursor.rest.takeWhile isWordChar
  let cursor := cursor.skipMany name.length
  if name.isEmpty ∨ !(cursor.seesGap || cursor.peek?.any isAnchorEnd) then none
  return ((scanner.allowKey false).moveTo cursor).emit (token (String.ofList name))

/-- A tag between angle brackets, behind a handle, or on its own. A lone exclamation mark is a
tag by itself. -/
def readTag (cursor : Cursor) : Option (Token × Cursor) :=
  if cursor.seesAt 1 '<' then do
    let (uri, cursor) ← readUri true (cursor.rest.length + 1) [] (cursor.skipMany 2)
    if uri.isEmpty ∨ !cursor.sees '>' then none
    return (.tag "" (Tag.ended uri), cursor.skip)
  else do
    let (handle, cursor) ← readHandle false cursor
    let (uri, cursor) ← readUri false (cursor.rest.length + 1) [] cursor
    let whole := handle.toList
    if 1 < whole.length ∧ whole.getLast? = some '!' then
      if uri.isEmpty then none
      return (.tag handle (Tag.ended uri), cursor)
    else
      let suffix := Tag.ended (Tag.ofText (String.ofList whole.tail) ++ uri)
      if suffix.isEmpty then return (.tag "" (Tag.ofText "!"), cursor)
      else return (.tag "!" suffix, cursor)

def fetchTag (scanner : Scanner) : Option Scanner := do
  let scanner ← scanner.savePlace
  let (token, cursor) ← readTag scanner.cursor
  if (!scanner.inFlow || !cursor.sees ',') && !cursor.seesGap then none
  return ((scanner.allowKey false).moveTo cursor).emit token

def fetchBlock (scanner : Scanner) (style : Style) : Option Scanner := do
  let scanner ← scanner.dropPlace
  let (text, cursor) ← readBlock (style == .folded) scanner.indent scanner.cursor
  return ((scanner.allowKey true).moveTo cursor).emit (.scalar text style)

def fetchQuoted (scanner : Scanner) (style : Style) : Option Scanner := do
  let scanner ← scanner.savePlace
  let (text, cursor) ← readQuoted (style == .doubleQuoted) scanner.cursor
  return ((scanner.allowKey false).moveTo cursor).emit (.scalar text style)

def fetchPlain (scanner : Scanner) : Option Scanner := do
  let scanner ← scanner.savePlace
  let (text, broken, cursor) ← readPlain scanner.inFlow (scanner.indent + 1) scanner.cursor
  return ((scanner.allowKey broken).moveTo cursor).emit (.scalar text .plain)

def isIndicator (char : Char) : Bool :=
  "-?:,[]\x7b\x7d#&*!|>'\"%@\x60".contains char

/-- Whether a plain scalar can start here. Hyphen, question mark and colon can if no gap
follows, the last two only outside of brackets. -/
def startsPlain (scanner : Scanner) (char : Char) : Bool :=
  let cursor := scanner.cursor
  !isIndicator char ||
    (char == '-' && !(cursor.peekAt? 1).any isBlankChar) ||
    (!scanner.inFlow && (char == '?' || char == ':') && !cursor.seesGapAt 1)

def fetchAt (scanner : Scanner) (char : Char) : Option Scanner :=
  let cursor := scanner.cursor
  if cursor.column = 0 ∧ char = '%' then scanner.fetchDirective
  else if cursor.seesDocumentMark then scanner.fetchDocumentMark
  else if char = '[' then scanner.fetchFlowStart .flowSequenceStart
  else if char = '\x7b' then scanner.fetchFlowStart .flowMappingStart
  else if char = ']' then scanner.fetchFlowEnd .flowSequenceEnd
  else if char = '\x7d' then scanner.fetchFlowEnd .flowMappingEnd
  else if char = ',' then scanner.fetchFlowEntry
  else if char = '-' ∧ cursor.seesGapAt 1 then scanner.fetchBlockEntry
  else if char = '?' ∧ (scanner.inFlow ∨ cursor.seesGapAt 1) then scanner.fetchKey
  else if char = ':' ∧ (scanner.inFlow ∨ cursor.seesGapAt 1) then scanner.fetchValue
  else if char = '*' then scanner.fetchAnchor .alias
  else if char = '&' then scanner.fetchAnchor .anchor
  else if char = '!' then scanner.fetchTag
  else if char = '|' ∧ !scanner.inFlow then scanner.fetchBlock .literal
  else if char = '>' ∧ !scanner.inFlow then scanner.fetchBlock .folded
  else if char = '\'' then scanner.fetchQuoted .singleQuoted
  else if char = '"' then scanner.fetchQuoted .doubleQuoted
  else if !cursor.seesGap && scanner.startsPlain char then scanner.fetchPlain
  else none

def fetch (scanner : Scanner) : Option Scanner := do
  let scanner ← (scanner.skipToToken (scanner.cursor.rest.length + 1)).dropStale
  let scanner := scanner.unroll scanner.cursor.column
  match scanner.cursor.peek? with
  | none => scanner.fetchStreamEnd
  | some char => scanner.fetchAt char

def isOpen (scanner : Scanner) (place : KeyPlace) : Bool :=
  place.required || !isStale scanner.cursor place

/-- The tokens that do not depend on what could not be read: those in front of every place that
might still have become a key. -/
def settled (scanner : Scanner) : List Token :=
  let openNumbers := (scanner.places.filterMap id).filter scanner.isOpen |>.map KeyPlace.number
  scanner.tokens.take (openNumbers.foldl min scanner.count)

def lookahead : Nat := 4

def hasLookahead (scanner : Scanner) : Bool :=
  !(scanner.cursor.rest.drop (lookahead - 1)).isEmpty

/-- Reads tokens up to the end of the stream. A text that cannot be read to its end has none:
what comes too close to the place where it stops is lost. -/
def run (complete : Bool) : Nat → Scanner → List Token
  | 0, scanner => scanner.settled
  | steps + 1, scanner =>
      if scanner.latest.head? = some .streamEnd then scanner.tokens
      else
        match scanner.fetch with
        | none => scanner.settled
        | some next =>
            if complete || next.hasLookahead then run complete steps next else scanner.settled

end Scanner

def isAllowed (char : Char) : Bool :=
  let code := char.toNat
  code == 9 || code == 10 || code == 13 || (0x20 ≤ code && code ≤ 0x7E) || code == 0x85 ||
    (0xA0 ≤ code && code ≤ 0xFFFD) || 0x10000 ≤ code

def blockSize : Nat := 16384

def takeBlock : Nat → List Char → List Char × List Char
  | _, [] => ([], [])
  | room, char :: rest =>
      if room < char.utf8Size then ([], char :: rest)
      else
        let (block, rest) := takeBlock (room - char.utf8Size) rest
        (char :: block, rest)

def readable : Nat → List Char → List Char × Bool
  | 0, _ => ([], true)
  | _, [] => ([], true)
  | blocks + 1, chars =>
      let (block, rest) := takeBlock blockSize chars
      if block.all isAllowed then
        let (more, complete) := readable blocks rest
        (block ++ more, complete)
      else ([], false)

def tokens (text : String) : List Token :=
  let chars := text.toList
  let (chars, complete) := readable (chars.length + 1) chars
  Scanner.run complete (chars.length + 2) (.start chars)

end PipelineTraining.Yaml
