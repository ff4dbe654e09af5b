import PipelineTraining.Decimal.Binary
import PipelineTraining.Yaml.Tag

/-!
What plain scalars of YAML mean: nothing, switches, whole numbers and doubles.
Whole numbers may be written with a base. Several digits that begin with a zero
are a text and no whole number.
-/

namespace PipelineTraining.Yaml.Core

def tagOf (kind : String) : Tag :=
  .ofText ("tag:yaml.org,2002:" ++ kind)

def isNull (text : String) : Bool :=
  text == "null" || text == "Null" || text == "NULL" || text == "~"

def switch? (text : String) : Option Bool :=
  if text = "true" ∨ text = "True" ∨ text = "TRUE" then some true
  else if text = "false" ∨ text = "False" ∨ text = "FALSE" then some false
  else none

def isSign (char : Char) : Bool :=
  char == '+' || char == '-'

def withoutPlus : List Char → List Char
  | '+' :: rest => rest
  | chars => chars

def withoutSign : List Char → List Char
  | char :: rest => if isSign char then rest else char :: rest
  | [] => []

def startsSigned (chars : List Char) : Bool :=
  chars.head?.any isSign

def isPadded (chars : List Char) : Bool :=
  match withoutSign chars with
  | '0' :: digit :: rest => (digit :: rest).all Char.isDigit
  | _ => false

def digit? (radix : Nat) (char : Char) : Option Nat :=
  let value :=
    if '0' ≤ char ∧ char ≤ '9' then char.toNat - '0'.toNat
    else if 'a' ≤ char ∧ char ≤ 'z' then char.toNat - 'a'.toNat + 10
    else if 'A' ≤ char ∧ char ≤ 'Z' then char.toNat - 'A'.toNat + 10
    else radix
  if value < radix then some value else none

def number? (radix : Nat) : List Char → Option Nat
  | [] => none
  | chars => chars.foldlM (fun number char => (digit? radix char).map (number * radix + ·)) 0

def based : List Char → Option (Nat × List Char)
  | '0' :: 'x' :: rest => some (16, rest)
  | '0' :: 'o' :: rest => some (8, rest)
  | '0' :: 'b' :: rest => some (2, rest)
  | _ => none

def decimal? (chars : List Char) : Option Nat :=
  if isPadded chars then none else number? 10 chars

def positive? (chars : List Char) : Option Nat :=
  let chars := withoutPlus chars
  match based chars with
  | some (radix, digits) => number? radix digits
  | none => decimal? chars

def negative? : List Char → Option Nat
  | '-' :: chars =>
      match based chars with
      | some (radix, digits) => number? radix digits
      | none => decimal? chars
  | _ => none

def natural? (text : String) : Option Nat :=
  (positive? text.toList).filter (· < Nat.pow 2 64)

def count? (text : String) : Option Nat :=
  match negative? text.toList with
  | some 0 => some 0
  | _ => natural? text

/-- Whole numbers of up to 128 bits, the sign of a negative one included. -/
def isWhole (text : String) : Bool :=
  (positive? text.toList).any (· < Nat.pow 2 128) || (negative? text.toList).any (· ≤ Nat.pow 2 127)

def takeDigits (chars : List Char) : List Char × List Char :=
  (chars.takeWhile Char.isDigit, chars.dropWhile Char.isDigit)

def mantissa? (chars : List Char) : Option (List Char × List Char × List Char) :=
  let (integer, rest) := takeDigits chars
  let (fraction, rest) :=
    match rest with
    | '.' :: rest => takeDigits rest
    | rest => ([], rest)
  if integer.isEmpty ∧ fraction.isEmpty then none else some (integer, fraction, rest)

def power? : List Char → Option Int
  | [] => some 0
  | mark :: rest =>
      if mark = 'e' ∨ mark = 'E' then
        (number? 10 (withoutSign rest)).map fun (size : Nat) =>
          if rest.head? = some '-' then -(size : Int) else size
      else none

def decimalReal? (chars : List Char) : Option Float := do
  let (integer, fraction, rest) ← mantissa? (withoutSign chars)
  let power ← power? rest
  let digits ← number? 10 (integer ++ fraction)
  let size := (⟨digits, power - fraction.length⟩ : Decimal.Numeral).toFloat
  return if chars.head? = some '-' then -size else size

def isInfinity (chars : List Char) : Bool :=
  chars == ['.', 'i', 'n', 'f'] || chars == ['.', 'I', 'n', 'f'] || chars == ['.', 'I', 'N', 'F']

def isUndefined (chars : List Char) : Bool :=
  chars == ['.', 'n', 'a', 'n'] || chars == ['.', 'N', 'a', 'N'] || chars == ['.', 'N', 'A', 'N']

def unsigned? : List Char → Option (List Char)
  | '+' :: rest => if startsSigned rest then none else some rest
  | chars => some chars

/-- A double. A decimal beyond all doubles is none, infinity has to be named. -/
def real? (text : String) : Option Float := do
  let chars := text.toList
  let rest ← unsigned? chars
  if isInfinity rest then return 1.0 / 0.0
  else if chars.head? = some '-' ∧ isInfinity chars.tail then return -1.0 / 0.0
  else if isUndefined chars then return 0.0 / 0.0
  else (decimalReal? rest).filter Float.isFinite

end PipelineTraining.Yaml.Core
