import PipelineTraining.Json.Value

/-!
Number literals. Whole numbers are exact within 64 bits. A number with a
fraction or an exponent, or beyond 64 bits, becomes a double from its first
digits, as many as 64 bits hold, scaled by one power of ten.
-/

namespace PipelineTraining.Json

structure Literal where
  negative : Bool
  integer : List Char
  fraction : List Char
  exponent : Option (Bool × List Char)

def largestWord : Nat := Nat.pow 2 64 - 1

def digit (char : Char) : Nat :=
  char.toNat - '0'.toNat

def gather : Nat → List Char → Nat × List Char
  | number, [] => (number, [])
  | number, char :: rest =>
      let longer := number * 10 + digit char
      if largestWord < longer then (number, char :: rest) else gather longer rest

def decimalValue (digits : List Char) : Nat :=
  digits.foldl (fun number char => number * 10 + digit char) 0

/-- Multiplies or divides by a power of ten, in strides of at most 308 places. An overflow has
no value; a number that has become zero stays zero. -/
def scale : Nat → Float → Int → Option Float
  | 0, number, _ => some number
  | strides + 1, number, power =>
      if power.natAbs ≤ 308 then
        let factor := (⟨1, power.natAbs⟩ : Decimal.Numeral).toFloat
        if power < 0 then some (number / factor)
        else if (number * factor).isInf then none
        else some (number * factor)
      else if number == 0.0 then some number
      else if 0 ≤ power then none
      else scale strides (number / 1e308) (power + 308)

def signed (negative : Bool) (number : Float) : Float :=
  if negative then -number else number

def exponentBound : Nat := Nat.pow 2 31

def Literal.real? (literal : Literal) : Option Float :=
  let (front, surplus) := gather 0 literal.integer
  let (number, ignored) := gather front literal.fraction
  let places : Int := (surplus.length : Int) - (literal.fraction.length - ignored.length : Nat)
  let scaled (power : Int) : Option Float :=
    (scale 8 number.toUInt64.toFloat power).map (signed literal.negative)
  match literal.exponent with
  | none => scaled places
  | some (minus, digits) =>
      let size := decimalValue digits
      if exponentBound ≤ size then
        if minus ∨ number = 0 then some (signed literal.negative 0.0) else none
      else scaled (if minus then places - size else places + size)

/-- The value of a literal; none if it is out of range. A negative zero is a double. -/
def Literal.value? (literal : Literal) : Option Json :=
  let real := literal.real?.map Json.real
  if literal.fraction ≠ [] ∨ literal.exponent.isSome then real
  else
    let number := decimalValue literal.integer
    if literal.negative then
      if number = 0 ∨ Nat.pow 2 63 < number then real else some (.whole (-(number : Int)))
    else if largestWord < number then real
    else some (.whole number)

def takeDigits (chars : List Char) : List Char × List Char :=
  (chars.takeWhile Char.isDigit, chars.dropWhile Char.isDigit)

def readInteger (chars : List Char) : Option (List Char × List Char) :=
  match takeDigits chars with
  | ([], _) => none
  | (['0'], rest) => some (['0'], rest)
  | ('0' :: _, _) => none
  | (digits, rest) => some (digits, rest)

def readFraction : List Char → Option (List Char × List Char)
  | '.' :: chars =>
      match takeDigits chars with
      | ([], _) => none
      | (digits, rest) => some (digits, rest)
  | chars => some ([], chars)

def readPower (minus : Bool) (chars : List Char) : Option (Option (Bool × List Char) × List Char) :=
  match takeDigits chars with
  | ([], _) => none
  | (digits, rest) => some (some (minus, digits), rest)

def readExponent : List Char → Option (Option (Bool × List Char) × List Char)
  | char :: chars =>
      if char = 'e' ∨ char = 'E' then
        match chars with
        | '+' :: rest => readPower false rest
        | '-' :: rest => readPower true rest
        | rest => readPower false rest
      else some (none, char :: chars)
  | [] => some (none, [])

def readLiteral (chars : List Char) : Option (Literal × List Char) := do
  let (negative, chars) :=
    match chars with
    | '-' :: rest => (true, rest)
    | rest => (false, rest)
  let (integer, chars) ← readInteger chars
  let (fraction, chars) ← readFraction chars
  let (exponent, chars) ← readExponent chars
  return (⟨negative, integer, fraction, exponent⟩, chars)

end PipelineTraining.Json
