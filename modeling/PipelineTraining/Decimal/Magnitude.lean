/-!
Exact positive numbers as fractions, and the decimals written for them. A
double is such a fraction once its bits are taken apart, so every question
about its text is settled in whole numbers.
-/

namespace PipelineTraining.Decimal

structure Magnitude where
  numerator : Nat
  denominator : Nat

structure Numeral where
  digits : Nat
  exponent : Int
deriving DecidableEq

namespace Magnitude

def scaledByTwo (value : Magnitude) : Int → Magnitude
  | .ofNat power => { value with numerator := value.numerator * Nat.pow 2 power }
  | .negSucc power => { value with denominator := value.denominator * Nat.pow 2 (power + 1) }

def scaledByTen (value : Magnitude) : Int → Magnitude
  | .ofNat power => { value with numerator := value.numerator * Nat.pow 10 power }
  | .negSucc power => { value with denominator := value.denominator * Nat.pow 10 (power + 1) }

def floor (value : Magnitude) : Nat :=
  value.numerator / value.denominator

/-- The nearest whole number. A half goes to the even neighbour. -/
def round (value : Magnitude) : Nat :=
  let whole := value.floor
  let twice := 2 * (value.numerator % value.denominator)
  if twice < value.denominator then whole
  else if value.denominator < twice then whole + 1
  else if whole % 2 = 0 then whole else whole + 1

end Magnitude

def width (number : Nat) : Nat :=
  (Nat.toDigits 10 number).length

def Magnitude.leadingPower (value : Magnitude) : Int :=
  if value.denominator ≤ value.numerator then (width value.floor : Int) - 1
  else
    let inverse := (value.denominator + value.numerator - 1) / value.numerator
    (0 : Int) - width (inverse - 1)

def Numeral.trimmed (value : Numeral) : Nat → Numeral
  | 0 => value
  | steps + 1 =>
      if value.digits % 10 = 0 ∧ value.digits ≠ 0 then
        Numeral.trimmed ⟨value.digits / 10, value.exponent + 1⟩ steps
      else value

/-- A positive fraction to `count` significant digits, a half going to the even neighbour.
Rounding up to the next power of ten moves the leading digit instead of adding one. -/
def Magnitude.significant (value : Magnitude) (count : Nat) : Numeral :=
  let grid := value.leadingPower - count + 1
  let digits := (value.scaledByTen (-grid)).round
  if digits = Nat.pow 10 count then ⟨Nat.pow 10 (count - 1), grid + 1⟩ else ⟨digits, grid⟩

end PipelineTraining.Decimal
