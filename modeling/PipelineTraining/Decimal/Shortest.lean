import PipelineTraining.Decimal.Binary

/-!
The shortest decimal that reads back as a given double. The reals that round
to a double form an interval around it, ends included exactly when the
significand is even. For one digit, two digits and so on, the value's two
neighbours on that decimal grid are tested; the first grid with a hit wins and
of two hits the nearer. Between two equally near ones a `Tie` decides.
-/

namespace PipelineTraining.Decimal

/-- Which of two decimals that lie equally near is taken: the greater one, or the one with the
even last digit. -/
inductive Tie where
  | greater
  | even
deriving DecidableEq

/-- The reals that read back as one double, in quarters of its last bit. -/
structure Basin where
  value : Nat
  low : Nat
  high : Nat
  closed : Bool
  quarter : Int

/-- Below a power of two the doubles lie twice as close, so the lower half is narrower. -/
def Basin.of (significand : Nat) (exponent : Int) : Basin where
  value := 4 * significand
  low :=
    if significand = Binary.hidden ∧ Binary.lowest < exponent then 4 * significand - 1
    else 4 * significand - 2
  high := 4 * significand + 2
  closed := significand % 2 = 0
  quarter := exponent - 2

def Tie.takesBelow (tie : Tie) (below toBelow toAbove : Nat) : Bool :=
  if toBelow = toAbove then tie = .even && below % 2 == 0 else toBelow < toAbove

def Basin.hit? (basin : Basin) (tie : Tie) (grid : Int) : Option Nat :=
  let unit := ((⟨1, 1⟩ : Magnitude).scaledByTwo basin.quarter).scaledByTen (-grid)
  let inside (candidate : Nat) : Bool :=
    let scaled := candidate * unit.denominator
    let low := basin.low * unit.numerator
    let high := basin.high * unit.numerator
    if basin.closed then low ≤ scaled && scaled ≤ high else low < scaled && scaled < high
  let value := basin.value * unit.numerator
  let below := value / unit.denominator
  let above := below + 1
  match inside below && below != 0, inside above with
  | true, true =>
      let toBelow := value - below * unit.denominator
      let toAbove := above * unit.denominator - value
      some (if tie.takesBelow below toBelow toAbove then below else above)
  | true, false => some below
  | false, true => some above
  | false, false => none

/-- Seventeen digits always read back, so the search stops there. -/
def Basin.search (basin : Basin) (tie : Tie) (leading : Int) : Nat → Nat → Numeral
  | _, 0 => ⟨0, 0⟩
  | count, steps + 1 =>
      let grid := leading - count + 1
      match basin.hit? tie grid with
      | some digits => Numeral.trimmed ⟨digits, grid⟩ 20
      | none => basin.search tie leading (count + 1) steps

def shortest (tie : Tie) (significand : Nat) (exponent : Int) : Numeral :=
  if significand = 0 then ⟨0, 0⟩
  else
    let value := (⟨significand, 1⟩ : Magnitude).scaledByTwo exponent
    (Basin.of significand exponent).search tie value.leadingPower 1 18

end PipelineTraining.Decimal
