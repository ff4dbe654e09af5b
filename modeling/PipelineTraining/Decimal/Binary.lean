import PipelineTraining.Decimal.Magnitude

/-!
Doubles taken apart and put together. `Binary.ofFloat` reads the sign, the
significand and the power of two from the bits; `Numeral.toFloat` is the
double nearest to a decimal, a tie going to the even significand.
-/

namespace PipelineTraining.Decimal

/-- What the bits of a double stand for: a finite one is `significand * 2 ^ exponent`. -/
inductive Binary where
  | finite (negative : Bool) (significand : Nat) (exponent : Int)
  | infinite (negative : Bool)
  | undefined
deriving DecidableEq

namespace Binary

def hidden : Nat := Nat.pow 2 52

/-- The power of two of the last bit of a subnormal double. -/
def lowest : Int := -1074

def ofBits (bits : Nat) : Binary :=
  let negative := decide (Nat.pow 2 63 ≤ bits)
  let field := bits / hidden % 2048
  let fraction := bits % hidden
  if field = 2047 then
    if fraction = 0 then .infinite negative else .undefined
  else if field = 0 then .finite negative fraction lowest
  else .finite negative (hidden + fraction) (lowest + field - 1)

def ofFloat (value : Float) : Binary :=
  ofBits value.toBits.toNat

end Binary

/-- The bits of the double nearest to a fraction. The significand has 53 bits, fewer
once its last bit would lie below the lowest power. -/
def Magnitude.nearestBits (value : Magnitude) : Nat :=
  if value.numerator = 0 then 0
  else
    let estimate : Int := (value.numerator.log2 : Int) - value.denominator.log2
    let leading : Int :=
      if (value.scaledByTwo (-estimate)).floor = 0 then estimate - 1 else estimate
    let last := max (leading - 52) Binary.lowest
    let significand := (value.scaledByTwo (-last)).round
    min (significand + (last - Binary.lowest).toNat * Binary.hidden) (2047 * Binary.hidden)

/-- A decimal as a double. Decimals far beyond both ends of the range are settled by
their leading digit alone, so that no huge power is ever formed. -/
def Numeral.toFloat (value : Numeral) : Float :=
  if value.digits = 0 then 0.0
  else
    let reach := value.exponent + width value.digits
    if 400 < reach then Float.ofBits (2047 * Binary.hidden).toUInt64
    else if reach < -400 then 0.0
    else
      let bits := ((⟨value.digits, 1⟩ : Magnitude).scaledByTen value.exponent).nearestBits
      Float.ofBits bits.toUInt64

end PipelineTraining.Decimal
