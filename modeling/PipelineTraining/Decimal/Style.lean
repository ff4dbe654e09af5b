import PipelineTraining.Decimal.Shortest

/-!
Texts of doubles. A `Style` lists the decisions of one written form; `write`
lays the shortest digits out accordingly. `scientific` has a fixed number of
digits instead.
-/

namespace PipelineTraining.Decimal

/-- The decisions of a written form of doubles. `positional` tells from the power of ten
of the leading digit whether the number is written without an exponent. -/
structure Style where
  positional : Int → Bool
  pointAlways : Bool
  plusSign : Bool
  tie : Tie
  nan : String
  infinity : String

def plain : Style where
  positional _ := true
  pointAlways := false
  plusSign := false
  tie := .greater
  nan := "NaN"
  infinity := "inf"

/-- Every number shows a point or an exponent; below `1e-4` and from `1e16` on an exponent. -/
def labelled : Style where
  positional power := -4 ≤ power && power < 16
  pointAlways := true
  plusSign := false
  tie := .greater
  nan := "NaN"
  infinity := "inf"

/-- Numbers of data files: below `1e-5` and from `1e16` on a signed exponent. What is not
finite has no number. -/
def data : Style where
  positional power := -5 ≤ power && power < 16
  pointAlways := true
  plusSign := true
  tie := .even
  nan := "null"
  infinity := "null"

def zeros (count : Nat) : String :=
  "".pushn '0' count

def sign (negative : Bool) : String :=
  if negative then "-" else ""

def pointed (digits : String) (whole : Nat) : String :=
  String.ofList (digits.toList.take whole) ++ "." ++ String.ofList (digits.toList.drop whole)

def Numeral.positional (value : Numeral) (pointAlways : Bool) : String :=
  let digits := toString value.digits
  match value.exponent with
  | .ofNat power => digits ++ zeros power ++ (if pointAlways then ".0" else "")
  | .negSucc power =>
      let places := power + 1
      if places < digits.length then pointed digits (digits.length - places)
      else "0." ++ zeros (places - digits.length) ++ digits

def Numeral.scientific (value : Numeral) (plusSign : Bool) : String :=
  let digits := toString value.digits
  let power := value.exponent + digits.length - 1
  let mantissa := if digits.length = 1 then digits else pointed digits 1
  mantissa ++ "e" ++ (if plusSign && decide (0 ≤ power) then "+" else "") ++ toString power

def Numeral.power (value : Numeral) : Int :=
  value.exponent + width value.digits - 1

def Style.write (style : Style) (value : Float) : String :=
  match Binary.ofFloat value with
  | .undefined => style.nan
  | .infinite negative =>
      if style.infinity = style.nan then style.nan else sign negative ++ style.infinity
  | .finite negative significand exponent =>
      let decimal := shortest style.tie significand exponent
      let text :=
        if style.positional decimal.power then decimal.positional style.pointAlways
        else decimal.scientific style.plusSign
      sign negative ++ text

def scientific (places : Nat) (value : Float) : String :=
  match Binary.ofFloat value with
  | .undefined => "NaN"
  | .infinite negative => sign negative ++ "inf"
  | .finite negative significand exponent =>
      if significand = 0 then sign negative ++ "0." ++ zeros places ++ "e0"
      else
        let magnitude := (⟨significand, 1⟩ : Magnitude).scaledByTwo exponent
        sign negative ++ (magnitude.significant (places + 1)).scientific false

end PipelineTraining.Decimal
