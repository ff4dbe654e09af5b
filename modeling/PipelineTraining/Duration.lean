/-!
Spans of time in whole nanoseconds. A span is written in its largest unit of
seconds, milliseconds, microseconds and nanoseconds that is not below one,
followed by the exact fraction.
-/

namespace PipelineTraining

structure Duration where
  nanoseconds : Nat
deriving DecidableEq

namespace Duration

def zero : Duration := ⟨0⟩

def ofMilliseconds (count : Nat) : Duration := ⟨count * 1000000⟩

def longest : Duration := ⟨(Nat.pow 2 64 - 1) * 1000000000 + 999999999⟩

def fraction (places rest : Nat) : String :=
  if rest = 0 then ""
  else
    let digits := Nat.toDigits 10 rest
    let padded := List.replicate (places - digits.length) '0' ++ digits
    "." ++ String.ofList (padded.reverse.dropWhile (· == '0')).reverse

def inUnit (span : Duration) (places : Nat) (unit : String) : String :=
  let whole := Nat.pow 10 places
  toString (span.nanoseconds / whole) ++ fraction places (span.nanoseconds % whole) ++ unit

def text (span : Duration) : String :=
  if 1000000000 ≤ span.nanoseconds then span.inUnit 9 "s"
  else if 1000000 ≤ span.nanoseconds then span.inUnit 6 "ms"
  else if 1000 ≤ span.nanoseconds then span.inUnit 3 "µs"
  else span.inUnit 0 "ns"

end Duration
end PipelineTraining
