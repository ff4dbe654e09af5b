import PipelineTraining.Decimal.Binary
import PipelineTraining.Fingerprint.Basic

/-!
Folding buffers of numbers into a fingerprint. The checksum folds the bytes of
every number, lowest first, so any change of a bit shows; the norm adds up the
squares of the finite ones.
-/

namespace PipelineTraining

structure NumberFormat where
  exponentBits : Nat
  fractionBits : Nat
deriving DecidableEq

namespace NumberFormat

def half : NumberFormat := ⟨5, 10⟩
def brain : NumberFormat := ⟨8, 7⟩
def single : NumberFormat := ⟨8, 23⟩
def double : NumberFormat := ⟨11, 52⟩

def byteCount (format : NumberFormat) : Nat :=
  (1 + format.exponentBits + format.fractionBits) / 8

def bytes (format : NumberFormat) (bits : Nat) : List UInt8 :=
  (List.range format.byteCount).map fun index => (bits / Nat.pow 256 index % 256).toUInt8

/-- The double of the same value. No format here is wider than a double, so nothing is rounded. -/
def toFloat (format : NumberFormat) (bits : Nat) : Float :=
  let leading := Nat.pow 2 format.fractionBits
  let fields := Nat.pow 2 format.exponentBits
  let fraction := bits % leading
  let field := bits / leading % fields
  let negative := bits / (leading * fields) % 2 = 1
  let lowest : Int := 2 - Nat.pow 2 (format.exponentBits - 1) - format.fractionBits
  let size : Nat :=
    if field + 1 = fields then
      2047 * Decimal.Binary.hidden + (if fraction = 0 then 0 else Decimal.Binary.hidden / 2)
    else if field = 0 then
      ((⟨fraction, 1⟩ : Decimal.Magnitude).scaledByTwo lowest).nearestBits
    else
      ((⟨leading + fraction, 1⟩ : Decimal.Magnitude).scaledByTwo
        (lowest + field - 1)).nearestBits
  Float.ofBits (size + if negative then Nat.pow 2 63 else 0).toUInt64

end NumberFormat

structure Digest where
  checksum : UInt64
  squares : Float
  nonFinite : Bool
  count : Nat

namespace Digest

def empty : Digest := ⟨0xcbf29ce484222325, 0.0, false, 0⟩

def mix (checksum : UInt64) (byte : UInt8) : UInt64 :=
  (checksum ^^^ byte.toUInt64) * 0x100000001b3

def add (format : NumberFormat) (digest : Digest) (bits : Nat) : Digest :=
  let value := format.toFloat bits
  { checksum := (format.bytes bits).foldl mix digest.checksum
    squares := if value.isFinite then digest.squares + value * value else digest.squares
    nonFinite := digest.nonFinite || !value.isFinite
    count := digest.count + 1 }

def addAll (format : NumberFormat) (digest : Digest) (values : List Nat) : Digest :=
  values.foldl (add format) digest

/-- The norm is the root of the squares, which may have grown beyond all doubles. -/
def finish (digest : Digest) : Fingerprint where
  checksum := digest.checksum
  norm := digest.squares.sqrt
  nonFinite := digest.nonFinite

end Digest
end PipelineTraining
