import PipelineTraining.Decimal.Style
import PipelineTraining.Text.Quoted

/-!
A fingerprint condenses a member's parameters into a checksum of their bits
and the norm of their values, so that replicas can be compared without moving
the parameters.
-/

namespace PipelineTraining

structure Fingerprint where
  checksum : UInt64
  norm : Float
  nonFinite : Bool

inductive MatchMode where
  | exact
  | tolerance (relative : Float)

namespace Fingerprint

def make (checksum : UInt64) (norm : Float) : Fingerprint :=
  ⟨checksum, norm, !norm.isFinite⟩

def isFinite (fingerprint : Fingerprint) : Bool :=
  !fingerprint.nonFinite && fingerprint.norm.isFinite

/-- The norms differ by at most the given fraction of the larger one. -/
def within (relative : Float) (left right : Float) : Bool :=
  let left' := left.abs
  let right' := right.abs
  let scale := if left' < right' then right' else left'
  (left - right).abs ≤ relative * scale

/-- A fingerprint that is not finite agrees with none, not even itself. -/
def agrees (left right : Fingerprint) (mode : MatchMode) : Bool :=
  left.isFinite && right.isFinite &&
    match mode with
    | .exact => left.checksum == right.checksum
    | .tolerance relative => within relative left.norm right.norm

/-- Equality of all fields, norms compared as numbers: a NaN differs from itself and both
zeros are one. -/
def same (left right : Fingerprint) : Bool :=
  left.checksum == right.checksum && left.norm == right.norm && left.nonFinite == right.nonFinite

def text (fingerprint : Fingerprint) : String :=
  let checksum := Text.hex 16 fingerprint.checksum.toNat
  let norm := Decimal.scientific 6 fingerprint.norm
  let mark := if fingerprint.nonFinite then ", non-finite" else ""
  s!"{checksum} (l2 {norm}{mark})"

end Fingerprint
end PipelineTraining
