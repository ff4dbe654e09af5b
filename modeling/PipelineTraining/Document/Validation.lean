import PipelineTraining.Document.Record
import PipelineTraining.Validation.Comparison

/-!
Fingerprints, match modes and step states in data files.
-/

namespace PipelineTraining
open Document

namespace Fingerprint

def encode (fingerprint : Fingerprint) : Json :=
  .object [
    ("checksum", .natural fingerprint.checksum.toNat),
    ("l2_norm", .real fingerprint.norm),
    ("non_finite", .bool fingerprint.nonFinite)]

def decode? (json : Json) : Option Fingerprint := do
  match ← values? ["checksum", "l2_norm", "non_finite"] json with
  | [checksum, norm, nonFinite] =>
      return ⟨(← natural? checksum).toUInt64, ← real? norm, ← bool? nonFinite⟩
  | _ => none

end Fingerprint

namespace StageFingerprint

def encode (entry : StageFingerprint) : Json :=
  .object [
    ("stage", .natural entry.stage),
    ("replica", .natural entry.replica),
    ("fingerprint", entry.fingerprint.encode)]

def decode? (json : Json) : Option StageFingerprint := do
  match ← values? ["stage", "replica", "fingerprint"] json with
  | [stage, replica, fingerprint] =>
      return ⟨← natural? stage, ← natural? replica, ← Fingerprint.decode? fingerprint⟩
  | _ => none

end StageFingerprint

namespace MatchMode

def encode : MatchMode → Json
  | .exact => .string "exact"
  | .tolerance relative => .object [("tolerance", .object [("relative", .real relative)])]

def decode? (json : Json) : Option MatchMode :=
  match json with
  | .object [("tolerance", value)] =>
      match values? ["relative"] value with
      | some [relative] => (real? relative).map .tolerance
      | _ => none
  | _ => if name? json = some "exact" then some .exact else none

end MatchMode

namespace StepState

def encode (state : StepState) : Json :=
  .string state.text

def all : List StepState :=
  [.applied, .validating, .committed, .rolledBack, .retrying, .divergent]

def decode? (json : Json) : Option StepState :=
  (name? json).bind fun name => all.find? fun state => state.text == name

end StepState
end PipelineTraining
