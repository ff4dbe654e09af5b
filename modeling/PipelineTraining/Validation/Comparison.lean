import PipelineTraining.Validation.Settings

/-!
The verdict on gathered fingerprints. Replicas of one stage must agree. A member
compares its own fingerprint with the other replicas of its stage first, then in
every other stage the first replica with the rest.
-/

namespace PipelineTraining

structure StageFingerprint where
  stage : Nat
  replica : Nat
  fingerprint : Fingerprint

inductive Outcome where
  | consistent
  | mismatch (own other : Fingerprint)

namespace Outcome

def isConsistent : Outcome → Bool
  | .consistent => true
  | .mismatch .. => false

end Outcome

namespace Comparison

def replicas (gathered : List StageFingerprint) (stage : Nat) : List StageFingerprint :=
  (gathered.filter fun entry => entry.stage == stage).mergeSort fun left right =>
    left.replica ≤ right.replica

def stages (gathered : List StageFingerprint) : List Nat :=
  ((gathered.map StageFingerprint.stage).mergeSort fun left right => left ≤ right).eraseDups

def dissenter? (mode : MatchMode) (own : Fingerprint) (others : List StageFingerprint) :
    Option Outcome :=
  (others.find? fun other => !own.agrees other.fingerprint mode).map fun other =>
    .mismatch own other.fingerprint

def finite? (own : Fingerprint) : Option Outcome :=
  if own.isFinite then none else some (.mismatch own own)

def ownStage? (gathered : List StageFingerprint) (stage replica : Nat) (mode : MatchMode) :
    Option Outcome :=
  let group := replicas gathered stage
  match group.find? fun entry => entry.replica == replica with
  | none => none
  | some own =>
      let others := group.filter fun entry => entry.replica != replica
      (dissenter? mode own.fingerprint others).or (finite? own.fingerprint)

def otherStage? (gathered : List StageFingerprint) (mode : MatchMode) (stage : Nat) :
    Option Outcome :=
  match replicas gathered stage with
  | [] => none
  | first :: rest =>
      (finite? first.fingerprint).or (dissenter? mode first.fingerprint rest)

def compare (gathered : List StageFingerprint) (stage replica : Nat) (mode : MatchMode) : Outcome :=
  let others := (stages gathered).filter fun other => other != stage
  ((ownStage? gathered stage replica mode).or (others.findSome? (otherStage? gathered mode))).getD
    .consistent

end Comparison
end PipelineTraining
