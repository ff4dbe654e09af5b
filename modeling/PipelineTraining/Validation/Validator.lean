import PipelineTraining.Validation.Comparison

/-!
A member's validator. It is at work only when it is enabled and connected to the
other members; otherwise every step passes.
-/

namespace PipelineTraining

/-- How the fingerprints of a group are exchanged: message by message over its mesh, or by other
means that answer with all of them. -/
inductive Channel where
  | mesh
  | other
deriving DecidableEq

structure Validator where
  settings : ValidationSettings
  stage : Nat
  replica : Nat
  channel : Option Channel

namespace Validator

def disabled : Validator := ⟨.standard, 0, 0, none⟩

def withChannel (channel : Channel) (settings : ValidationSettings) (stage replica : Nat) :
    Except Fault Validator := do
  settings.check
  return ⟨settings, stage, replica, some channel⟩

def make (settings : ValidationSettings) (stage replica : Nat) : Except Fault Validator :=
  withChannel .mesh settings stage replica

def isEnabled (validator : Validator) : Bool :=
  validator.settings.enabled && validator.channel.isSome

def publish (validator : Validator) (fingerprint : Fingerprint) : StageFingerprint :=
  ⟨validator.stage, validator.replica, fingerprint⟩

def judge (validator : Validator) (gathered : List StageFingerprint) : Outcome :=
  Comparison.compare gathered validator.stage validator.replica validator.settings.mode

def validate (validator : Validator) (fingerprint : Fingerprint)
    (exchange : StageFingerprint → Except Fault (List StageFingerprint)) : Except Fault Outcome :=
  if validator.isEnabled then (exchange (validator.publish fingerprint)).map validator.judge
  else .ok .consistent

def text (validator : Validator) : String :=
  let settings := validator.settings
  let tolerance := Decimal.labelled.write settings.tolerance
  "PostValidator \x7b config: PostValidationConfig \x7b " ++
    s!"enabled: {settings.enabled}, exact_numeric_match: {settings.exact}, " ++
    s!"relative_tolerance: {tolerance} " ++
    s!"\x7d, stage: {validator.stage}, replica: {validator.replica}, .. \x7d"

end Validator
end PipelineTraining
