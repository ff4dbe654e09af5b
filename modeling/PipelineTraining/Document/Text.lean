import PipelineTraining.Document.Interest
import PipelineTraining.Document.Settings
import PipelineTraining.Document.Timing
import PipelineTraining.Document.Validation

/-!
Records from the texts of data files. A text holds one record and nothing else.
-/

namespace PipelineTraining
open Document

namespace Document

variable {α : Type}

def ofText? (interest : Json.Interest) (decode? : Json → Option α) (text : String) : Option α :=
  (Json.read? interest text).bind decode?

def settingsOfText? (interest : Json.Interest) (decode : Json → Except Refusal α) (text : String) :
    Option α :=
  ofText? interest (fun json => (decode json).toOption) text

end Document

def StageId.ofText? : String → Option StageId :=
  Document.ofText? stageInterest decode?

def Placement.ofText? : String → Option Placement :=
  Document.ofText? .everything decode?

def Topology.ofText? : String → Option Topology :=
  Document.ofText? topologyInterest decode?

def Layout.ofText? : String → Option Layout :=
  Document.ofText? layoutInterest decode?

def TransferKind.ofText? : String → Option TransferKind :=
  Document.ofText? .everything decode?

def Transfer.ofText? : String → Option Transfer :=
  Document.ofText? transferInterest decode?

def OperationKind.ofText? : String → Option OperationKind :=
  Document.ofText? .everything decode?

def Operation.ofText? : String → Option Operation :=
  Document.ofText? operationInterest decode?

def RankPlan.ofText? : String → Option RankPlan :=
  Document.ofText? rankPlanInterest decode?

def Statistics.ofText? : String → Option Statistics :=
  Document.ofText? statisticsInterest decode?

def Plan.ofText? : String → Option Plan :=
  Document.ofText? planInterest decode?

def TimingRecord.ofText? : String → Option TimingRecord :=
  Document.ofText? recordInterest decode?

def Fingerprint.ofText? : String → Option Fingerprint :=
  Document.ofText? fingerprintInterest decode?

def StageFingerprint.ofText? : String → Option StageFingerprint :=
  Document.ofText? stageFingerprintInterest decode?

def MatchMode.ofText? : String → Option MatchMode :=
  Document.ofText? matchModeInterest decode?

def StepState.ofText? : String → Option StepState :=
  Document.ofText? .everything decode?

def CostModel.ofText? : String → Option CostModel :=
  settingsOfText? costInterest decode

def MemoryLimit.ofText? : String → Option MemoryLimit :=
  settingsOfText? .everything decode

def ValidationSettings.ofText? : String → Option ValidationSettings :=
  settingsOfText? validationInterest decode

def Window.ofText? : String → Option Window :=
  settingsOfText? windowInterest decode

/-- Only reads; whether the settings fit together is not looked into. -/
def Config.ofText? : String → Option Config :=
  settingsOfText? configInterest decode

end PipelineTraining
