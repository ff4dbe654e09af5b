import PipelineTraining.Fault

/-!
Whether and how strictly a step is validated after its optimizer update.
-/

namespace PipelineTraining

structure ValidationSettings where
  enabled : Bool
  exact : Bool
  tolerance : Float

namespace ValidationSettings

def standard : ValidationSettings := ⟨false, false, 1e-6⟩

def mode (settings : ValidationSettings) : MatchMode :=
  if settings.exact then .exact else .tolerance settings.tolerance

/-- The tolerance only counts where matching is not exact. -/
def check (settings : ValidationSettings) : Except Fault Unit :=
  if settings.exact || (0.0 ≤ settings.tolerance && settings.tolerance.isFinite) then .ok ()
  else .error (.configuration (.tolerance settings.tolerance))

end ValidationSettings
end PipelineTraining
