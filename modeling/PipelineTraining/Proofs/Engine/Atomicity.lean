import PipelineTraining.Proofs.Engine.Safekeeping
import PipelineTraining.Proofs.Plan.Building

/-!
A guarded run is atomic. One that commits leaves behind what a single update makes of
the snapshot, and one that fails leaves the snapshot, unless a roll-back fails too.
-/

namespace PipelineTraining

variable {σ α π : Type}

structure Worker.Serves (worker : Worker) (plan : Plan) : Prop where
  planned : worker.plan = plan
  scripted : (plan.rankPlan? worker.rank).map RankPlan.operations = some worker.operations

namespace Worker

variable {worker : Worker} {plan : Plan} {rank members : Nat}

theorem serves_of_make (made : Worker.make plan rank members = .ok worker) :
    worker.Serves plan := by
  unfold Worker.make at made
  split at made
  · cases made
  · cases found : plan.rankPlan? rank with
    | none =>
        rw [found] at made
        cases made
    | some rankPlan =>
        rw [found] at made
        cases limited : Limiter.make plan.ranks.length plan.memoryLimit with
        | error fault =>
            rw [limited] at made
            cases made
        | ok limiter =>
            rw [limited] at made
            obtain rfl := Except.ok.inj made
            exact ⟨rfl, congrArg (Option.map RankPlan.operations) found⟩

theorem Serves.optimizer_once {course : List (Nat × Operation)} (serves : worker.Serves plan)
    (scored : Scored plan course) : worker.operations.count .optimizerStep ≤ 1 := by
  obtain ⟨rankPlan, found, same⟩ := Option.map_eq_some_iff.mp serves.scripted
  rw [← same, scored.script worker.rank rankPlan found]
  exact List.nodup_iff_count_le_one.mp (scored.playable worker.rank).noDup _

end Worker

variable {change : Nat → π → π} {parameters : Parameters π} {log : List (Exchange α)}
  {run : Run α} {worker : Worker} {inputs : Option (List α)}

theorem Kin.ofStep (worker : Worker) (inputs : Option (List α)) :
    Kin ⟨{ worker with iteration := worker.iteration + 1 }, worker.iteration, inputs,
      .clearing none⟩ (Run.ofStep worker inputs) := by
  unfold Run.ofStep
  dsimp only
  split
  · exact (Kin.beginAttempt _ none).trans (.become _ _)
  · exact .beginAttempt _ none

theorem Dialogue.orderly {first : Run α} (begun : Orderly first.phase)
    (dialogue : Dialogue first log run) : Orderly run.phase := by
  induction dialogue with
  | start => exact begun
  | stride _ stride ih => exact ih.stride stride

theorem Dialogue.stage (placed : worker.plan.layout.places = true)
    (once : worker.operations.count .optimizerStep ≤ 1)
    (enabled : worker.validator.isEnabled = true)
    (dialogue : Dialogue (.ofStep worker inputs) log run) :
    Stage change parameters log run.phase := by
  have phase : (Run.ofStep worker inputs).phase = .snapshotting := by
    simp only [Run.ofStep, if_pos enabled, Run.become]
  have begun : Orderly (Run.ofStep worker inputs).phase := by
    rw [phase]
    exact .snapshotting
  -- By induction on the turns. What a stage needs of the worker is what all runs of it share.
  induction dialogue with
  | start =>
      rw [phase]
      exact .fresh rfl
  | stride past stride ih =>
      have kin := (Kin.ofStep worker inputs).trans past.kin
      refine ih.stride ?_ ?_ (past.orderly begun) stride
      · rw [kin.plan]
        exact placed
      · rw [kin.operations]
        exact once

theorem Run.phase_of_over {result : Except Fault (StepReport α)} (ended : run.turn = .over result) :
    run.phase = .ended result := by
  unfold Run.turn at ended
  split at ended <;> try cases ended
  · split at ended <;> cases ended
  · assumption

/-- What a committed step has come to: after one attempt or two, with a roll-back between them,
the parameters are those of the snapshot after one update. -/
structure Committed (change : Nat → π → π) (parameters : Parameters π) (log : List (Exchange α))
    (report : StepReport α) : Prop where
  consistent : report.result.validation = some .consistent
  attempts : report.attempts = 1 ∨ report.attempts = 2
  restores : log.countP Exchange.restores + 1 = report.attempts
  discards : log.countP Exchange.discards + 1 = report.attempts
  updated : ∃ place fingerprint, log[place]? = some ⟨.optimize, .ok fingerprint⟩ ∧
    (parameters.after change log).current = change place parameters.current

/-- What a failed step has come to, unless a restore failed: the parameters are those of the
snapshot, whose handle was discarded last. -/
structure RolledBack (change : Nat → π → π) (parameters : Parameters π) (log : List (Exchange α))
    (handle : Nat) : Prop where
  intact : (parameters.after change log).current = parameters.current
  last : ∃ before answer, log = before ++ [⟨.restore handle, .ok ()⟩, ⟨.discard, answer⟩]

namespace Stage

variable {report : StepReport α} {fault : Fault} {handle : Nat}

theorem committed_of_ended (stage : Stage change parameters log (.ended (.ok report))) :
    Committed change parameters log report := by
  cases stage with
  | trying shown => cases shown
  | committed held times_le counted rolled consistent applied changed =>
      obtain ⟨restores, discards⟩ := rolled
      exact ⟨consistent, by omega, by omega, by omega, _, _, applied, changed⟩

theorem rolledBack_of_ended (stage : Stage change parameters log (.ended (.error fault)))
    (taken : ⟨.snapshot, .ok handle⟩ ∈ log)
    (kept : ∀ handle source, ⟨.restore handle, .error source⟩ ∉ log) :
    RolledBack change parameters log handle := by
  cases stage with
  | refused only =>
      -- The snapshot that failed is all there was.
      rw [only] at taken
      cases List.mem_singleton.mp taken
  | trying shown => cases shown
  | stranded held failed => exact absurd failed (kept _ _)
  | failed held intact last =>
      obtain ⟨rest, rfl, later⟩ := held.opened
      rcases List.mem_cons.mp taken with same | again
      · cases same
        exact ⟨intact, last⟩
      · exact absurd rfl (later _ again)

/-- A snapshot comes first, and only once; if it fails, nothing follows. -/
theorem opened {phase : Phase α} (stage : Stage change parameters log phase)
    (ended : ∃ result, phase = .ended result) :
    ∃ answer rest, log = ⟨.snapshot, answer⟩ :: rest ∧
      (∀ later ∈ rest, later.request ≠ .snapshot) ∧
      ∀ source, answer = .error source → rest = [] := by
  obtain ⟨result, rfl⟩ := ended
  cases stage with
  | refused only => exact ⟨_, [], only, by simp, fun _ _ => rfl⟩
  | trying shown => cases shown
  | stranded held | failed held | committed held =>
      obtain ⟨rest, same, later⟩ := held.opened
      exact ⟨_, rest, same, later, fun _ failed => by cases failed⟩

end Stage

namespace Run

/-- A guarded step is atomic, whatever its callbacks, its messages and its group answer. -/
theorem step_atomic {blueprint : Blueprint} {plan : Plan} {result : Except Fault (StepReport α)}
    (ranks : 0 < blueprint.topology.depth) (built : blueprint.build = .ok plan)
    (serves : worker.Serves plan) (enabled : worker.validator.isEnabled = true)
    (dialogue : Dialogue (.ofStep worker inputs) log run) (ended : run.turn = .over result)
    (change : Nat → π → π) (parameters : Parameters π) :
    (∀ report, result = .ok report → Committed change parameters log report) ∧
      (∀ fault handle, result = .error fault → ⟨.snapshot, .ok handle⟩ ∈ log →
        (∀ handle source, ⟨.restore handle, .error source⟩ ∉ log) →
        RolledBack change parameters log handle) ∧
      ∃ answer rest, log = ⟨.snapshot, answer⟩ :: rest ∧
        (∀ later ∈ rest, later.request ≠ .snapshot) ∧
        ∀ source, answer = .error source → rest = [] := by
  obtain ⟨course, scored⟩ := Blueprint.scored_of_build ranks built
  have placed : worker.plan.layout.places = true := by
    rw [serves.planned]
    exact Layout.places_of_sound scored.sound
  have stage : Stage change parameters log run.phase :=
    dialogue.stage placed (serves.optimizer_once scored) enabled
  rw [phase_of_over ended] at stage
  refine ⟨?_, ?_, stage.opened ⟨result, rfl⟩⟩
  · rintro report rfl
    exact stage.committed_of_ended
  · rintro fault handle rfl taken kept
    exact stage.rolledBack_of_ended taken kept

def solo : Blueprint :=
  ⟨⟨1, 1, none⟩, 1, 1, 1, .interleaved, false, true, .uniform⟩

def soloPlan : Plan :=
  match solo.build with
  | .ok plan => plan
  | .error _ => ⟨⟨0, 0, 0, .interleaved⟩, 0, 0, false, false, [], ⟨0, [], []⟩⟩

def soloist : Worker where
  rank := 0
  plan := soloPlan
  operations := (soloPlan.rankPlan? 0).elim [] RankPlan.operations
  limiter := ⟨1, [0], [0]⟩
  validator := ⟨⟨true, true, 0.0⟩, 0, 0, some .mesh⟩
  seat := ⟨0, 1⟩
  recorder := .make .disabled
  sink := .silent
  timeout := Worker.usualTimeout
  iteration := 4

def unoptimized (_ : List (Exchange Nat)) : (request : Request Nat) → request.Answer
  | .forward .. => .ok 1
  | .backward .. => .ok 2
  | .backwardWeights .. => .ok ()
  | .optimize => .error "overflow"
  | .dropStale _ => ()
  | .send .. => .ok ()
  | .receive .. => .ok 3
  | .dropPublished _ => ()
  | .publish .. => .ok ()
  | .collect .. => .error (.disconnected 0)
  | .gather .. => .ok []
  | .snapshot => .ok 9
  | .restore _ => .ok ()
  | .discard => .ok ()

/-- A step whose optimizer fails halfway, and all that was asked on the way. -/
def soloed : List (Exchange Nat) × Run Nat :=
  (Run.ofStep soloist (some [5])).drive (recording unoptimized) 20 []

theorem step_atomic_unoptimized : ∃ fault, soloed.2.turn = .over (.error fault) ∧
    RolledBack (fun place value => value + place + 1) (⟨70, fun _ => none⟩ : Parameters Nat)
      soloed.1 9 := by
  have built : solo.build = .ok soloPlan := rfl
  have serves : soloist.Serves soloPlan := ⟨rfl, rfl⟩
  have dialogue : Dialogue (.ofStep soloist (some [5])) soloed.1 soloed.2 :=
    Dialogue.start.drive unoptimized 20
  obtain ⟨fault, ended⟩ : ∃ fault, soloed.2.turn = .over (.error fault) := ⟨_, rfl⟩
  have shown : soloed.1 = [⟨.snapshot, .ok 9⟩, ⟨.dropStale 8, ()⟩,
      ⟨.forward ⟨0, 0⟩ 0 (some 5), .ok 1⟩, ⟨.backward ⟨0, 0⟩ 0 none, .ok 2⟩,
      ⟨.optimize, .error "overflow"⟩, ⟨.restore 9, .ok ()⟩, ⟨.discard, .ok ()⟩] := rfl
  refine ⟨fault, ended, ?_⟩
  refine (step_atomic (by decide) built serves rfl dialogue ended _ _).2.1 fault 9 rfl ?_ ?_
  · rw [shown]
    exact List.mem_cons_self
  · intro handle source member
    rw [shown] at member
    simp only [List.mem_cons, List.not_mem_nil, or_false] at member
    rcases member with same | same | same | same | same | same | same <;> cases same

end Run
end PipelineTraining
