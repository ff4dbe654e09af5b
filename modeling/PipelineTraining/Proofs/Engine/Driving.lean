import PipelineTraining.Cluster.Callbacks
import PipelineTraining.Proofs.Engine.Thoroughness

/-!
Driving a run. The answers determine its turns; as every turn brings an attempt nearer to
its end, enough turns bring it there, and an unguarded run stays where its attempt ends.
-/

namespace PipelineTraining

variable {σ α : Type} {answer : σ → (request : Request α) → σ × request.Answer} {own : σ}
  {turns : List (Run α × Option (Exchange α))} {run next first : Run α} {trial onward : Trial α}
  {exchange : Option (Exchange α)}

namespace Run

def history (answer : σ → (request : Request α) → σ × request.Answer) :
    Nat → σ → Run α → List (Run α × Option (Exchange α))
  | 0, _, _ => []
  | turns + 1, own, run =>
      match run.turn with
      | .over _ => []
      | .own next => (run, none) :: history answer turns own next
      | .ask request resume =>
          let (own, reply) := answer own request
          (run, some ⟨request, reply⟩) :: history answer turns own (resume reply)

variable {result : Except Fault (StepReport α)}

theorem turn_of_ended (ended : run.phase = .ended result) : run.turn = .over result := by
  simp only [turn, ended]

theorem history_of_ended (ended : run.phase = .ended result) (turns : Nat) :
    run.history answer turns own = [] := by
  cases turns with
  | zero => rfl
  | succ turns => simp only [history, turn_of_ended ended]

theorem drive_of_ended (ended : run.phase = .ended result) (turns : Nat) :
    run.drive answer turns own = (own, run) := by
  cases turns with
  | zero => rfl
  | succ turns => simp only [drive, turn_of_ended ended]

end Run

def Exchange.From (answer : σ → (request : Request α) → σ × request.Answer)
    (made : Exchange α) : Prop :=
  ∃ own, made.answer = (answer own made.request).2

structure Played (answer : σ → (request : Request α) → σ × request.Answer) (first : Run α)
    (turns : List (Run α × Option (Exchange α))) (last : Run α) (trial : Trial α)
    (exchange : Option (Exchange α)) (next : Run α) : Prop where
  drain : Drain first turns last
  shown : last.phase.trial? = some trial
  stride : Stride last exchange next
  ended : next.phase.trial? = none
  answered : ∀ turn ∈ turns ++ [(last, exchange)], ∀ made ∈ turn.2, made.From answer

namespace Drain

/-- Driven for long enough, an attempt makes its last turn. -/
theorem played (own : σ) (drain : Drain first turns run) (shown : run.phase.trial? = some trial)
    (answered : ∀ turn ∈ turns, ∀ made ∈ turn.2, made.From answer) {fuel : Nat}
    (enough : run.turnsAhead ≤ fuel) : ∃ more last trial exchange next left own',
      Played answer first (turns ++ more) last trial exchange next ∧
      run.history answer fuel own = more ++ (last, exchange) :: next.history answer left own' ∧
      run.drive answer fuel own = next.drive answer left own' := by
  induction fuel generalizing turns run trial own with
  | zero =>
      rw [Run.turnsAhead, shown] at enough
      exact absurd enough (Nat.not_succ_le_zero _)
  | succ fuel ih =>
      -- Whatever the turn is, it is the last one or a turn nearer to the last.
      have goes : ∀ exchange next own', Stride run exchange next →
          (∀ made ∈ exchange, made.From answer) →
          run.history answer (fuel + 1) own =
            (run, exchange) :: next.history answer fuel own' →
          run.drive answer (fuel + 1) own = next.drive answer fuel own' →
          ∃ more last trial exchange next left own',
            Played answer first (turns ++ more) last trial exchange next ∧
            run.history answer (fuel + 1) own =
              more ++ (last, exchange) :: next.history answer left own' ∧
            run.drive answer (fuel + 1) own = next.drive answer left own' := by
        intro exchange next own' stride replied told driven
        have all : ∀ turn ∈ turns ++ [(run, exchange)], ∀ made ∈ turn.2, made.From answer := by
          intro turn member
          rcases List.mem_append.mp member with old | new
          · exact answered turn old
          · obtain rfl := List.mem_singleton.mp new
            exact replied
        cases known : next.phase.trial? with
        | none =>
            refine ⟨[], run, trial, exchange, next, fuel, own', ?_, told, driven⟩
            rw [List.append_nil]
            exact ⟨drain, shown, stride, known, all⟩
        | some onward =>
            have nearer := stride.nearer shown known
            obtain ⟨more, last, held, given, after, left, state, played, listed, reached⟩ :=
              ih own' (drain.turn shown stride) known all (by omega)
            refine ⟨(run, exchange) :: more, last, held, given, after, left, state, ?_, ?_, ?_⟩
            · rwa [List.append_assoc, List.singleton_append] at played
            · rw [told, listed, List.cons_append]
            · rw [driven, reached]
      cases turn : run.turn with
      | «over» result =>
          obtain ⟨exchange, next, stride⟩ := Stride.exists shown
          cases stride with
          | own same | ask same => rw [turn] at same; cases same
      | own next =>
          refine goes none next own (.own turn) (fun _ made => by cases made) ?_ ?_
          · simp only [Run.history, turn]
          · simp only [Run.drive, turn]
      | ask request resume =>
          refine goes (some ⟨request, (answer own request).2⟩) _ (answer own request).1
            (.ask turn _) ?_ ?_ ?_
          · rintro made ⟨⟩
            exact ⟨own, rfl⟩
          · simp only [Run.history, turn]
          · simp only [Run.drive, turn]

theorem unguarded {begun : Run α} (drain : Drain (begun.cleared none) turns run)
    (shown : run.phase.trial? = some trial) : trial.guard = none := by
  induction drain generalizing trial with
  | start =>
      obtain rfl := Option.some.inj shown
      rfl
  | turn past before stride ih => exact ((Run.tried before stride).guard shown).trans (ih before)

theorem front {before after : List (Run α × Option (Exchange α))}
    (drain : Drain first turns run) (split : turns = before ++ after) :
    ∃ middle, Drain first before middle := by
  induction drain generalizing after with
  | start =>
      obtain ⟨rfl, _⟩ := List.append_eq_nil_iff.mp split.symm
      exact ⟨first, .start⟩
  | @turn turns run next trial exchange past shown stride ih =>
      rcases List.eq_nil_or_concat after with rfl | ⟨rest, last, rfl⟩
      · rw [List.append_nil] at split
        exact ⟨next, split ▸ past.turn shown stride⟩
      · rw [List.concat_eq_append, ← List.append_assoc] at split
        exact ih (List.append_inj' split rfl).1

end Drain

namespace Run

variable {worker : Worker} {inputs : Option (List α)} {plan : Plan} {rank : Nat}
  {operations : List Operation}

variable (answer) in
/-- An iteration by itself ends with its one attempt. -/
theorem played_ofIteration (fitted : Fitted plan rank operations worker)
    (suited : Suited plan inputs) (once : operations.count .validationSync ≤ 1) (own : σ) :
    let run := ofIteration worker inputs
    ∃ turns last trial exchange next left own',
      Played answer (run.cleared none) turns last trial exchange next ∧
      run.history answer run.turnBound own =
        (run, some ⟨.dropStale (run.epoch none), ()⟩) ::
          (turns ++ (last, exchange) :: next.history answer left own') ∧
      run.drive answer run.turnBound own = next.drive answer left own' := by
  intro run
  have attempted : Attempted worker inputs (ofIteration worker inputs) none := .alone
  obtain ⟨here, phase⟩ := attempted.due fitted suited
  have asks : run.turn =
      .ask (.dropStale (run.epoch none)) (fun _ => run.cleared none) := by
    simp only [Run.turn, phase, run]
  obtain ⟨fuel, bound⟩ : ∃ fuel, run.turnBound = fuel + 1 := ⟨run.turnBound - 1, by
    rw [turnBound]
    omega⟩
  have enough : (run.cleared none).turnsAhead ≤ fuel := by
    have span := run.turnsAhead_cleared none (by rwa [here.scripted])
    have wide : run.attemptBound < run.turnBound := by
      rw [attemptBound, turnBound]
      omega
    omega
  obtain ⟨more, last, trial, exchange, next, left, state, played, listed, reached⟩ :=
    Drain.start.played (answer own (.dropStale (run.epoch none))).1
      (show (run.cleared none).phase.trial? = some ⟨none, _, none⟩ from rfl)
      (fun _ member => by cases member) enough
  refine ⟨more, last, trial, exchange, next, left, state, played, ?_, ?_⟩
  · rw [bound, history, asks]
    exact congrArg _ listed
  · rw [bound, drive, asks]
    exact reached

end Run
end PipelineTraining
