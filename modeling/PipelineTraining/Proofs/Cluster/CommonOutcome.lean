import PipelineTraining.Proofs.Cluster.GuardedMoves

/-!
How a guarded step ends. Members that are over have committed after the same number of
attempts or have diverged, all of them together.
-/

namespace PipelineTraining

variable {α π : Type}

inductive Finale where
  | committed (attempts : Nat)
  | diverged

namespace Finale

def of : Except Fault (StepReport α) → Finale
  | .ok report => .committed report.attempts
  | .error _ => .diverged

def verdicts : Finale → List Bool
  | .committed attempts => List.replicate (attempts - 1) false ++ [true]
  | .diverged => [false, false]

/-- A member ends so, after as many attempts as all of them, with its parameters updated once or
back at its snapshot. -/
inductive Ends (change : Nat → π → π) (parameters : Parameters π) (calls : List (Exchange α)) :
    Finale → Except Fault (StepReport α) → Prop
  | commit {attempts : Nat} {report : StepReport α} (few : attempts = 1 ∨ attempts = 2)
      (reported : report.attempts = attempts) (made : calls.countP Exchange.opens = attempts)
      (committed : Committed change parameters calls report) :
      Ends change parameters calls (.committed attempts) (.ok report)
  | diverge {own other : Fingerprint} {handle : Nat} (made : calls.countP Exchange.opens = 2)
      (rolledBack : RolledBack change parameters calls handle) :
      Ends change parameters calls .diverged (.error (.divergence own other 1))

variable {finale another : Finale} {change : Nat → π → π} {parameters : Parameters π}
  {calls : List (Exchange α)} {result : Except Fault (StepReport α)}

theorem Ends.form (ends : finale.Ends change parameters calls result) :
    finale = .committed 1 ∨ finale = .committed 2 ∨ finale = .diverged := by
  cases ends with
  | commit few =>
      rcases few with rfl | rfl
      · exact Or.inl rfl
      · exact Or.inr (Or.inl rfl)
  | diverge => exact Or.inr (Or.inr rfl)

theorem Ends.of_eq (ends : finale.Ends change parameters calls result) : of result = finale := by
  cases ends with
  | commit few reported => exact congrArg committed reported
  | diverge => rfl

theorem eq_of_agree
    (form : finale = .committed 1 ∨ finale = .committed 2 ∨ finale = .diverged)
    (formToo : another = .committed 1 ∨ another = .committed 2 ∨ another = .diverged)
    (agree : ∀ (attempt : Nat) (verdict other : Bool), finale.verdicts[attempt]? = some verdict →
      another.verdicts[attempt]? = some other → verdict = other) : finale = another := by
  rcases form with rfl | rfl | rfl <;> rcases formToo with rfl | rfl | rfl <;>
    first
    | rfl
    | cases agree 1 _ _ rfl rfl
    | cases agree 0 _ _ rfl rfl

end Finale

variable {plan : Plan} {course : List (Nat × Operation)} {roster : Roster α plan}
  {log : List (Event α)} {scene : Scene α} {who : Nat}

theorem mem_callsBy {made : Exchange α} (member : made ∈ callsBy who log) :
    ∃ event ∈ log, made ∈ event.exchange := by
  obtain ⟨event, listed, same⟩ := List.mem_filterMap.mp member
  split at same
  · exact ⟨event, listed, same⟩
  · cases same

namespace Attuned

theorem ends {result : Except Fault (StepReport α)} (scored : Scored plan course)
    (attuned : Attuned course roster log scene) (inside : who < roster.size)
    (ended : (scene.runs who).phase = .ended result) (change : Nat → π → π)
    (parameters : Parameters π) :
    (Finale.of result).Ends change parameters (callsBy who log) result := by
  have plays := attuned.plays who inside
  have fitted := roster.fitted scored inside
  have stage : Stage change parameters (callsBy who log) (scene.runs who).phase := by
    refine plays.dialogue.stage ?_ ?_ (roster.enabled who inside)
    · rw [fitted.planned]
      exact Layout.places_of_sound scored.sound
    · rw [fitted.scripted]
      exact List.nodup_iff_count_le_one.mp (scored.playable _).noDup _
  have opened := plays.opened
  rw [ended] at stage opened
  cases result with
  | ok report =>
      have committed := stage.committed_of_ended
      exact .commit committed.attempts rfl opened committed
  | error fault =>
      obtain ⟨own, other, rfl⟩ := plays.vetted.diverged fault (by rw [Run.failure?, ended])
      have fine : ∀ made ∈ callsBy who log, made.succeeds = true := by
        intro made member
        obtain ⟨event, listed, known⟩ := mem_callsBy member
        exact attuned.fine event listed made known
      obtain ⟨answer, rest, calls, -, -⟩ := stage.opened ⟨_, rfl⟩
      have taken : ⟨.snapshot, answer⟩ ∈ callsBy who log := calls ▸ List.mem_cons_self
      cases answer with
      | error source => cases fine _ taken
      | ok handle =>
          refine .diverge opened (stage.rolledBack_of_ended taken fun handle source failed => ?_)
          cases fine _ failed

/-- What a member that is over has heard, it has heard on all of its attempts. -/
theorem heard {result : Except Fault (StepReport α)} (scored : Scored plan course)
    (attuned : Attuned course roster log scene) (inside : who < roster.size)
    (ended : (scene.runs who).phase = .ended result) :
    (scene.runs who).phase.verdicts = (Finale.of result).verdicts ∧
      (scene.runs who).phase.verdicts.length = (scene.runs who).phase.tries := by
  have form := (attuned.ends scored inside ended (fun _ value => value) ⟨(), fun _ => none⟩).form
  rw [ended]
  cases result with
  | error fault => exact ⟨rfl, rfl⟩
  | ok report =>
      refine ⟨rfl, ?_⟩
      have some : 0 < report.attempts := by
        rcases form with same | same | same
        · exact (Finale.committed.inj same).symm ▸ Nat.one_pos
        · exact (Finale.committed.inj same).symm ▸ Nat.two_pos
        · cases same
      simpa [Phase.verdicts, Phase.tries] using Nat.sub_add_cancel some

theorem alike (scored : Scored plan course) (attuned : Attuned course roster log scene) :
    ∃ finale : Finale, ∀ who < roster.size, ∀ result,
      (scene.runs who).outcome? = some result → ∀ {π : Type} (change : Nat → π → π)
        (parameters : Parameters π), finale.Ends change parameters (callsBy who log) result := by
  obtain ⟨events, council⟩ := attuned.council
  by_cases someone : ∃ who < roster.size, ∃ result, (scene.runs who).outcome? = some result
  · obtain ⟨one, oneInside, result, ended⟩ := someone
    rw [Run.outcome?_eq_some] at ended
    refine ⟨.of result, fun who inside another endedToo π change parameters => ?_⟩
    rw [Run.outcome?_eq_some] at endedToo
    have ends := attuned.ends scored inside endedToo change parameters
    have form := (attuned.ends scored oneInside ended change parameters).form
    rw [Finale.eq_of_agree form ends.form fun attempt verdict other heard heardToo => ?_]
    · exact ends
    · rw [← (attuned.heard scored oneInside ended).1] at heard
      rw [← (attuned.heard scored inside endedToo).1] at heardToo
      exact council.agree roster.exact roster.distinct oneInside inside heard heardToo
  · exact ⟨.diverged, fun who inside result ended => absurd ⟨who, inside, result, ended⟩ someone⟩

end Attuned

theorem Performed.alike {σ : Type} {cluster : Cluster σ α} {blueprint : Blueprint}
    (built : blueprint.build = .ok plan) (scored : Scored plan course)
    (tagged : plan.layout.Tagged plan.microbatches)
    (suited : ∀ who < roster.size, Suited plan (roster.inputs who))
    (performed : Performed roster [] cluster) :
    ∃ finale : Finale, ∀ (who : Nat) (member : Member σ α) result,
      cluster.members[who]? = some member →
      member.busy? = none → member.result = some result → Finale.of result = finale := by
  obtain ⟨log, scene, concert, stages⟩ := performed
  obtain ⟨finale, alike⟩ := (concert.attuned built scored tagged suited).alike scored
  refine ⟨finale, fun who member result found idle reported => ?_⟩
  obtain ⟨inside, -, acts⟩ := stages.members who member found
  cases acts with
  | busy busy => cases idle.symm.trans busy
  | returned _ ended same =>
      obtain rfl := Option.some.inj (same.symm.trans reported)
      exact (alike who inside _ ended (fun _ value => value)
        (⟨(), fun _ => none⟩ : Parameters Unit)).of_eq

/-- However often the members are swept over, those that have returned have returned alike. -/
theorem Roster.swept_alike {σ : Type} {callbacks : Callbacks σ α} {blueprint : Blueprint}
    (roster : Roster α plan) (built : blueprint.build = .ok plan) (scored : Scored plan course)
    (tagged : plan.layout.Tagged plan.microbatches)
    (suited : ∀ who < roster.size, Suited plan (roster.inputs who)) (sure : callbacks.Sure)
    (own : Nat → σ) (limit : Duration) (turns : Nat) (order : List Nat) :
    ∃ finale : Finale, ∀ (who : Nat) (member : Member σ α) result,
      ((roster.begun own limit).sweep callbacks turns order false).2.members[who]? = some member →
      member.busy? = none → member.result = some result → Finale.of result = finale :=
  ((roster.performed own limit).swept sure turns order false).alike built scored tagged suited

end PipelineTraining
