import Mathlib.Algebra.BigOperators.Group.Finset.Piecewise
import Mathlib.Algebra.Order.BigOperators.Group.Finset
import PipelineTraining.Proofs.Cluster.CommonOutcome

/-!
Nobody waits for ever. Of all members that wait one is in the earliest attempt, and what it
waits for has been sent by whoever is not behind it. So every step can be taken to its end.
-/

namespace PipelineTraining

open Course

variable {α : Type}

variable {plan : Plan} {course : List (Nat × Operation)} {roster : Roster α plan}
  {log : List (Event α)} {scene : Scene α} {who : Nat}

inductive Missing (roster : Roster α plan) (scene : Scene α) (who attempt : Nat) : Operation → Prop
  | payload {peer : Nat} {transfer : Transfer} {tag : Tag} {mesh : Mesh α}
      (tags : transfer.tag plan.microbatches (attemptEpoch roster.iteration attempt) = .ok tag)
      (missing : (scene.meshes (roster.replica who)).receive (roster.rank who) peer tag =
        .ok (none, mesh)) : Missing roster scene who attempt (.receive peer transfer)
  | entry {gather : Gather} {peer : Nat} {board : Mesh StageFingerprint}
      (going : (scene.runs who).phase.call = .going gather) (asks : gather.move = .collect peer)
      (epoch : gather.epoch = attemptEpoch roster.iteration attempt)
      (missing : scene.board.receive who peer gather.tag = .ok (none, board)) :
      Missing roster scene who attempt .validationSync

structure Waiting (course : List (Nat × Operation)) (roster : Roster α plan) (scene : Scene α)
    (who attempt : Nat) (operation : Operation) : Prop where
  few : attempt ≤ 1
  shown : ∃ trial, (scene.runs who).phase.trial? = some trial ∧ trial.retry = attempt
  front : ∃ after, partOf (roster.rank who) course =
    (scene.runs who).done attempt ++ operation :: after
  missing : Missing roster scene who attempt operation

namespace Waiting

variable {attempt : Nat} {operation : Operation}

theorem tries (waiting : Waiting course roster scene who attempt operation) :
    (scene.runs who).phase.tries = attempt + 1 := by
  obtain ⟨trial, shown, rfl⟩ := waiting.shown
  exact Phase.tries_of_trial shown

/-- A member that waits has rejected all attempts before the one that it waits in. -/
theorem rejected (waiting : Waiting course roster scene who attempt operation) {earlier : Nat}
    (before : earlier < attempt) : (scene.runs who).phase.verdicts[earlier]? = some false := by
  obtain ⟨trial, shown, rfl⟩ := waiting.shown
  rw [Phase.verdicts_of_trial shown, List.getElem?_append_left (by simpa using before)]
  exact List.getElem?_replicate_of_lt before

theorem undone (scored : Scored plan course)
    (waiting : Waiting course roster scene who attempt operation) :
    operation ∉ (scene.runs who).done attempt := by
  obtain ⟨after, split⟩ := waiting.front
  have noDup := (scored.playable (roster.rank who)).noDup
  rw [split, List.nodup_append] at noDup
  exact fun early => noDup.2.2 _ early _ List.mem_cons_self rfl

section
variable {peer : Nat} {tag : Tag}

theorem of_receive {mesh : Mesh α} {resume : (Request.receive (α := α) peer tag).Answer → Run α}
    (attuned : Attuned course roster log scene) (inside : who < roster.size)
    (turn : (scene.runs who).turn = .ask (.receive peer tag) resume)
    (missing : (scene.meshes (roster.replica who)).receive (roster.rank who) peer tag =
      .ok (none, mesh)) :
    ∃ attempt operation, Waiting course roster scene who attempt operation := by
  have plays := attuned.plays who inside
  obtain ⟨part, conduct⟩ := plays.vetted.conduct
  obtain ⟨-, -, iteration⟩ := plays.kin inside
  obtain ⟨transfer, labelling⟩ := conduct.receives (.ask turn (.error (.disconnected peer)))
  obtain ⟨trial, shown, -⟩ := Option.bind_eq_some_iff.mp labelling.hand
  obtain ⟨held, tags⟩ := labelling.tagged conduct.fitted.planned shown
  obtain ⟨few, front⟩ := plays.vetted.front shown held
  rw [conduct.fitted.planned, iteration] at tags
  exact ⟨_, _, few, ⟨trial, shown, rfl⟩, front, .payload tags missing⟩

theorem of_collect {board : Mesh StageFingerprint}
    {resume : (Request.collect (α := α) peer tag).Answer → Run α}
    (attuned : Attuned course roster log scene) (inside : who < roster.size)
    (turn : (scene.runs who).turn = .ask (.collect peer tag) resume)
    (missing : scene.board.receive who peer tag = .ok (none, board)) :
    ∃ attempt operation, Waiting course roster scene who attempt operation := by
  have plays := attuned.plays who inside
  obtain ⟨-, -, iteration⟩ := plays.kin inside
  obtain ⟨gather, going, asks, rfl⟩ := Run.call_of_collect turn
  obtain ⟨trial, shown, held, -, epoch⟩ :=
    plays.vetted.asking ⟨gather.own, Or.inr ⟨gather, going, rfl⟩⟩
  obtain ⟨few, front⟩ := plays.vetted.front shown held
  rw [iteration] at epoch
  exact ⟨_, _, few, ⟨trial, shown, rfl⟩, front, .entry going asks epoch missing⟩

end
end Waiting

namespace Concert

variable {request : Request α} {resume : request.Answer → Run α} {next : Run α}

theorem answered (concert : Concert roster log scene) (inside : who < roster.size) {run : Run α}
    (here : scene.runs who = run) (turn : run.turn = .ask request resume) (answer : request.Answer)
    (sane : Exchange.falters ⟨request, answer⟩ = false)
    (carries : ∃ mesh, (scene.meshes (roster.replica who)).Answers (roster.rank who)
      (Exchange.carried? ⟨request, answer⟩) mesh)
    (posts : ∃ board, scene.board.Answers who (Exchange.posted? ⟨request, answer⟩) board) :
    ∃ event after, Concert roster (log ++ [event]) after ∧ after.runs who = resume answer := by
  obtain ⟨mesh, carries⟩ := carries
  obtain ⟨board, posts⟩ := posts
  subst here
  refine ⟨_, _, concert.stride inside (.ask turn answer) ?_ carries posts, Function.update_self ..⟩
  rintro made ⟨⟩
  exact sane

theorem went (concert : Concert roster log scene) (inside : who < roster.size) {run : Run α}
    (here : scene.runs who = run) (turn : run.turn = .own next) :
    ∃ event after, Concert roster (log ++ [event]) after ∧ after.runs who = next := by
  subst here
  exact ⟨_, _, concert.stride inside (.own turn) nofun .none .none, Function.update_self ..⟩

/-- A member that is at work can go on unless it waits. -/
theorem onward_or_waiting [Nonempty α]
    (concert : Concert roster log scene) (attuned : Attuned course roster log scene)
    (inside : who < roster.size) (working : (scene.runs who).outcome? = none) :
    (∃ event next, Concert roster (log ++ [event]) next) ∨
      ∃ attempt operation, Waiting course roster scene who attempt operation := by
  cases turn : (scene.runs who).turn with
  | «over» result =>
      rw [Run.outcome?_eq_some.mpr (Run.phase_of_over turn)] at working
      cases working
  | own next =>
      obtain ⟨event, after, onward, -⟩ := concert.went inside rfl turn
      exact Or.inl ⟨event, after, onward⟩
  | ask request resume =>
      have goes := fun answer sane carries posts =>
        (concert.answered inside rfl turn answer sane carries posts).imp fun _ more =>
          more.imp fun _ onward => onward.1
      cases request with
      | forward | backward =>
          obtain ⟨value⟩ := ‹Nonempty α›
          exact Or.inl (goes (.ok value) rfl ⟨_, .none⟩ ⟨_, .none⟩)
      | backwardWeights | restore | discard =>
          exact Or.inl (goes (.ok ()) rfl ⟨_, .none⟩ ⟨_, .none⟩)
      | optimize => exact Or.inl (goes (.ok (.make 0 0)) rfl ⟨_, .none⟩ ⟨_, .none⟩)
      | snapshot => exact Or.inl (goes (.ok 0) rfl ⟨_, .none⟩ ⟨_, .none⟩)
      | gather => exact Or.inl (goes (.ok []) rfl ⟨_, .none⟩ ⟨_, .none⟩)
      | dropStale => exact Or.inl (goes () rfl ⟨_, .drop⟩ ⟨_, .none⟩)
      | dropPublished => exact Or.inl (goes () rfl ⟨_, .none⟩ ⟨_, .drop⟩)
      | send peer tag payload =>
          cases sends :
            (scene.meshes (roster.replica who)).send (roster.rank who) peer tag payload with
          | ok mesh => exact Or.inl (goes (.ok ()) rfl ⟨_, .sent sends⟩ ⟨_, .none⟩)
          | error fault => exact Or.inl (goes (.error fault) rfl ⟨_, .refused sends⟩ ⟨_, .none⟩)
      | publish peer tag entry =>
          cases sends : scene.board.send who peer tag entry with
          | ok board => exact Or.inl (goes (.ok ()) rfl ⟨_, .none⟩ ⟨_, .sent sends⟩)
          | error fault => exact Or.inl (goes (.error fault) rfl ⟨_, .none⟩ ⟨_, .refused sends⟩)
      | receive peer tag =>
          cases looks : (scene.meshes (roster.replica who)).receive (roster.rank who) peer tag with
          | error fault => exact Or.inl (goes (.error fault) rfl ⟨_, .strayed looks⟩ ⟨_, .none⟩)
          | ok found =>
              obtain ⟨_ | payload, mesh⟩ := found
              · exact Or.inr (Waiting.of_receive attuned inside turn looks)
              · exact Or.inl (goes (.ok payload) rfl ⟨_, .received looks⟩ ⟨_, .none⟩)
      | collect peer tag =>
          cases looks : scene.board.receive who peer tag with
          | error fault => exact Or.inl (goes (.error fault) rfl ⟨_, .none⟩ ⟨_, .strayed looks⟩)
          | ok found =>
              obtain ⟨_ | entry, board⟩ := found
              · exact Or.inr (Waiting.of_collect attuned inside turn looks)
              · exact Or.inl (goes (.ok entry) rfl ⟨_, .none⟩ ⟨_, .received looks⟩)

end Concert

structure Through (course : List (Nat × Operation)) (roster : Roster α plan) (scene : Scene α)
    (who attempt : Nat) : Prop where
  done : (scene.runs who).done attempt = partOf (roster.rank who) course
  heard : attempt < (scene.runs who).phase.verdicts.length

namespace Attuned

variable {attempt other : Nat} {operation : Operation}

/-- Where one member waits, the others have been, unless they wait there too. -/
theorem through_or_waiting (scored : Scored plan course)
    (attuned : Attuned course roster log scene) (inside : who < roster.size)
    (waiting : Waiting course roster scene who attempt operation)
    (otherInside : other < roster.size)
    (stuck : (scene.runs other).outcome? = none →
      ∃ place, attempt ≤ place ∧ ∃ operation, Waiting course roster scene other place operation) :
    Through course roster scene other attempt ∨
      ∃ operation, Waiting course roster scene other attempt operation := by
  obtain ⟨events, council⟩ := attuned.council
  obtain ⟨part, conduct⟩ := (attuned.plays other otherInside).vetted.conduct
  have scripted : (scene.runs other).worker.operations = partOf (roster.rank other) course :=
    conduct.fitted.scripted
  cases outcome : (scene.runs other).outcome? with
  | none =>
      obtain ⟨place, later, operation, waits⟩ := stuck outcome
      rcases Nat.eq_or_lt_of_le later with rfl | later
      · exact Or.inr ⟨operation, waits⟩
      · refine Or.inl ⟨?_, ?_⟩
        · rw [Run.done_before (by rw [waits.tries]; omega), scripted]
        · obtain ⟨inside, -⟩ := List.getElem?_eq_some_iff.mp (waits.rejected later)
          exact inside
  | some result =>
      have ended := Run.outcome?_eq_some.mp outcome
      obtain ⟨verdicts, length⟩ := attuned.heard scored otherInside ended
      have heard : attempt < (scene.runs other).phase.verdicts.length := by
        cases result with
        | error fault =>
            rw [verdicts]
            exact Nat.lt_succ_of_le waiting.few
        | ok report =>
            -- Whoever waits has rejected all that was before, so nobody has committed there.
            refine Nat.lt_of_not_le fun past => ?_
            have last : (Finale.of (.ok report : Except Fault (StepReport α))).verdicts.length =
                report.attempts - 1 + 1 := by simp [Finale.of, Finale.verdicts]
            rw [verdicts, last] at past
            have accepted :
                (scene.runs other).phase.verdicts[report.attempts - 1]? = some true := by
              rw [verdicts]
              simp [Finale.of, Finale.verdicts]
            cases council.agree roster.exact roster.distinct inside otherInside
              (waiting.rejected past) accepted
      refine Or.inl ⟨?_, heard⟩
      rw [Run.done_over (by rw [ended]; rfl) (length ▸ heard), scripted]

section
variable (others : ∀ other < roster.size, Through course roster scene other attempt ∨
  ∃ operation, Waiting course roster scene other attempt operation)

include others

/-- Of the ranks that wait in front of a transfer, one has what it waits for. -/
theorem all_at_sync {blueprint : Blueprint} (built : blueprint.build = .ok plan)
    (scored : Scored plan course) (attuned : Attuned course roster log scene)
    (inside : who < roster.size)
    (waiting : Waiting course roster scene who attempt operation) :
    operation = .validationSync := by
  by_contra plain
  obtain ⟨within, home⟩ := roster.placed who inside
  have freight := attuned.freight _ within
  have listed : operation ∈ partOf (roster.rank who) course := by
    obtain ⟨after, split⟩ := waiting.front
    rw [split]
    simp
  have undone : operation ∉
      (scene.runs (roster.member (roster.replica who) (roster.rank who))).done attempt := by
    rw [Roster.rank, home]
    exact waiting.undone scored
  obtain ⟨rank, rank_lt, first, rest, front, unsynced, sent⟩ :=
    freight.front scored (fun rank => Roster.sealed built scored inside) listed plain undone
  obtain ⟨memberInside, team, placed⟩ := roster.member_lt scored within rank_lt
  rcases others _ memberInside with through | ⟨operation, waits⟩
  · have done := through.done
    rw [placed] at done
    rw [done] at front
    simp at front
  · obtain ⟨behind, same⟩ := waits.front
    rw [placed, front] at same
    obtain ⟨rfl, -⟩ := List.cons.inj (List.append_cancel_left same)
    have left := waits.undone scored
    cases waits.missing with
    | entry => exact unsynced rfl
    | @payload peer transfer tag mesh tags missing =>
        have listed : .receive peer transfer ∈ partOf rank course := by rw [front]; simp
        have peerInside := scored.inside_of_part (scored.send_of_receive listed)
        obtain ⟨_, _, found⟩ := freight.found rank_lt peerInside waits.few
          (sent peer transfer rfl) left tags
        rw [team, placed, found] at missing
        cases missing

theorem not_at_sync (attuned : Attuned course roster log scene)
    (waiting : Waiting course roster scene who attempt .validationSync)
    (synced : ∀ other < roster.size, ∀ operation,
      Waiting course roster scene other attempt operation → operation = .validationSync) :
    False := by
  obtain ⟨events, council⟩ := attuned.council
  cases waiting.missing with
  | @entry gather peer board going asks epoch missing =>
      have peerInside := (council.past.sound.underway going).2.collect_lt asks
      have ready : attempt < (scene.runs peer).phase.verdicts.length ∨ ∃ other,
          (scene.runs peer).phase.call = .going other ∧ other.epoch = gather.epoch ∧
            other.unsent = [] := by
        rcases others peer peerInside with through | ⟨operation, waits⟩
        · exact Or.inl through.heard
        · obtain rfl := synced peer peerInside operation waits
          cases waits.missing with
          | entry goingToo asksToo same =>
              exact Or.inr ⟨_, goingToo, same.trans epoch.symm,
                (Gather.missing_of_collect asksToo).1⟩
      obtain ⟨_, _, found⟩ := council.found going asks epoch ready
      rw [found] at missing
      cases missing

end

end Attuned

/-- As long as a member is at work, some member can go on. -/
theorem Concert.onward [Nonempty α] {blueprint : Blueprint} (built : blueprint.build = .ok plan)
    (scored : Scored plan course) (concert : Concert roster log scene)
    (attuned : Attuned course roster log scene) (inside : who < roster.size)
    (working : (scene.runs who).outcome? = none) :
    ∃ event next, Concert roster (log ++ [event]) next := by
  by_contra stuck
  have waits : ∀ other < roster.size, (scene.runs other).outcome? = none →
      ∃ attempt operation, Waiting course roster scene other attempt operation :=
    fun other otherInside working =>
      (concert.onward_or_waiting attuned otherInside working).resolve_left stuck
  -- Of all members that wait, look at one in the earliest attempt.
  have present : ∃ attempt, ∃ other < roster.size, ∃ operation,
      Waiting course roster scene other attempt operation := by
    obtain ⟨attempt, operation, waiting⟩ := waits who inside working
    exact ⟨attempt, who, inside, operation, waiting⟩
  classical
  obtain ⟨first, firstInside, operation, waiting⟩ := Nat.find_spec present
  have others : ∀ other < roster.size, Through course roster scene other (Nat.find present) ∨
      ∃ operation, Waiting course roster scene other (Nat.find present) operation := by
    intro other otherInside
    refine attuned.through_or_waiting scored firstInside waiting otherInside fun working => ?_
    obtain ⟨place, operation, waits⟩ := waits other otherInside working
    exact ⟨place, Nat.find_min' present ⟨other, otherInside, operation, waits⟩, operation, waits⟩
  have synced : ∀ other < roster.size, ∀ operation,
      Waiting course roster scene other (Nat.find present) operation →
        operation = .validationSync := fun other otherInside operation waits =>
    attuned.all_at_sync others built scored otherInside waits
  obtain rfl := synced first firstInside operation waiting
  exact attuned.not_at_sync others waiting synced

theorem Concert.length_eq (concert : Concert roster log scene) :
    log.length = ∑ who ∈ Finset.range roster.size, turnsBy who log := by
  induction concert with
  | start => exact (Finset.sum_const_zero).symm
  | stride past inside stride sane carries posts ih =>
      simp only [turnsBy_snoc, Finset.sum_add_distrib, List.length_append, List.length_singleton]
      rw [← ih, Finset.sum_ite_eq, if_pos (Finset.mem_range.mpr inside)]
  | look past inside turn missing ih => exact ih
  | peek past inside turn missing ih => exact ih

/-- However far a step has come, it can be taken to its end. -/
theorem Concert.completes [Nonempty α] {blueprint : Blueprint} (built : blueprint.build = .ok plan)
    (scored : Scored plan course) (tagged : plan.layout.Tagged plan.microbatches)
    (suited : ∀ who < roster.size, Suited plan (roster.inputs who))
    (concert : Concert roster log scene) : ∃ later final, Concert roster (log ++ later) final ∧
      ∀ who < roster.size, ∃ result, (final.runs who).outcome? = some result := by
  -- The turns that are left get fewer with every turn.
  generalize left :
    ∑ who ∈ Finset.range roster.size, (roster.run who).turnBound - log.length = turns
  induction turns using Nat.strong_induction_on generalizing log scene with
  | _ turns ih =>
    by_cases all : ∀ who < roster.size, ∃ result, (scene.runs who).outcome? = some result
    · exact ⟨[], scene, by rwa [List.append_nil], all⟩
    · push Not at all
      obtain ⟨who, inside, working⟩ := all
      have attuned := concert.attuned built scored tagged suited
      obtain ⟨event, next, onward⟩ := concert.onward built scored attuned inside
        (Option.eq_none_iff_forall_ne_some.mpr working)
      have bounded : (log ++ [event]).length ≤
          ∑ who ∈ Finset.range roster.size, (roster.run who).turnBound := by
        rw [onward.length_eq]
        refine Finset.sum_le_sum fun other member => ?_
        have plays := (onward.attuned built scored tagged suited).plays other
          (Finset.mem_range.mp member)
        exact (Nat.le_add_right _ _).trans plays.spent
      rw [List.length_append, List.length_singleton] at bounded
      obtain ⟨later, final, concert, all⟩ := ih _ (by
        rw [← left, List.length_append, List.length_singleton]
        omega) onward rfl
      exact ⟨event :: later, final, by rwa [List.append_cons], all⟩

end PipelineTraining
