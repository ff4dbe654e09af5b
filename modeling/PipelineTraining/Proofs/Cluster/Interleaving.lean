import PipelineTraining.Cluster.Basic
import PipelineTraining.Proofs.Engine.NextOperation

/-!
The ranks of one pipeline, each draining its own operations iteration after
iteration with no barrier between them. Any rank may take the next turn; a rank
that is idle begins its next iteration until it has returned from the last one.
-/

namespace PipelineTraining

variable {σ α : Type}

/-- Nothing that the runs ask for fails, and no message is obstructed. -/
structure Callbacks.Reliable (callbacks : Callbacks σ α) : Prop where
  forward : ∀ own stage microbatch input,
    ∃ value, (callbacks.forward own stage microbatch input).2 = .ok value
  backward : ∀ own stage microbatch gradient,
    ∃ value, (callbacks.backward own stage microbatch gradient).2 = .ok value
  backwardWeights : ∀ own stage microbatch,
    (callbacks.backwardWeights own stage microbatch).2 = .ok ()
  optimize : ∀ own, ∃ fingerprint, (callbacks.optimize own).2 = .ok fingerprint
  clear : ∀ own passage peer, (callbacks.obstruct own passage peer).2 = none

namespace Callbacks

def deed? (callbacks : Callbacks σ α) (own : σ) : Request α → Option (Deed α)
  | .forward stage microbatch input =>
      some (.forward stage microbatch input (callbacks.forward own stage microbatch input).2)
  | .backward stage microbatch gradient =>
      some (.backward stage microbatch gradient
        (callbacks.backward own stage microbatch gradient).2)
  | .backwardWeights stage microbatch =>
      some (.backwardWeights stage microbatch (callbacks.backwardWeights own stage microbatch).2)
  | _ => none

end Callbacks

def Run.executed (run : Run α) : Nat :=
  match run.phase with
  | .ended (.ok report) => report.result.executed
  | phase => (phase.attempt?.map Attempt.executed).getD 0

namespace Member

def iteration (member : Member σ α) : Nat :=
  match member.activity with
  | .idle => member.worker.iteration
  | .running run => run.iteration
  | .waiting run => run.iteration

def executed (first : Nat) (member : Member σ α) : Nat :=
  (member.iteration - first) * member.worker.operations.length +
    match member.activity with
    | .idle => 0
    | .running run => run.executed
    | .waiting run => run.executed

def deed? (callbacks : Callbacks σ α) (member : Member σ α) : Option (Deed α) :=
  match member.activity with
  | .running run =>
      match run.turn with
      | .over result => some (.finish result)
      | .own _ => none
      | .ask request _ => callbacks.deed? member.own request
  | _ => none

end Member

def Cluster.executed (first : Nat) (cluster : Cluster σ α) (who : Nat) : Nat :=
  (cluster.members[who]?).elim 0 (Member.executed first)

structure Drill (σ α : Type) where
  plan : Plan
  callbacks : Callbacks σ α
  inputs : Nat → Nat → Option (List α)
  first : Nat
  rounds : Nat

namespace Drill

def goal (drill : Drill σ α) : Nat :=
  drill.first + drill.rounds

/-- A worker for every rank, as made for the plan and about to begin the first iteration. What it
records, where it hands it and how long it would wait is its own. -/
def Crew (drill : Drill σ α) (members : List (Member σ α)) : Prop :=
  members.length = drill.plan.ranks.length ∧
    ∀ who member, members[who]? = some member → ∃ own worker window sink timeout,
      Worker.make drill.plan who drill.plan.ranks.length = .ok worker ∧
      member = {
        replica := 0
        worker := { worker.withProfiling window sink with
          timeout := timeout
          iteration := drill.first }
        own := own
        activity := .idle
        result := none }

def start (drill : Drill σ α) (limit : Duration) (members : List (Member σ α)) : Cluster σ α :=
  .make 1 drill.plan.ranks.length limit members

/-- One turn of one member; none if it has returned from its last iteration or its message has not
come. No wait ever times out. -/
def move? (drill : Drill σ α) (cluster : Cluster σ α) (who : Nat) : Option (Cluster σ α) :=
  match cluster.members[who]? with
  | none => none
  | some member =>
      match member.activity with
      | .idle =>
          if member.worker.iteration < drill.goal then
            some (cluster.begin fun other worker =>
              if other = who then some (.ofIteration worker (drill.inputs who worker.iteration))
              else none)
          else none
      | _ => cluster.move? drill.callbacks who

def sighting? (drill : Drill σ α) (cluster : Cluster σ α) (who : Nat) : Option (Sighting α) :=
  (cluster.members[who]?).bind fun member =>
    (member.deed? drill.callbacks).map fun deed => ⟨who, member.iteration, deed⟩

def follow? (drill : Drill σ α) : Cluster σ α → List Nat → Option (List (Sighting α) × Cluster σ α)
  | cluster, [] => some ([], cluster)
  | cluster, who :: rest =>
      (drill.move? cluster who).bind fun next =>
        (drill.follow? next rest).map fun last =>
          ((drill.sighting? cluster who).toList ++ last.1, last.2)

def assigned (drill : Drill σ α) (who : Nat) : Nat :=
  drill.rounds * (drill.plan.rankPlan? who).elim 0 fun rankPlan => rankPlan.operations.length

variable {drill : Drill σ α} {cluster : Cluster σ α} {who : Nat} {member : Member σ α}
    {run next : Run α}

theorem move?_idle (found : cluster.members[who]? = some member) (idle : member.activity = .idle)
    (ahead : member.worker.iteration < drill.goal) : ∃ begun, drill.move? cluster who = some begun ∧
      begun.members = cluster.members.set who { member with
        activity := .running (.ofIteration member.worker (drill.inputs who member.worker.iteration))
        result := none } ∧ begun.payloads = cluster.payloads := by
  refine ⟨cluster.begin fun other worker =>
    if other = who then some (.ofIteration worker (drill.inputs who worker.iteration)) else none,
    ?_, ?_, rfl⟩
  · simp only [move?, found, idle, if_pos ahead]
  · refine List.ext_getElem? fun other => ?_
    rw [Cluster.begin, List.getElem?_mapIdx, List.getElem?_set]
    by_cases here : who = other
    · subst here
      obtain ⟨inside, rfl⟩ := List.getElem?_eq_some_iff.mp found
      simp [inside]
    · rw [if_neg here]
      cases cluster.members[other]? <;> simp [Ne.symm here]

theorem move?_rest (found : cluster.members[who]? = some member) (idle : member.activity = .idle)
    (past : drill.goal ≤ member.worker.iteration) : drill.move? cluster who = none := by
  simp only [move?, found, idle, if_neg (Nat.not_lt_of_le past)]

theorem move?_own (drill : Drill σ α) (found : cluster.members[who]? = some member)
    (running : member.activity = .running run) (turn : run.turn = .own next) :
    drill.move? cluster who = some (cluster.goOn who member member.own next) := by
  simp only [move?, Cluster.move?, found, running, turn]

theorem move?_ask (drill : Drill σ α) {request : Request α} {resume : request.Answer → Run α}
    (found : cluster.members[who]? = some member) (running : member.activity = .running run)
    (turn : run.turn = .ask request resume) : drill.move? cluster who =
      some (cluster.serve drill.callbacks who member run request resume) := by
  simp only [move?, Cluster.move?, found, running, turn]

theorem move?_over (drill : Drill σ α) {result : Except Fault (StepReport α)}
    (found : cluster.members[who]? = some member) (running : member.activity = .running run)
    (turn : run.turn = .over result) : drill.move? cluster who =
      some (cluster.put who { member with
        worker := run.worker, activity := .idle, result := some result }) := by
  simp only [move?, Cluster.move?, found, running, turn]

theorem move?_poll (drill : Drill σ α) {request : Request α} {resume : request.Answer → Run α}
    (found : cluster.members[who]? = some member) (waiting : member.activity = .waiting run)
    (turn : run.turn = .ask request resume) :
    drill.move? cluster who = cluster.poll? who member request resume := by
  simp only [move?, Cluster.move?, found, waiting, turn]

theorem sighting?_idle (drill : Drill σ α) (found : cluster.members[who]? = some member)
    (idle : member.activity = .idle) : drill.sighting? cluster who = none := by
  simp only [sighting?, found, Option.bind_some, Member.deed?, idle, Option.map_none]

theorem sighting?_waiting (drill : Drill σ α) (found : cluster.members[who]? = some member)
    (waiting : member.activity = .waiting run) : drill.sighting? cluster who = none := by
  simp only [sighting?, found, Option.bind_some, Member.deed?, waiting, Option.map_none]

theorem sighting?_own (drill : Drill σ α) (found : cluster.members[who]? = some member)
    (running : member.activity = .running run) (turn : run.turn = .own next) :
    drill.sighting? cluster who = none := by
  simp only [sighting?, found, Option.bind_some, Member.deed?, running, turn, Option.map_none]

theorem sighting?_ask (drill : Drill σ α) {request : Request α} {resume : request.Answer → Run α}
    (found : cluster.members[who]? = some member) (running : member.activity = .running run)
    (turn : run.turn = .ask request resume) : drill.sighting? cluster who =
      (drill.callbacks.deed? member.own request).map fun deed => ⟨who, run.iteration, deed⟩ := by
  simp only [sighting?, found, Option.bind_some, Member.deed?, Member.iteration, running, turn]

theorem sighting?_over (drill : Drill σ α) {result : Except Fault (StepReport α)}
    (found : cluster.members[who]? = some member) (running : member.activity = .running run)
    (turn : run.turn = .over result) :
    drill.sighting? cluster who = some ⟨who, run.iteration, .finish result⟩ := by
  simp only [sighting?, found, Option.bind_some, Member.deed?, Member.iteration, running, turn,
    Option.map_some]

end Drill
end PipelineTraining
