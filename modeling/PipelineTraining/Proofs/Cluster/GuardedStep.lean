import PipelineTraining.Proofs.Cluster.Session
import PipelineTraining.Proofs.Cluster.SharedVerdict
import PipelineTraining.Proofs.Engine.Atomicity
import PipelineTraining.Proofs.Plan.Acceptance

/-!
The members of all replicas in one guarded step, where no callback fails. Every replica has
a mesh for its payloads, and all members share one for their fingerprints. Nothing is assumed
of the order of their turns or of what passes and optimizers answer.
-/

namespace PipelineTraining

open Course

variable {α : Type}

namespace Exchange

def falters : Exchange α → Bool
  | ⟨.forward .., .error _⟩ => true
  | ⟨.backward .., .error _⟩ => true
  | ⟨.backwardWeights .., .error _⟩ => true
  | ⟨.optimize, .error _⟩ => true
  | ⟨.snapshot, .error _⟩ => true
  | ⟨.restore _, .error _⟩ => true
  | ⟨.discard, .error _⟩ => true
  | ⟨.gather .., .error _⟩ => true
  | _ => false

/-- Where the meshes take every message, only a callback can fail. -/
theorem succeeds_of_sane {made : Exchange α} (sane : made.falters = false)
    (carried : ∀ errand ∈ made.carried?, errand.succeeds = true)
    (posted : ∀ errand ∈ made.posted?, errand.succeeds = true) : made.succeeds = true := by
  obtain ⟨request, answer⟩ := made
  cases request with
  | dropStale | dropPublished => rfl
  | send | receive =>
      cases answer with
      | error => cases carried _ rfl
      | ok => rfl
  | publish | collect =>
      cases answer with
      | error => cases posted _ rfl
      | ok => rfl
  | forward | backward | backwardWeights | optimize | gather | snapshot | restore | discard =>
      cases answer with
      | error => cases sane
      | ok => rfl

end Exchange

structure Roster (α : Type) (plan : Plan) where
  replicas : Nat
  iteration : Nat
  /-- The replica that a member belongs to. -/
  replica : Nat → Nat
  worker : Nat → Worker
  inputs : Nat → Option (List α)
  /-- The member for a rank of a replica. -/
  member : Nat → Nat → Nat
  recruited : ∀ who < replicas * plan.ranks.length,
    Recruit plan iteration (worker who).rank (worker who)
  enabled : ∀ who < replicas * plan.ranks.length, (worker who).validator.isEnabled = true
  meshed : ∀ who < replicas * plan.ranks.length, (worker who).validator.channel = some .mesh
  exact : ∀ who < replicas * plan.ranks.length, (worker who).validator.settings.mode = .exact
  seated : ∀ who < replicas * plan.ranks.length,
    (worker who).seat = ⟨who, replicas * plan.ranks.length⟩
  distinct : ∀ one < replicas * plan.ranks.length, ∀ other < replicas * plan.ranks.length,
    (worker one).validator.stage = (worker other).validator.stage →
    (worker one).validator.replica = (worker other).validator.replica → one = other
  placed : ∀ who < replicas * plan.ranks.length,
    replica who < replicas ∧ member (replica who) (worker who).rank = who
  manned : ∀ team < replicas, ∀ rank < plan.ranks.length,
    member team rank < replicas * plan.ranks.length ∧ replica (member team rank) = team ∧
      (worker (member team rank)).rank = rank

structure Scene (α : Type) where
  runs : Nat → Run α
  meshes : Nat → Mesh α
  board : Mesh StageFingerprint

def callsBy (who : Nat) (log : List (Event α)) : List (Exchange α) :=
  log.filterMap fun event => if event.who = who then event.exchange else none

def turnsBy (who : Nat) (log : List (Event α)) : Nat :=
  log.countP fun event => event.who = who

namespace Roster

variable {plan : Plan}

def size (roster : Roster α plan) : Nat :=
  roster.replicas * plan.ranks.length

def rank (roster : Roster α plan) (who : Nat) : Nat :=
  (roster.worker who).rank

def run (roster : Roster α plan) (who : Nat) : Run α :=
  .ofStep (roster.worker who) (roster.inputs who)

def opening (roster : Roster α plan) : Scene α where
  runs := roster.run
  meshes _ := .make plan.ranks.length
  board := .make roster.size

end Roster

/-- What the members can come to, with all their turns so far. A receive waits until it finds
its message. -/
inductive Concert {plan : Plan} (roster : Roster α plan) : List (Event α) → Scene α → Prop
  | start : Concert roster [] roster.opening
  | stride {log : List (Event α)} {scene : Scene α} {who : Nat} {exchange : Option (Exchange α)}
      {next : Run α} {mesh : Mesh α} {board : Mesh StageFingerprint}
      (past : Concert roster log scene) (inside : who < roster.size)
      (stride : Stride (scene.runs who) exchange next)
      (sane : ∀ made ∈ exchange, made.falters = false)
      (carries : (scene.meshes (roster.replica who)).Answers (roster.rank who)
        (exchange.bind Exchange.carried?) mesh)
      (posts : scene.board.Answers who (exchange.bind Exchange.posted?) board) :
      Concert roster (log ++ [⟨who, scene.runs who, exchange, next⟩])
        { runs := Function.update scene.runs who next
          meshes := Function.update scene.meshes (roster.replica who) mesh
          board := board }
  /-- A member looks for a payload that has not come. -/
  | look {log : List (Event α)} {scene : Scene α} {who peer : Nat} {tag : Tag} {mesh : Mesh α}
      {resume : (Request.receive (α := α) peer tag).Answer → Run α}
      (past : Concert roster log scene) (inside : who < roster.size)
      (turn : (scene.runs who).turn = .ask (.receive peer tag) resume)
      (missing : (scene.meshes (roster.replica who)).receive (roster.rank who) peer tag =
        .ok (none, mesh)) :
      Concert roster log
        { scene with meshes := Function.update scene.meshes (roster.replica who) mesh }
  /-- A member looks for a fingerprint that has not come. -/
  | peek {log : List (Event α)} {scene : Scene α} {who peer : Nat} {tag : Tag}
      {board : Mesh StageFingerprint}
      {resume : (Request.collect (α := α) peer tag).Answer → Run α}
      (past : Concert roster log scene) (inside : who < roster.size)
      (turn : (scene.runs who).turn = .ask (.collect peer tag) resume)
      (missing : scene.board.receive who peer tag = .ok (none, board)) :
      Concert roster log { scene with board := board }

variable {plan : Plan} {course : List (Nat × Operation)} {roster : Roster α plan}
  {log : List (Event α)} {scene : Scene α} {who other : Nat} {event : Event α}

theorem Run.outcome?_eq_some {run : Run α} {result : Except Fault (StepReport α)} :
    run.outcome? = some result ↔ run.phase = .ended result := by
  unfold outcome?
  cases run.phase <;> simp

theorem callsBy_snoc (log : List (Event α)) (event : Event α) :
    callsBy who (log ++ [event]) =
      callsBy who log ++ if event.who = who then event.exchange.toList else [] := by
  rw [callsBy, List.filterMap_append]
  by_cases here : event.who = who
  · cases exchange : event.exchange <;> simp [callsBy, here, exchange]
  · simp [callsBy, here]

theorem turnsBy_snoc (log : List (Event α)) (event : Event α) :
    turnsBy who (log ++ [event]) = turnsBy who log + if event.who = who then 1 else 0 := by
  simp [turnsBy, List.countP_append, List.countP_singleton]

theorem Recruit.inside {first : Nat} {worker : Worker} (scored : Scored plan course)
    (recruit : Recruit plan first who worker) : who < plan.layout.depth := by
  obtain ⟨made, _, _, _, _, _, _, makes, _, _⟩ := recruit
  have placed := (Worker.equipped_of_make scored makes).placed
  obtain ⟨rankPlan, found, -⟩ := Option.map_eq_some_iff.mp (Worker.serves_of_make makes).scripted
  rw [← scored.ranks, ← placed]
  exact (List.getElem?_eq_some_iff.mp found).1

theorem Recruit.validates {first : Nat} {worker : Worker}
    (recruit : Recruit plan first who worker) (enabled : worker.validator.isEnabled = true) :
    plan.validates = true := by
  obtain ⟨made, validated, validator, seat, _, _, _, makes, validates, rfl⟩ := recruit
  have planned := (Worker.serves_of_make makes).planned
  unfold Worker.withValidator at validates
  split at validates
  · cases validates
  · next suits =>
    obtain rfl := Except.ok.inj validates
    have enabled : validator.isEnabled = true := enabled
    rw [enabled, planned] at suits
    simpa using suits

namespace Roster

theorem fitted (scored : Scored plan course) (inside : who < roster.size) :
    Fitted plan (roster.rank who) (partOf (roster.rank who) course) (roster.worker who) :=
  (roster.recruited who inside).fitted scored

theorem rank_lt (scored : Scored plan course) (inside : who < roster.size) :
    roster.rank who < plan.layout.depth :=
  (roster.recruited who inside).inside scored

theorem member_lt (scored : Scored plan course) {team rank : Nat} (team_lt : team < roster.replicas)
    (rank_lt : rank < plan.layout.depth) :
    roster.member team rank < roster.size ∧ roster.replica (roster.member team rank) = team ∧
      roster.rank (roster.member team rank) = rank :=
  roster.manned team team_lt rank (scored.ranks ▸ rank_lt)

theorem snapshotting (inside : who < roster.size) : (roster.run who).phase = .snapshotting := by
  have enabled : (roster.worker who).validator.isEnabled = true := roster.enabled who inside
  simp only [run, Run.ofStep, if_pos enabled, Run.become]

theorem sealed {blueprint : Blueprint} (built : blueprint.build = .ok plan)
    (scored : Scored plan course) (inside : who < roster.size) {rank : Nat}
    (rank_lt : rank < plan.layout.depth) :
    ∃ body, partOf rank course = body ++ [.validationSync] := by
  have validates := (roster.recruited who inside).validates (roster.enabled who inside)
  obtain ⟨rankPlan, found⟩ : ∃ rankPlan, plan.rankPlan? rank = some rankPlan :=
    ⟨_, List.getElem?_eq_getElem (scored.ranks ▸ rank_lt)⟩
  obtain ⟨front, closed⟩ := Blueprint.closes_of_build built (List.mem_of_getElem? found)
  rw [validates] at closed
  exact ⟨front ++ [.optimizerStep], by
    rw [← scored.script rank rankPlan found, ← closed, List.append_assoc]
    rfl⟩

theorem once {blueprint : Blueprint} (built : blueprint.build = .ok plan)
    (scored : Scored plan course) (inside : who < roster.size) :
    (partOf (roster.rank who) course).count .validationSync = 1 := by
  obtain ⟨body, closed⟩ := sealed built scored inside (roster.rank_lt scored inside)
  exact List.count_eq_one_of_mem (scored.playable _).noDup (by simp [closed])

end Roster

structure Plays (course : List (Nat × Operation)) (roster : Roster α plan) (log : List (Event α))
    (who : Nat) (run : Run α) : Prop where
  vetted : Vetted plan (roster.rank who) (partOf (roster.rank who) course) run
  dialogue : Dialogue (roster.run who) (callsBy who log) run
  opened : (callsBy who log).countP Exchange.opens = run.phase.tries
  spent : turnsBy who log + run.budget ≤ (roster.run who).turnBound

namespace Plays

variable {run next : Run α} {exchange : Option (Exchange α)}

theorem start (scored : Scored plan course) (inside : who < roster.size)
    (suited : Suited plan (roster.inputs who)) :
    Plays course roster [] who (roster.run who) := by
  have phase := roster.snapshotting inside
  have idle : (roster.run who).phase.trial? = none := by rw [phase]; rfl
  have kin := Kin.ofStep (roster.worker who) (roster.inputs who)
  refine ⟨⟨⟨[], ?_⟩, ?_, ?_, ?_, ?_, ?_, ?_, .of_idle idle⟩, .start, ?_, ?_⟩
  · exact (Conduct.begin [] (roster.fitted scored inside) suited
      (Or.inr rfl)).1
  · exact (congrArg Validator.isEnabled kin.validator).trans (roster.enabled who inside)
  · exact (congrArg Validator.channel kin.validator).trans (roster.meshed who inside)
  · intro trial shown
    cases idle.symm.trans shown
  · intro guard here
    cases phase.symm.trans here
  · intro trial shown
    cases idle.symm.trans shown
  · intro fault failed
    have sane : (roster.run who).failure? = none := by rw [Run.failure?, phase]
    cases sane.symm.trans failed
  · rw [phase]
    rfl
  · have unmoved : turnsBy who ([] : List (Event α)) = 0 := rfl
    rw [unmoved, Nat.zero_add, Run.budget, Run.turnsAhead, phase, Run.attemptBound, Run.turnBound]
    simp only [Phase.begun, Phase.trial?, Phase.rest, Option.elim_none]
    omega

theorem elsewhere (plays : Plays course roster log who run) (different : event.who ≠ who) :
    Plays course roster (log ++ [event]) who run := by
  obtain ⟨vetted, dialogue, opened, spent⟩ := plays
  have calls : callsBy who (log ++ [event]) = callsBy who log := by
    rw [callsBy_snoc, if_neg different, List.append_nil]
  have turns : turnsBy who (log ++ [event]) = turnsBy who log := by
    rw [turnsBy_snoc, if_neg different, Nat.add_zero]
  exact ⟨vetted, calls ▸ dialogue, calls ▸ opened, turns ▸ spent⟩

theorem stride {blueprint : Blueprint} (built : blueprint.build = .ok plan)
    (scored : Scored plan course) (tagged : plan.layout.Tagged plan.microbatches)
    (plays : Plays course roster log who run) (inside : who < roster.size)
    (fine : ∀ made ∈ exchange, made.succeeds = true) (stride : Stride run exchange next) :
    Plays course roster (log ++ [⟨who, run, exchange, next⟩]) who next := by
  obtain ⟨vetted, dialogue, opened, spent⟩ := plays
  have playable := scored.playable (roster.rank who)
  obtain ⟨part, conduct⟩ := vetted.conduct
  have once := roster.once built scored inside
  have calls : callsBy who (log ++ [⟨who, run, exchange, next⟩]) =
      callsBy who log ++ exchange.toList := by rw [callsBy_snoc, if_pos rfl]
  refine ⟨vetted.stride playable scored.sound tagged once fine stride, ?_, ?_, ?_⟩
  · rw [calls]
    exact dialogue.stride stride
  · rw [calls, List.countP_append, opened, vetted.counted playable scored.sound tagged fine stride]
  · have less := stride.budget_lt conduct.orderly (conduct.fitted.planned.symm ▸ conduct.suited)
      (by rw [conduct.fitted.scripted]; exact once.le)
    rw [turnsBy_snoc, if_pos rfl]
    omega

theorem kin (plays : Plays course roster log who run) (inside : who < roster.size) :
    run.worker.validator = (roster.worker who).validator ∧
      run.worker.seat = ⟨who, roster.size⟩ ∧ run.iteration = roster.iteration := by
  have kin := (Kin.ofStep _ _).trans plays.dialogue.kin
  refine ⟨kin.validator, kin.seat.trans (roster.seated who inside), kin.iteration.trans ?_⟩
  obtain ⟨_, _, _, _, _, _, _, _, _, same⟩ := roster.recruited who inside
  rw [same]

theorem done_begins (plays : Plays course roster log who run) (attempt : Nat) :
    run.done attempt <+: partOf (roster.rank who) course := by
  obtain ⟨part, conduct⟩ := plays.vetted.conduct
  rw [← conduct.fitted.scripted]
  exact run.done_begins attempt

end Plays

structure Attuned (course : List (Nat × Operation)) (roster : Roster α plan)
    (log : List (Event α)) (scene : Scene α) : Prop where
  plays : ∀ who < roster.size, Plays course roster log who (scene.runs who)
  fine : ∀ event ∈ log, ∀ made ∈ event.exchange, made.succeeds = true
  freight : ∀ team < roster.replicas, Freight plan course roster.iteration
    (fun rank attempt => (scene.runs (roster.member team rank)).done attempt) (scene.meshes team)
  council : ∃ events, Council roster.size roster.iteration
    (fun who => (roster.worker who).validator) events scene.runs scene.board

namespace Attuned

theorem start (scored : Scored plan course)
    (suited : ∀ who < roster.size, Suited plan (roster.inputs who)) :
    Attuned course roster [] roster.opening := by
  constructor
  · exact fun who inside => .start scored inside (suited who inside)
  · intro event member
    cases member
  · intro team team_lt
    refine .start ((Mesh.size_make _).trans scored.ranks) (Mesh.allOpen_make _)
      (Mesh.held_make _) fun rank rank_lt attempt => ?_
    obtain ⟨inside, -⟩ := roster.member_lt scored team_lt rank_lt
    refine Run.done_ahead ?_
    rw [Roster.opening, roster.snapshotting inside]
    exact Nat.zero_le attempt
  · refine ⟨[], .start (fun who => ?_) fun who inside => ?_⟩
    · exact Phase.call_of_idle (Run.trial?_of_called (Or.inr rfl))
    · rw [Roster.opening, roster.snapshotting inside]
      rfl

section
variable {exchange : Option (Exchange α)} {next : Run α} {mesh : Mesh α}
  {board : Mesh StageFingerprint}

/-- Whom a member asks belongs to its replica or to the group, so nothing goes wrong. -/
theorem succeeds (scored : Scored plan course) (attuned : Attuned course roster log scene)
    (inside : who < roster.size) (stride : Stride (scene.runs who) exchange next)
    (sane : ∀ made ∈ exchange, made.falters = false)
    (carries : (scene.meshes (roster.replica who)).Answers (roster.rank who)
      (exchange.bind Exchange.carried?) mesh)
    (posts : scene.board.Answers who (exchange.bind Exchange.posted?) board) :
    ∀ made ∈ exchange, made.succeeds = true := by
  rintro made rfl
  obtain ⟨part, conduct⟩ := (attuned.plays who inside).vetted.conduct
  have freight := attuned.freight _ (roster.placed who inside).1
  obtain ⟨events, council⟩ := attuned.council
  refine Exchange.succeeds_of_sane (sane made rfl) (fun errand carried => ?_)
    fun errand posted => ?_
  · rw [Option.bind_some, carried] at carries
    refine carries.succeeds freight.opened fun peer asked => ?_
    rw [freight.size]
    obtain ⟨request, answer⟩ := made
    cases request with
    | send =>
        cases carried
        cases asked
        obtain ⟨transfer, labelling⟩ := conduct.sends stride
        exact scored.inside_of_part (scored.receive_of_send labelling.listed)
    | receive =>
        cases carried
        cases asked
        obtain ⟨transfer, labelling⟩ := conduct.receives stride
        exact scored.inside_of_part (scored.send_of_receive labelling.listed)
    | dropStale =>
        cases carried
        cases asked
    | _ => cases carried
  · rw [Option.bind_some, posted] at posts
    refine posts.succeeds council.past.sound.opened fun peer asked => ?_
    rw [council.past.sound.size]
    obtain ⟨request, answer⟩ := made
    cases request with
    | publish =>
        cases posted
        cases asked
        cases stride with
        | ask turn =>
            obtain ⟨gather, going, asks⟩ := Run.call_of_publish turn
            exact ((council.past.sound.underway going).2.publish_lt asks).1
    | collect =>
        cases posted
        cases asked
        cases stride with
        | ask turn =>
            obtain ⟨gather, going, asks, -⟩ := Run.call_of_collect turn
            exact (council.past.sound.underway going).2.collect_lt asks
    | dropPublished =>
        cases posted
        cases asked
    | _ => cases posted

/-- A turn of a member does nothing to the others but on the meshes. -/
theorem stride {blueprint : Blueprint} (built : blueprint.build = .ok plan)
    (scored : Scored plan course) (tagged : plan.layout.Tagged plan.microbatches)
    (attuned : Attuned course roster log scene) (inside : who < roster.size)
    (stride : Stride (scene.runs who) exchange next)
    (sane : ∀ made ∈ exchange, made.falters = false)
    (carries : (scene.meshes (roster.replica who)).Answers (roster.rank who)
      (exchange.bind Exchange.carried?) mesh)
    (posts : scene.board.Answers who (exchange.bind Exchange.posted?) board) :
    Attuned course roster (log ++ [⟨who, scene.runs who, exchange, next⟩])
      { runs := Function.update scene.runs who next
        meshes := Function.update scene.meshes (roster.replica who) mesh
        board := board } := by
  have fine := attuned.succeeds scored inside stride sane carries posts
  have plays := attuned.plays who inside
  have vetted := plays.vetted
  have playable := scored.playable (roster.rank who)
  obtain ⟨part, conduct⟩ := vetted.conduct
  obtain ⟨validator, seat, iteration⟩ := plays.kin inside
  obtain ⟨team_lt, home⟩ := roster.placed who inside
  have onward : ∀ other < roster.size, Plays course roster
      (log ++ [⟨who, scene.runs who, exchange, next⟩]) other
      (Function.update scene.runs who next other) := by
    intro other otherInside
    by_cases here : other = who
    · subst here
      rw [Function.update_self]
      exact plays.stride built scored tagged inside fine stride
    · rw [Function.update_of_ne here]
      exact (attuned.plays other otherInside).elsewhere (Ne.symm here)
  have scripts : ∀ team < roster.replicas, ∀ rank < plan.layout.depth, ∀ attempt,
      (Function.update scene.runs who next (roster.member team rank)).done attempt <+:
        partOf rank course := by
    intro team within rank rank_lt attempt
    obtain ⟨memberInside, -, same⟩ := roster.member_lt scored within rank_lt
    have begins := (onward _ memberInside).done_begins attempt
    rwa [same] at begins
  constructor
  · exact onward
  · intro event member made found
    rcases List.mem_append.mp member with old | new
    · exact attuned.fine event old made found
    · obtain rfl := List.mem_singleton.mp new
      exact fine made found
  · intro team within
    dsimp only
    by_cases here : team = roster.replica who
    · subst here
      rw [Function.update_self]
      refine (attuned.freight _ within).worked scored tagged (roster.rank_lt scored inside)
        conduct.fitted.planned conduct.fitted.scripted iteration ⟨?_, ?_, ?_⟩ (scripts _ within)
        (vetted.worked playable scored.sound tagged fine stride) carries
      · intro attempt
        rw [Roster.rank, home]
      · intro attempt
        rw [Roster.rank, home, Function.update_self]
      · intro rank rank_lt different attempt
        obtain ⟨-, -, same⟩ := roster.member_lt scored within rank_lt
        rw [Function.update_of_ne fun here =>
          different (same.symm.trans (congrArg roster.rank here))]
    · rw [Function.update_of_ne here]
      refine (attuned.freight team within).congr scored (scripts team within)
        fun rank rank_lt attempt operation _ => ?_
      obtain ⟨-, same, -⟩ := roster.member_lt scored within rank_lt
      rw [Function.update_of_ne fun other => here (same.symm.trans (congrArg roster.replica other))]
  · obtain ⟨events, council⟩ := attuned.council
    obtain ⟨more, council⟩ := council.called inside validator seat iteration
      (fun epoch calling => iteration ▸ vetted.calling calling)
      (vetted.called playable scored.sound tagged
        (roster.once built scored inside) fine stride) posts
    exact ⟨_, council⟩

end

/-- A member that looks for a payload in vain has changed nothing. -/
theorem look (attuned : Attuned course roster log scene) {team rank peer : Nat} {tag : Tag}
    {mesh : Mesh α} (missing : (scene.meshes team).receive rank peer tag = .ok (none, mesh)) :
    Attuned course roster log { scene with meshes := Function.update scene.meshes team mesh } := by
  refine ⟨attuned.plays, attuned.fine, fun other within => ?_, attuned.council⟩
  dsimp only
  by_cases here : other = team
  · subst here
    rw [Function.update_self]
    exact (attuned.freight _ within).looked missing
  · rw [Function.update_of_ne here]
    exact attuned.freight other within

end Attuned

/-- However the members take their turns, all of them keep to their parts. -/
theorem Concert.attuned {blueprint : Blueprint} (built : blueprint.build = .ok plan)
    (scored : Scored plan course) (tagged : plan.layout.Tagged plan.microbatches)
    (suited : ∀ who < roster.size, Suited plan (roster.inputs who))
    (concert : Concert roster log scene) : Attuned course roster log scene := by
  induction concert with
  | start => exact .start scored suited
  | stride past inside stride sane carries posts ih =>
      exact ih.stride built scored tagged inside stride sane carries posts
  | look past inside turn missing ih => exact ih.look missing
  | peek past inside turn missing ih =>
      obtain ⟨events, council⟩ := ih.council
      obtain ⟨gather, going, asks, rfl⟩ := Run.call_of_collect turn
      exact ⟨ih.plays, ih.fine, ih.freight, events, council.looked going asks missing⟩

end PipelineTraining
