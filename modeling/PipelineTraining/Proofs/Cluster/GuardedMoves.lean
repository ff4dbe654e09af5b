import PipelineTraining.Cluster.Schedule
import PipelineTraining.Proofs.Cluster.GuardedStep
import PipelineTraining.Proofs.Cluster.Interleaving

/-!
The moves of a cluster in a guarded step where no callback fails. Every move of a member is a
turn of the step, and every sweep over the members is made of such turns.
-/

namespace PipelineTraining

variable {σ α : Type}

/-- Nothing fails that the runs ask for, roll-backs included. -/
structure Callbacks.Sure (callbacks : Callbacks σ α) : Prop extends callbacks.Reliable where
  snapshot : ∀ own, ∃ handle, (callbacks.snapshot own).2 = .ok handle
  restore : ∀ own handle, (callbacks.restore own handle).2 = .ok ()
  discard : ∀ own, (callbacks.discard own).2 = .ok ()
  gather : ∀ own epoch entry, ∃ gathered, (callbacks.gather own epoch entry).2 = .ok gathered

namespace Member

def busy? (member : Member σ α) : Option (Run α) :=
  match member.activity with
  | .idle => none
  | .running run => some run
  | .waiting run => some run

inductive Acts (run : Run α) (rank : Nat) (member : Member σ α) : Prop
  | busy (busy : member.busy? = some run) (placed : member.worker.rank = rank)
  | returned {result : Except Fault (StepReport α)} (idle : member.busy? = none)
      (ended : run.outcome? = some result) (reported : member.result = some result)

end Member

variable {plan : Plan} {roster : Roster α plan} {log : List (Event α)} {scene : Scene α}
  {cluster next : Cluster σ α} {who team : Nat} {member : Member σ α} {run onward : Run α}
  {exchange : Option (Exchange α)} {mesh : Mesh α} {board : Mesh StageFingerprint}
  {callbacks : Callbacks σ α}

namespace Cluster

structure Stages (roster : Roster α plan) (scene : Scene α) (cluster : Cluster σ α) : Prop where
  members : ∀ who (member : Member σ α), cluster.members[who]? = some member →
    who < roster.size ∧ member.replica = roster.replica who ∧
      member.Acts (scene.runs who) (roster.rank who)
  count : cluster.payloads.length = roster.replicas
  payloads : ∀ team < roster.replicas, cluster.payloadMesh team = scene.meshes team
  fingerprints : cluster.fingerprints = scene.board

/-- A member that is busy stands in its part. -/
theorem Stages.acts (stages : cluster.Stages roster scene)
    (found : cluster.members[who]? = some member) (busy : member.busy? = some run) :
    scene.runs who = run ∧ member.worker.rank = roster.rank who := by
  obtain ⟨-, -, acts⟩ := stages.members who member found
  cases acts with
  | returned idle => cases idle.symm.trans busy
  | busy same placed => exact ⟨Option.some.inj (same.symm.trans busy), placed⟩

theorem of_put {other : Nat} {known taken : Member σ α}
    (found : (cluster.put who taken).members[other]? = some known) :
    other = who ∧ known = taken ∨ other ≠ who ∧ cluster.members[other]? = some known := by
  rw [put, List.getElem?_set] at found
  by_cases here : who = other
  · rw [if_pos here] at found
    split at found
    · exact Or.inl ⟨here.symm, (Option.some.inj found).symm⟩
    · cases found
  · rw [if_neg here] at found
    exact Or.inr ⟨Ne.symm here, found⟩

theorem payloadMesh_putPayloads (inside : team < cluster.payloads.length) (mesh : Mesh α)
    (other : Nat) : (cluster.putPayloads team mesh).payloadMesh other =
      if other = team then mesh else cluster.payloadMesh other := by
  rw [payloadMesh, putPayloads, List.getElem?_set]
  by_cases here : team = other
  · subst here
    rw [if_pos rfl, if_pos rfl, if_pos inside]
    rfl
  · rw [if_neg here, if_neg (Ne.symm here)]
    rfl

theorem putPayloads_self (inside : team < cluster.payloads.length) :
    cluster.putPayloads team (cluster.payloadMesh team) = cluster := by
  rw [putPayloads, payloadMesh, List.getElem?_eq_getElem inside, Option.getD_some,
    List.set_getElem_self]

end Cluster

def Performed (roster : Roster α plan) (log : List (Event α)) (cluster : Cluster σ α) : Prop :=
  ∃ later scene, Concert roster (log ++ later) scene ∧ cluster.Stages roster scene

namespace Roster

def begun (roster : Roster α plan) (own : Nat → σ) (limit : Duration) : Cluster σ α :=
  (Cluster.make roster.replicas plan.ranks.length limit ((List.range roster.size).map fun who => {
    replica := roster.replica who
    worker := roster.worker who
    own := own who
    activity := .idle
    result := none })).begin fun who worker => some (.ofStep worker (roster.inputs who))

theorem performed (roster : Roster α plan) (own : Nat → σ) (limit : Duration) :
    Performed roster [] (roster.begun own limit) := by
  refine ⟨[], roster.opening, .start, fun who member found => ?_, List.length_replicate,
    fun team within => ?_, rfl⟩
  · obtain ⟨idle, listed, rfl⟩ := Option.map_eq_some_iff.mp (List.getElem?_mapIdx ▸ found)
    obtain ⟨other, numbered, rfl⟩ := Option.map_eq_some_iff.mp (List.getElem?_map ▸ listed)
    obtain ⟨inside, rfl⟩ := List.getElem?_eq_some_iff.mp numbered
    rw [List.length_range] at inside
    rw [List.getElem_range]
    exact ⟨inside, rfl, .busy rfl rfl⟩
  · exact congrArg (Option.getD · _) (List.getElem?_replicate_of_lt within)

end Roster

namespace Concert

theorem performed (concert : Concert roster log scene) (stages : cluster.Stages roster scene) :
    Performed roster log cluster :=
  ⟨[], scene, by rwa [List.append_nil], stages⟩

/-- A member that waits or returns does not change the scene. -/
theorem stayed (concert : Concert roster log scene) (stages : cluster.Stages roster scene)
    (found : cluster.members[who]? = some member) {taken : Member σ α}
    (replica : taken.replica = member.replica)
    (acts : taken.Acts (scene.runs who) (roster.rank who)) :
    Performed roster log (cluster.put who taken) := by
  refine concert.performed ⟨fun other known listed => ?_, stages.count, stages.payloads,
    stages.fingerprints⟩
  rcases Cluster.of_put listed with ⟨rfl, rfl⟩ | ⟨-, old⟩
  · obtain ⟨inside, home, -⟩ := stages.members _ member found
    exact ⟨inside, replica.trans home, acts⟩
  · exact stages.members other known old

theorem turned (concert : Concert roster log scene) (stages : cluster.Stages roster scene)
    (found : cluster.members[who]? = some member) (busy : member.busy? = some run)
    (stride : Stride run exchange onward) (sane : ∀ made ∈ exchange, made.falters = false)
    (carries : (cluster.payloadMesh member.replica).Answers member.worker.rank
      (exchange.bind Exchange.carried?) mesh)
    (posts : cluster.fingerprints.Answers who (exchange.bind Exchange.posted?) board) (own : σ) :
    Performed roster log
      (((cluster.putPayloads member.replica mesh).putFingerprints board).goOn who member own
        onward) := by
  obtain ⟨inside, home, -⟩ := stages.members who member found
  obtain ⟨team_lt, -⟩ := roster.placed who inside
  obtain ⟨rfl, placed⟩ := stages.acts found busy
  rw [home, placed, stages.payloads _ team_lt] at carries
  rw [stages.fingerprints] at posts
  refine ⟨[_], _, concert.stride inside stride sane carries posts, ?_, ?_, ?_, rfl⟩
  · intro other known listed
    rcases Cluster.of_put listed with ⟨rfl, rfl⟩ | ⟨different, old⟩
    · refine ⟨inside, home, .busy ?_ placed⟩
      dsimp only
      rw [Function.update_self]
      rfl
    · dsimp only
      rw [Function.update_of_ne different]
      exact stages.members other known old
  · exact (List.length_set ..).trans stages.count
  · intro team within
    have places := Cluster.payloadMesh_putPayloads (stages.count.symm ▸ team_lt) mesh team
    rw [home]
    refine places.trans ?_
    dsimp only
    by_cases here : team = roster.replica who
    · rw [if_pos here, here, Function.update_self]
    · rw [if_neg here, Function.update_of_ne here, stages.payloads team within]

theorem posted (concert : Concert roster log scene) (stages : cluster.Stages roster scene)
    (found : cluster.members[who]? = some member) (busy : member.busy? = some run)
    (stride : Stride run exchange onward) (sane : ∀ made ∈ exchange, made.falters = false)
    (carries : (cluster.payloadMesh member.replica).Answers member.worker.rank
      (exchange.bind Exchange.carried?) (cluster.payloadMesh member.replica))
    (posts : cluster.fingerprints.Answers who (exchange.bind Exchange.posted?) board) (own : σ) :
    Performed roster log ((cluster.putFingerprints board).goOn who member own onward) := by
  obtain ⟨inside, home, -⟩ := stages.members who member found
  have team_lt : member.replica < cluster.payloads.length := by
    rw [home, stages.count]
    exact (roster.placed who inside).1
  have turned := concert.turned stages found busy stride sane carries posts own
  rwa [Cluster.putPayloads_self team_lt] at turned

theorem replied (concert : Concert roster log scene) (stages : cluster.Stages roster scene)
    (found : cluster.members[who]? = some member) (busy : member.busy? = some run)
    (stride : Stride run exchange onward) (sane : ∀ made ∈ exchange, made.falters = false)
    (carries : (cluster.payloadMesh member.replica).Answers member.worker.rank
      (exchange.bind Exchange.carried?) (cluster.payloadMesh member.replica))
    (posts : cluster.fingerprints.Answers who (exchange.bind Exchange.posted?)
      cluster.fingerprints) (own : σ) : Performed roster log (cluster.goOn who member own onward) :=
  concert.posted stages found busy stride sane carries posts own

section
variable {request : Request α} {resume : request.Answer → Run α}

theorem served (sure : callbacks.Sure) (concert : Concert roster log scene)
    (stages : cluster.Stages roster scene)
    (found : cluster.members[who]? = some member) (running : member.activity = .running run)
    (turn : run.turn = .ask request resume) :
    Performed roster log (cluster.serve callbacks who member run request resume) := by
  have busy : member.busy? = some run := by rw [Member.busy?, running]
  have stride := Stride.ask turn
  have sane : ∀ answer : request.Answer, Exchange.falters ⟨request, answer⟩ = false →
      ∀ made ∈ some (⟨request, answer⟩ : Exchange α), made.falters = false := by
    rintro answer sane made ⟨⟩
    exact sane
  have replied := fun (answer : request.Answer) sound =>
    concert.replied stages found busy (stride answer) (sane answer sound)
  cases request with
  | forward stage microbatch input =>
      obtain ⟨value, answer⟩ := sure.forward member.own stage microbatch input
      exact replied _ (by rw [answer]; rfl) .none .none _
  | backward stage microbatch gradient =>
      obtain ⟨value, answer⟩ := sure.backward member.own stage microbatch gradient
      exact replied _ (by rw [answer]; rfl) .none .none _
  | backwardWeights stage microbatch =>
      have answer := sure.backwardWeights member.own stage microbatch
      exact replied _ (by rw [answer]; rfl) .none .none _
  | optimize =>
      obtain ⟨fingerprint, answer⟩ := sure.optimize member.own
      exact replied _ (by rw [answer]; rfl) .none .none _
  | snapshot =>
      obtain ⟨handle, answer⟩ := sure.snapshot member.own
      exact replied _ (by rw [answer]; rfl) .none .none _
  | restore handle =>
      have answer := sure.restore member.own handle
      exact replied _ (by rw [answer]; rfl) .none .none _
  | discard =>
      have answer := sure.discard member.own
      exact replied _ (by rw [answer]; rfl) .none .none _
  | gather epoch entry =>
      obtain ⟨gathered, answer⟩ := sure.gather member.own epoch entry
      exact replied _ (by rw [answer]; rfl) .none .none _
  | dropStale epoch =>
      exact concert.turned stages found busy (stride ()) (sane () rfl) .drop .none _
  | dropPublished epoch =>
      exact concert.posted stages found busy (stride ()) (sane () rfl) .none .drop _
  | send peer tag payload =>
      have clear := sure.clear member.own .send peer
      rw [Cluster.serve]
      split
      · next struck => cases (congrArg Prod.snd struck).symm.trans clear
      · split
        · next refused => exact replied (.error _) rfl (.refused refused) .none _
        · next sent =>
          exact concert.turned stages found busy (stride (.ok ())) (sane _ rfl) (.sent sent) .none _
  | publish peer tag entry =>
      have clear := sure.clear member.own .publish peer
      rw [Cluster.serve]
      split
      · next struck => cases (congrArg Prod.snd struck).symm.trans clear
      · split
        · next refused => exact replied (.error _) rfl .none (.refused refused) _
        · next sent =>
          exact concert.posted stages found busy (stride (.ok ())) (sane _ rfl) .none (.sent sent) _
  | receive peer tag | collect peer tag =>
      rw [Cluster.serve]
      split
      · next struck => cases (congrArg Prod.snd struck).symm.trans (sure.clear ..)
      · obtain ⟨rfl, placed⟩ := stages.acts found busy
        exact concert.stayed stages found rfl (.busy rfl placed)

theorem polled (concert : Concert roster log scene) (stages : cluster.Stages roster scene)
    (found : cluster.members[who]? = some member) (waiting : member.activity = .waiting run)
    (turn : run.turn = .ask request resume)
    (polls : cluster.poll? who member request resume = some next) :
    Performed roster log next := by
  have busy : member.busy? = some run := by rw [Member.busy?, waiting]
  have sane : ∀ answer : request.Answer, Exchange.falters ⟨request, answer⟩ = false →
      ∀ made ∈ some (⟨request, answer⟩ : Exchange α), made.falters = false := by
    rintro answer sane made ⟨⟩
    exact sane
  have stride := Stride.ask turn
  cases request with
  | receive peer tag =>
      rw [Cluster.poll?] at polls
      split at polls
      · next strayed =>
        obtain rfl := Option.some.inj polls
        exact concert.replied stages found busy (stride (.error _)) (sane _ rfl) (.strayed strayed)
          .none _
      · next received =>
        obtain rfl := Option.some.inj polls
        exact concert.turned stages found busy (stride (.ok _)) (sane _ rfl) (.received received)
          .none _
      · cases polls
  | collect peer tag =>
      rw [Cluster.poll?] at polls
      split at polls
      · next strayed =>
        obtain rfl := Option.some.inj polls
        exact concert.replied stages found busy (stride (.error _)) (sane _ rfl) .none
          (.strayed strayed) _
      · next received =>
        obtain rfl := Option.some.inj polls
        exact concert.posted stages found busy (stride (.ok _)) (sane _ rfl) .none
          (.received received) _
      · cases polls
  | _ => cases polls

end

/-- A move of a member is a turn, unless the member only waits or returns. -/
theorem moved (sure : callbacks.Sure) (concert : Concert roster log scene)
    (stages : cluster.Stages roster scene) (moves : cluster.move? callbacks who = some next) :
    Performed roster log next := by
  unfold Cluster.move? at moves
  split at moves
  · cases moves
  · next member found =>
    split at moves
    · cases moves
    · next run running =>
      have busy : member.busy? = some run := by rw [Member.busy?, running]
      split at moves
      · next result turn =>
        obtain ⟨rfl, placed⟩ := stages.acts found busy
        cases moves
        exact concert.stayed stages found rfl
          (.returned rfl (Run.outcome?_eq_some.mpr (Run.phase_of_over turn)) rfl)
      · next onward turn =>
        cases moves
        exact concert.replied stages found busy (.own turn) nofun .none .none _
      · next request resume turn =>
        cases moves
        exact concert.served sure stages found running turn
    · next run waiting =>
      split at moves
      · next request resume turn => exact concert.polled stages found waiting turn moves
      · cases moves

end Concert

namespace Performed

theorem and_then {after : Cluster σ α} (performed : Performed roster log cluster)
    (more : ∀ later scene, Concert roster (log ++ later) scene → cluster.Stages roster scene →
      Performed roster (log ++ later) after) : Performed roster log after := by
  obtain ⟨later, scene, concert, stages⟩ := performed
  obtain ⟨rest, final, concert, stages⟩ := more later scene concert stages
  exact ⟨later ++ rest, final, by rwa [← List.append_assoc], stages⟩

theorem drained (sure : callbacks.Sure) (performed : Performed roster log cluster) (who turns : Nat)
    (moved : Bool) : Performed roster log (cluster.drain callbacks who turns moved).2 := by
  induction turns generalizing cluster moved with
  | zero => exact performed
  | succ turns ih =>
      rw [Cluster.drain]
      split
      · exact performed
      · next next moves =>
        exact ih (performed.and_then fun _ _ concert stages => concert.moved sure stages moves) true

/-- However often the members of a list are swept over, they make turns. -/
theorem swept (sure : callbacks.Sure) (performed : Performed roster log cluster) (turns : Nat)
    (members : List Nat) (moved : Bool) :
    Performed roster log (cluster.sweep callbacks turns members moved).2 := by
  induction members generalizing cluster moved with
  | nil => exact performed
  | cons who rest ih => exact ih (performed.drained sure who turns moved) _

end Performed
end PipelineTraining
