import PipelineTraining.Proofs.Cluster.Progress
import PipelineTraining.Proofs.Cluster.SessionMoves

/-!
Attempts that break off do not touch later ones. What they leave on the mesh is never
consumed, what they leave pending is forgotten, and what an attempt returns is what
its own passes have returned.
-/

namespace PipelineTraining

variable {α : Type}

structure Event.Sends (event : Event α) (peer : Nat) (transfer : Transfer) (payload : α) :
    Prop where
  hand : event.run.inHand? = some (.send peer transfer)
  exchange : ∃ tag, event.exchange = some ⟨.send peer tag payload, .ok ()⟩

/-- What a rank does in one attempt has to do with that attempt alone. -/
structure Isolated (plan : Plan) (before : List (Event α)) (event : Event α) : Prop where
  /-- A payload comes from the same attempt of the peer and is meant for the receive. -/
  consumed : ∀ peer tag payload, event.exchange = some ⟨.receive peer tag, .ok payload⟩ →
    ∃ transfer attempt, event.run.inHand? = some (.receive peer transfer) ∧
      event.run.underway? = some attempt ∧
      ∃ sending ∈ before, sending.who = peer ∧ sending.Sends event.who transfer payload ∧
        sending.run.underway? = some attempt
  /-- An attempt begins by dropping what is stale, with nothing pending, and is the first and only
  one of its number. -/
  opened : event.run.underway? = none → ∀ attempt, event.next.underway? = some attempt →
    event.exchange = some ⟨.dropStale (attemptEpoch attempt.1 attempt.2), ()⟩ ∧
      (∀ rank, event.next.worker.limiter.pendingOn rank = 0) ∧
      ∀ earlier ∈ before, earlier.who = event.who → earlier.run.underway? ≠ some attempt
  /-- An attempt comes to its end before it has made as many turns as bound its run. -/
  brief : ∀ attempt, event.run.underway? = some attempt →
    turnsIn event.who attempt before < event.run.turnBound
  /-- An attempt returns what its own passes have returned. -/
  returned : ∀ result, event.run.Returns event.next result →
    ∃ attempt, event.run.underway? = some attempt ∧ result.iteration = attempt.1 ∧
      result.outputs = (callsIn event.who (some attempt) before).filterMap
        (Exchange.produced plan.layout .forward) ∧
      result.inputGradients = (callsIn event.who (some attempt) before).filterMap
        (Exchange.produced plan.layout .backward)
  /-- A run that ends well reports what its last attempt returned. -/
  reported : ∀ report, event.next.phase = .ended (.ok report) →
    event.run.Returns event.next report.result
  /-- An attempt whose own calls succeed returns or breaks off over a message. -/
  ends : event.run.underway?.isSome = true → event.next.underway? = none →
    (∀ made ∈ event.exchange, made.fails = false) →
    (∃ result, event.run.Returns event.next result) ∨
      ∃ fault, event.next.failure? = some fault ∧ fault.isDelivery = true
  /-- Outside of its attempts a run fails only over its snapshot. -/
  loses : event.run.underway? = none → event.run.failure? = none → ∀ fault,
    event.next.failure? = some fault → ∃ made, event.exchange = some made ∧ made.loses = true

namespace Session

variable {plan : Plan} {course : List (Nat × Operation)} {first rounds who : Nat}
  {log before after : List (Event α)} {team : Team α} {run next : Run α}
  {exchange : Option (Exchange α)} {mesh : Mesh α}

/-- A payload under the tag of an attempt has been sent in that attempt. -/
theorem consumed {peer : Nat} {tag : Tag} {payload : α} (scored : Scored plan course)
    (tagged : plan.layout.Tagged plan.microbatches) (few : rounds < 2 ^ 31)
    (past : Session plan first rounds log team) (busy : team.posts[who]? = some (.busy run))
    (stride : Stride run (some ⟨.receive peer tag, .ok payload⟩) next)
    (held : ⟨peer, tag, payload⟩ ∈ team.mesh.held who) :
    ∃ transfer attempt, run.inHand? = some (.receive peer transfer) ∧
      run.underway? = some attempt ∧
      ∃ sending ∈ log, sending.who = peer ∧ sending.Sends who transfer payload ∧
        sending.run.underway? = some attempt := by
  obtain ⟨sending, member, another, source, exchange, sent, sentBegun, sentAhead⟩ :=
    past.dispatched scored tagged held
  obtain ⟨sentHand, sentListed, again, againBounded, sentUnderway, sentTags⟩ := sent
  cases past.stationed scored tagged busy with
  | busy conduct _ begun ahead =>
      obtain ⟨transfer, hand, listed, retry, bounded, underway, tags⟩ := conduct.receives stride
      -- The tag is that of one transfer in one epoch, and no two attempts share an epoch.
      obtain ⟨epochs, rfl⟩ := ((scored.playable who).regular_receive listed).eq_of_tag tagged
        ((scored.playable peer).regular_send sentListed) tags sentTags
      obtain ⟨iterations, rfl⟩ := attemptEpoch_inj_of_few (by omega) begun ahead sentBegun sentAhead
        bounded againBounded epochs
      rw [← iterations] at sentUnderway
      exact ⟨transfer, _, hand, underway, sending, member, source, ⟨sentHand, tag, exchange⟩,
        sentUnderway⟩

theorem isolated_last (scored : Scored plan course) (tagged : plan.layout.Tagged plan.microbatches)
    (few : rounds < 2 ^ 31) (past : Session plan first rounds log team)
    (busy : team.posts[who]? = some (.busy run)) (stride : Stride run exchange next)
    (carries : Carries who team.mesh exchange mesh) :
    Isolated plan log ⟨who, run, exchange, next⟩ := by
  cases past.stationed scored tagged busy with
  | busy conduct _ _ _ elapsed =>
      refine ⟨?_, ?_, ?_, ?_, fun _ => stride.reported,
        conduct.ends (scored.playable who) scored.sound tagged stride,
        fun idle sane _ => conduct.loses stride idle sane⟩
      · rintro peer tag payload rfl
        cases carries with
        | apart apart => cases apart
        | receive received =>
            exact past.consumed scored tagged few busy stride ((Mesh.held_receive received).2 _ rfl)
      · -- The attempts of the past are behind the one that begins.
        intro idle attempt underway
        obtain ⟨anew, dropped, drained⟩ := stride.opens idle underway
        exact ⟨dropped, drained, fun earlier member here same =>
          run.not_past (anew ▸ elapsed earlier member here attempt same)⟩
      · intro attempt underway
        exact Nat.lt_of_lt_of_le (Nat.lt_add_of_pos_right (Run.turnsAhead_pos underway))
          (past.spent scored tagged busy underway)
      · rintro result returns
        obtain ⟨attempt, underway, iteration⟩ := returns.underway
        obtain ⟨outputs, inputGradients⟩ := conduct.returned returns
        rw [underway] at outputs inputGradients
        exact ⟨attempt, underway, iteration, outputs, inputGradients⟩

/-- Attempts that break off never reach into later ones, whatever fails on whatever rank. -/
theorem isolated {blueprint : Blueprint} {event : Event α} (ranks : 0 < blueprint.topology.depth)
    (built : blueprint.build = .ok plan)
    (tags : 2 * plan.layout.depth * plan.layout.chunks * plan.microbatches ≤ 2 ^ 32)
    (few : rounds < 2 ^ 31) (session : Session plan first rounds log team)
    (split : log = before ++ event :: after) : Isolated plan before event := by
  have tagged : plan.layout.Tagged plan.microbatches := by
    rw [Layout.Tagged, Layout.stageCount, ← Nat.mul_assoc]
    exact fun _ => tags
  obtain ⟨course, scored⟩ := Blueprint.scored_of_build ranks built
  induction session generalizing after with
  | start => simp at split
  | begin _ _ _ _ _ ih => exact ih split
  | stride past busy stride carries ih =>
      rcases Course.snoc_split split with ⟨rfl, rfl, _⟩ | ⟨rest, _, same⟩
      · exact isolated_last scored tagged few past busy stride carries
      · exact ih same
  | look _ _ ih => exact ih split
  | finish _ _ _ ih => exact ih split

end Session

def faltering : Callbacks (List Bool) (List Nat) where
  forward plans stage _ input :=
    (plans.tail, if plans.headD true then .ok (input.getD [] ++ [stage.logical + 1])
      else .error "faltered")
  backward plans stage _ gradient := (plans, .ok (gradient.getD [] ++ [stage.logical + 1]))
  backwardWeights plans _ _ := (plans, .ok ())
  optimize plans := (plans, .ok (.make 0 0.0))
  snapshot plans := (plans, .ok 0)
  restore plans _ := (plans, .ok ())
  discard plans := (plans, .ok ())
  gather plans _ entry := (plans, .ok [entry])
  obstruct plans _ peer := (plans.tail,
      if plans.headD true then none else some (.disconnected peer))

namespace Drill

def relapse : Drill (List Bool) (List Nat) where
  plan := exercise.plan
  callbacks := faltering
  inputs who iteration := if who = 0 then some [[iteration], [iteration]] else none
  first := 5
  rounds := 2

theorem relapse_suited (who iteration : Nat) :
    Suited relapse.plan (relapse.inputs who iteration) := by
  intro given same
  by_cases lead : who = 0
  · simp only [relapse, if_pos lead, Option.some.injEq] at same
    subst same
    rfl
  · simp [relapse, lead] at same

/-- The first rank fails in its second forward, the second one in its first receive. -/
def relapsers : List (Member (List Bool) (List Nat)) :=
  [⟨0, (trainee 0).worker, [true, true, false], .idle, none⟩,
    ⟨0, (trainee 1).worker, [false], .idle, none⟩]

theorem relapse_crew : relapse.Crew relapsers := by
  refine ⟨rfl, fun who member found => ?_⟩
  rcases who with _ | _ | who
  · obtain rfl := Option.some.inj found
    exact ⟨_, _, .disabled, .silent, Worker.usualTimeout, rfl, rfl⟩
  · obtain rfl := Option.some.inj found
    exact ⟨_, _, .disabled, .silent, Worker.usualTimeout, rfl, rfl⟩
  · simp [relapsers] at found

/-- The second rank gives up, drops what is stale and begins again. Only then does the first rank
send, give up and send again. -/
def relapsed : Cluster (List Bool) (List Nat) :=
  let start := relapse.start .zero relapsers
  ((relapse.follow? start (.replicate 7 1 ++ .replicate 15 0 ++ [1, 1])).map Prod.snd).getD start

end Drill

namespace Session

open Drill

/-- The second rank passes over the payload of the attempt that broke off. -/
theorem isolated_relapse : ∃ log event team,
    Session exercise.plan 5 2 (log ++ [event]) team ∧
      event.exchange = some ⟨.receive 0 ⟨12, 4⟩, .ok [6, 1]⟩ ∧
      event.run.underway? = some (6, 0) ∧ ⟨0, ⟨10, 4⟩, [5, 1]⟩ ∈ team.mesh.held 1 ∧
      Isolated exercise.plan log event := by
  have built : twofold.build = .ok relapse.plan := rfl
  obtain ⟨course, scored⟩ := Blueprint.scored_of_build (by decide) built
  obtain ⟨single, session⟩ := session_start scored relapse_crew .zero
  obtain ⟨seen, followed⟩ : ∃ seen, relapse.follow? (relapse.start .zero relapsers)
      (.replicate 7 1 ++ .replicate 15 0 ++ [1, 1]) = some (seen, relapsed) := ⟨_, rfl⟩
  obtain ⟨_, log, session⟩ := session_follow relapse_suited session single followed
  have busy : relapsed.team.posts[1]? = some (.busy _) := rfl
  have onward := session.stride busy (.ask rfl _) (.receive rfl)
  refine ⟨_, _, _, onward, rfl, rfl, List.mem_cons_self, ?_⟩
  exact isolated (by decide) built (by decide) (by decide) onward rfl

end Session
end PipelineTraining
