import PipelineTraining.Proofs.Cluster.Turning

/-!
Whatever a rank is doing it can go on, unless it has returned from its last
iteration or waits for what another rank has not sent.
-/

namespace PipelineTraining

variable {σ α : Type} {drill : Drill σ α} {chart : Chart drill} {moves : List Nat}
  {seen : List (Sighting α)} {cluster : Cluster σ α} {who : Nat} {member : Member σ α}
  {run : Run α} {after : List Operation}

namespace Joint

theorem turn_idle (suited : ∀ who iteration, Suited drill.plan (drill.inputs who iteration))
    (joint : Joint moves seen cluster chart) (found : cluster.members[who]? = some member)
    (idle : member.activity = .idle)
    (counted : member.worker.iteration = (chart.spots who).iteration)
    (empty : (chart.spots who).behind = []) (spent : (chart.spots who).spent = 0)
    (ahead : (chart.spots who).iteration < drill.goal) : Turned moves seen cluster chart who := by
  obtain ⟨replica, equipped, _⟩ := joint.attended who member found
  obtain ⟨next, moved, members, payloads⟩ := Drill.move?_idle found idle (counted ▸ ahead)
  have begun : Manned (chart.task who (chart.spots who).iteration)
        (Run.ofIteration member.worker (drill.inputs who member.worker.iteration)) ∧
      (Run.ofIteration member.worker (drill.inputs who member.worker.iteration)).phase =
        .clearing none := by
    apply manned_ofIteration equipped counted
    · rw [counted]
      rfl
    · exact suited who member.worker.iteration
  have unseen := drill.sighting?_idle found idle
  exact joint.pause found
    { member with
      activity := .running
        (.ofIteration member.worker (drill.inputs who member.worker.iteration))
      result := none }
    1 ahead (by omega) replica equipped
    (.clearing rfl begun.1 begun.2 empty rfl) moved unseen members payloads

theorem turn_clearing (tagged : drill.plan.layout.Tagged drill.plan.microbatches)
    (joint : Joint moves seen cluster chart) (found : cluster.members[who]? = some member)
    (running : member.activity = .running run)
    (manned : Manned (chart.task who (chart.spots who).iteration) run)
    (phase : run.phase = .clearing none) (empty : (chart.spots who).behind = [])
    (spent : (chart.spots who).spent = 1) : Turned moves seen cluster chart who := by
  obtain ⟨replica, equipped, _⟩ := joint.attended who member found
  obtain ⟨mesh, payloads, carried⟩ := joint.carried
  have epoch : run.epoch none = attemptEpoch (chart.spots who).iteration 0 := by
    simp only [Run.epoch, manned.iteration, Option.map_none, Option.getD_none]
    rfl
  have asks : run.turn = .ask (.dropStale (attemptEpoch (chart.spots who).iteration 0))
      fun _ => run.cleared none := by
    rw [← epoch]
    simp only [Run.turn, phase]
  obtain ⟨size, allOpen, left, others⟩ := Mesh.discard_held carried.opened who
    (·.isStale (attemptEpoch (chart.spots who).iteration 0))
  have moved := Drill.move?_ask drill found running asks
  have served : cluster.serve drill.callbacks who member run
      (.dropStale (attemptEpoch (chart.spots who).iteration 0)) (fun _ => run.cleared none) =
      (cluster.putPayloads member.replica (mesh.discard who
        (·.isStale (attemptEpoch (chart.spots who).iteration 0))).2).goOn who member member.own
          (run.cleared none) := by
    simp only [Cluster.serve, Cluster.payloadMesh_of payloads replica, equipped.placed]
  rw [served] at moved
  have unseen : drill.sighting? cluster who = none := drill.sighting?_ask found running asks
  have dones : ∀ other iteration, (chart.put who (chart.spots who).cleared).done other iteration =
      chart.done other iteration := Chart.done_put_same rfl rfl
  refine ⟨_, chart.put who (chart.spots who).cleared, moved, ?_, rfl, Or.inl ⟨?_, dones⟩⟩
  · rw [unseen, Option.toList_none, List.append_nil]
    have stands : Stands (chart.task who (chart.spots who).iteration) seen
        (chart.spots who).cleared
        { member with own := member.own, activity := .running (run.cleared none) } := by
      -- With the mailbox cleared the attempt stands in front of its first operation.
      have cleared : Choosing (chart.task who (chart.spots who).iteration) seen
          (chart.spots who).cleared.behind (chart.script who) (run.cleared none) := by
        have same : (chart.spots who).cleared.behind = [] := empty
        rw [same]
        exact choosing_cleared manned rfl
      refine .choosing rfl cleared rfl ?_
      simp [Spot.cleared, empty]
    refine joint.turn found
      { member with own := member.own, activity := .running (run.cleared none) }
      (List.Subset.refl _) ?_ ?_ ?_ replica equipped stands ?_ rfl
      (Cluster.putPayloads_of payloads replica _)
    · exact joint.sound.replaced dones (joint.sound.begun who) (joint.sound.bounded who)
        (fun _ => joint.ahead (by omega)) (joint.sound.behind who)
    · exact carried.dropped tagged joint.sound rfl rfl size allOpen left others
    · exact joint.witnessed.unchanged dones (Chart.iteration_put rfl) rfl
    · exact Nat.add_lt_add_left (by simp only [Spot.cleared, spent, Nat.lt_add_one]) _
  · unfold Chart.performed
    rw [Chart.put_self]
    rfl

theorem turn_choosing (tagged : drill.plan.layout.Tagged drill.plan.microbatches)
    (joint : Joint moves seen cluster chart) (found : cluster.members[who]? = some member)
    (running : member.activity = .running run)
    (choosing : Choosing (chart.task who (chart.spots who).iteration) seen
      (chart.spots who).behind after run) (opened : (chart.spots who).opened = true)
    (spent : (chart.spots who).spent = 2 + 3 * (chart.spots who).behind.length) :
    Turned moves seen cluster chart who := by
  obtain ⟨replica, equipped, _⟩ := joint.attended who member found
  have split : chart.script who = (chart.spots who).behind ++ after := by
    obtain ⟨_, _, _, standing⟩ := choosing
    exact standing.script
  have ahead : (chart.spots who).iteration < drill.goal := joint.ahead (by omega)
  cases after with
  | nil =>
      obtain ⟨next, report, own, phase, manned, finished⟩ := choosing_last choosing
      have whole : (chart.spots who).behind = chart.script who := by
        rw [split, List.append_nil]
      exact joint.pause found { member with activity := .running next }
        (3 + 3 * (chart.spots who).behind.length) ahead (by omega) replica equipped
        (.ended rfl phase manned finished whole opened rfl)
        (Drill.move?_own drill found running own)
        (drill.sighting?_own found running own) rfl rfl
  | cons operation rest =>
      obtain ⟨next, own, poised | ⟨rfl, choosing⟩⟩ :=
        choosing_next (joint.sound.scored.playable who) joint.sound.scored.sound tagged choosing
      · exact joint.pause found { member with activity := .running next }
          (3 + 3 * (chart.spots who).behind.length) ahead (by omega) replica equipped
          (.poised rfl poised opened rfl) (Drill.move?_own drill found running own)
          (drill.sighting?_own found running own) rfl
          rfl
      · exact joint.quiet found opened (by omega) (by omega) split rfl rfl
          (Drill.move?_own drill found running own) (drill.sighting?_own found running own) choosing

theorem turn_ended (joint : Joint moves seen cluster chart)
    (found : cluster.members[who]? = some member) (running : member.activity = .running run)
    {report : StepReport α} (phase : run.phase = .ended (.ok report))
    (manned : Manned (chart.task who (chart.spots who).iteration) run)
    (finished : Finished (chart.task who (chart.spots who).iteration) seen report)
    (whole : (chart.spots who).behind = chart.script who) (opened : (chart.spots who).opened = true)
    (spent : (chart.spots who).spent = 3 + 3 * (chart.spots who).behind.length) :
    Turned moves seen cluster chart who := by
  obtain ⟨replica, equipped, _⟩ := joint.attended who member found
  obtain ⟨mesh, payloads, carried⟩ := joint.carried
  have finishes : run.turn = .over (.ok report) := by
    simp only [Run.turn, phase]
  have begun := joint.sound.begun who
  have ahead : (chart.spots who).iteration < drill.goal := joint.ahead (by omega)
  have moved := Drill.move?_over drill found running finishes
  have sighted : drill.sighting? cluster who =
      some ⟨who, (chart.spots who).iteration, .finish (.ok report)⟩ := by
    rw [drill.sighting?_over found running finishes, manned.iteration]
    rfl
  have dones : ∀ other iteration, (chart.put who (chart.spots who).next).done other iteration =
      chart.done other iteration := Chart.done_put_next whole rfl rfl
  have later : (chart.spots who).iteration + 1 - drill.first =
      ((chart.spots who).iteration - drill.first) + 1 := by omega
  refine ⟨_, chart.put who (chart.spots who).next, moved, ?_, rfl, Or.inl ⟨?_, dones⟩⟩
  · rw [sighted, Option.toList_some]
    have stands : Stands (chart.task who ((chart.spots who).iteration + 1))
        (seen ++ [⟨who, (chart.spots who).iteration, .finish (.ok report)⟩]) (chart.spots who).next
        { member with worker := run.worker, activity := .idle, result := some (.ok report) } :=
      .idle rfl manned.counted rfl rfl
    refine joint.turn found
      { member with worker := run.worker, activity := .idle, result := some (.ok report) }
      (List.subset_append_left ..) ?_ ?_ ?_ replica manned.equipped stands ?_ rfl payloads
    · exact joint.sound.replaced dones (Nat.le_succ_of_le begun) ahead
        (fun positive => absurd positive (Nat.lt_irrefl 0)) List.nil_prefix
    · refine carried.unchanged (List.subset_append_left ..) dones fun other iteration reached => ?_
      by_cases here : other = who
      · subst here
        rw [Chart.put_self]
        obtain ⟨far, near, current⟩ := reached
        have current := current opened
        exact ⟨by simp only [Spot.next]; omega, by simp only [Spot.next]; omega,
          fun opened => by cases opened⟩
      · rw [Chart.put_other here]
        exact reached
    · exact joint.witnessed.ended begun rfl dones finished
    · -- The turns of a whole iteration outweigh those spent on it.
      have long : (chart.spots who).spent < chart.turns who := by
        rw [spent, whole, Chart.turns]
        omega
      simp only [Spot.next, later, Nat.add_zero, Nat.succ_mul]
      omega
  · unfold Chart.performed
    rw [Chart.put_self, whole]
    simp only [Spot.next, later, Nat.succ_mul, List.length_nil, Nat.add_zero]
    rfl

def Rests (chart : Chart drill) (cluster : Cluster σ α) (who : Nat) : Prop :=
  (chart.spots who).iteration = drill.goal ∧
    ∃ member, cluster.members[who]? = some member ∧ member.activity = .idle

def Waits (chart : Chart drill) (who : Nat) : Prop :=
  (chart.spots who).iteration < drill.goal ∧ ∃ peer transfer after,
    chart.script who = (chart.spots who).behind ++ .receive peer transfer :: after ∧
    .send who transfer ∉ chart.done peer (chart.spots who).iteration

theorem turn_poised (reliable : drill.callbacks.Reliable) {operation : Operation}
    (joint : Joint moves seen cluster chart) (found : cluster.members[who]? = some member)
    (running : member.activity = .running run)
    (poised : Poised (chart.task who (chart.spots who).iteration) seen
      (chart.spots who).behind after
      operation run) (opened : (chart.spots who).opened = true)
    (spent : (chart.spots who).spent = 3 + 3 * (chart.spots who).behind.length) :
    Turned moves seen cluster chart who := by
  have split := poised.script
  have manned := poised.manned
  cases poised.asking with
  | forward asks owned fitting resumes =>
      exact turn_forward reliable joint found running opened spent split manned asks fitting resumes
  | backward asks owned fitting resumes =>
      exact turn_backward reliable joint found running opened spent split manned asks
        fitting resumes
  | weights asks resumes =>
      exact turn_weights reliable joint found running opened spent split manned asks resumes
  | send asks tags meant resumes =>
      exact turn_send reliable joint found running opened spent split asks tags meant resumes
  | receive asks => exact turn_receive reliable joint found running opened spent poised asks
  | optimizer asks resumes =>
      exact turn_optimizer reliable joint found running opened spent split asks resumes

/-- Every rank can go on, or rests, or waits. -/
theorem outlook (tagged : drill.plan.layout.Tagged drill.plan.microbatches)
    (reliable : drill.callbacks.Reliable)
    (suited : ∀ who iteration, Suited drill.plan (drill.inputs who iteration))
    (joint : Joint moves seen cluster chart) (found : cluster.members[who]? = some member) :
    Turned moves seen cluster chart who ∨
      drill.move? cluster who = none ∧ (Rests chart cluster who ∨ Waits chart who) := by
  obtain ⟨_, _, stands⟩ := joint.attended who member found
  cases stands with
  | idle activity counted empty spent =>
      by_cases ahead : (chart.spots who).iteration < drill.goal
      · exact Or.inl (joint.turn_idle suited found activity counted empty spent ahead)
      · have past : (chart.spots who).iteration = drill.goal :=
          Nat.le_antisymm (joint.sound.bounded who) (Nat.le_of_not_lt ahead)
        have rests : drill.goal ≤ member.worker.iteration := by
          rw [counted]
          exact Nat.le_of_not_lt ahead
        exact Or.inr ⟨Drill.move?_rest found activity rests, Or.inl ⟨past, member, found, activity⟩⟩
  | clearing activity manned phase empty spent =>
      exact Or.inl (joint.turn_clearing tagged found activity manned phase empty spent)
  | choosing activity choosing opened spent =>
      exact Or.inl (joint.turn_choosing tagged found activity choosing opened spent)
  | poised activity poised opened spent =>
      exact Or.inl (joint.turn_poised reliable found activity poised opened spent)
  | waiting activity poised opened spent =>
      have split := poised.script
      cases poised.asking with
      | receive asks tags resumes =>
          rcases turn_waiting tagged joint found activity opened spent split asks tags resumes with
            turned | ⟨blocked, unsent⟩
          · exact Or.inl turned
          · exact Or.inr ⟨blocked, Or.inr ⟨joint.ahead (by omega), _, _, _, split, unsent⟩⟩
  | ended activity phase manned finished whole opened spent =>
      exact Or.inl (joint.turn_ended found activity phase manned finished whole opened spent)

theorem moved (tagged : drill.plan.layout.Tagged drill.plan.microbatches)
    (reliable : drill.callbacks.Reliable)
    (suited : ∀ who iteration, Suited drill.plan (drill.inputs who iteration))
    (joint : Joint moves seen cluster chart) {next : Cluster σ α}
    (moved : drill.move? cluster who = some next) :
    ∃ chart', Joint (moves ++ [who]) (seen ++ (drill.sighting? cluster who).toList) next chart' ∧
      chart.Follows chart' who := by
  cases found : cluster.members[who]? with
  | none =>
      rw [Drill.move?, found] at moved
      cases moved
  | some member =>
      rcases joint.outlook tagged reliable suited found with
        ⟨next', chart', moved', kept, follows⟩ | ⟨blocked, _⟩
      · obtain rfl := Option.some.inj (moved.symm.trans moved')
        exact ⟨chart', kept, follows⟩
      · rw [blocked] at moved
        cases moved

theorem followed (tagged : drill.plan.layout.Tagged drill.plan.microbatches)
    (reliable : drill.callbacks.Reliable)
    (suited : ∀ who iteration, Suited drill.plan (drill.inputs who iteration))
    (joint : Joint moves seen cluster chart) {rest : List Nat} {more : List (Sighting α)}
    {last : Cluster σ α} (run : drill.follow? cluster rest = some (more, last)) :
    ∃ chart' : Chart drill, Joint (moves ++ rest) (seen ++ more) last chart' ∧
      chart'.course = chart.course := by
  induction rest generalizing moves seen cluster chart more with
  | nil =>
      obtain ⟨rfl, rfl⟩ := Prod.mk.inj (Option.some.inj run)
      refine ⟨chart, ?_, rfl⟩
      rw [List.append_nil, List.append_nil]
      exact joint
  | cons who rest ih =>
      obtain ⟨next, moved, later⟩ := Option.bind_eq_some_iff.mp run
      obtain ⟨⟨shown, final⟩, onward, same⟩ := Option.map_eq_some_iff.mp later
      obtain ⟨rfl, rfl⟩ := Prod.mk.inj same
      obtain ⟨chart', kept, course, _⟩ := joint.moved tagged reliable suited moved
      obtain ⟨chart'', joint, courses⟩ := ih kept onward
      refine ⟨chart'', ?_, courses.trans course⟩
      rw [List.append_assoc, List.append_assoc] at joint
      exact joint

end Joint

theorem Worker.equipped_of_make {plan : Plan} {course : List (Nat × Operation)} {members : Nat}
    {worker : Worker} (scored : Scored plan course)
    (made : Worker.make plan who members = .ok worker) :
    Equipped plan who (Course.partOf who course) worker := by
  unfold Worker.make at made
  split at made
  · cases made
  · split at made
    · cases made
    · next rankPlan known =>
      have inside : who < plan.ranks.length := (List.getElem?_eq_some_iff.mp known).1
      have limit := Nat.ne_of_gt scored.limit
      simp only [Limiter.make, limit, if_false, Except.map, Except.ok.injEq] at made
      subst made
      refine ⟨rfl, rfl, scored.script who rankPlan known, rfl, rfl, 0, ?_⟩
      simp [inside]

theorem Joint.start {course : List (Nat × Operation)} {members : List (Member σ α)}
    (scored : Scored drill.plan course) (crew : drill.Crew members) (limit : Duration) :
    Joint [] [] (drill.start limit members) (Chart.fresh drill course) := by
  constructor
  · constructor
    · exact scored
    · exact fun _ => Nat.le_refl _
    · exact fun _ => Nat.le_add_right ..
    · exact fun _ spent => absurd spent (Nat.lt_irrefl 0)
    · exact fun _ => List.nil_prefix
    · intro who iteration peer transfer member
      rw [Chart.done_fresh] at member
      cases member
  · exact crew.1.trans scored.ranks
  · intro who member found
    obtain ⟨own, worker, window, sink, timeout, made, rfl⟩ := crew.2 who member found
    have equipped := Worker.equipped_of_make scored made
    refine ⟨rfl, ?_, .idle rfl rfl rfl rfl⟩
    exact ⟨equipped.placed, equipped.planned, equipped.scripted, equipped.silent, equipped.limited,
      equipped.tracked⟩
  · refine ⟨.make drill.plan.ranks.length, rfl, ?_⟩
    constructor
    · rw [Mesh.size_make, scored.ranks]
    · exact Mesh.allOpen_make _
    · intro who envelope member
      rw [Mesh.held_make] at member
      cases member
    · intro who peer iteration transfer tag sent
      rw [Chart.done_fresh] at sent
      cases sent
  · constructor
    · intro who iteration operation call
      cases call
    · intro who iteration operation member
      rw [Chart.done_fresh] at member
      cases member
    · exact List.nodup_nil
    · intro sighting member
      cases member
    · intro before who iteration stage microbatch answer after split
      cases before <;> cases split
    · intro who iteration result member
      cases member
    · intro who iteration _ begun past
      exact absurd begun (Nat.not_le_of_lt past)
  · intro who member
    cases member
  · exact fun who => Nat.zero_le _

end PipelineTraining
