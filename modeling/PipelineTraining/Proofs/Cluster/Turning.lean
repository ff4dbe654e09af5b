import PipelineTraining.Proofs.Cluster.Joint

/-!
The turns of a rank in the joint state, one by one. A rank that stands in front of
an operation takes it up and executes it; only a receive may find nothing, and only
as long as the other rank has not sent.
-/

namespace PipelineTraining

variable {σ α : Type} {drill : Drill σ α} {chart : Chart drill} {moves : List Nat}
  {seen later : List (Sighting α)} {cluster next : Cluster σ α} {who : Nat}
  {member : Member σ α} {mesh : Mesh α} {operation : Operation} {after : List Operation}
  {run run' : Run α} {deed : Deed α} {own : σ}

theorem Deed.operation?_isCompute (shown : deed.operation? = some operation) :
    operation.isCompute = true := by
  cases deed with
  | finish result => cases shown
  | forward | backward | backwardWeights =>
      obtain rfl := Option.some.inj shown
      rfl

theorem Cluster.payloadMesh_of (payloads : cluster.payloads = [mesh])
    (replica : member.replica = 0) :
    cluster.payloadMesh member.replica = mesh := by
  simp [Cluster.payloadMesh, payloads, replica]

theorem Cluster.putPayloads_of (payloads : cluster.payloads = [mesh]) (replica : member.replica = 0)
    (other : Mesh α) : (cluster.putPayloads member.replica other).payloads = [other] := by
  simp [Cluster.putPayloads, payloads, replica]

namespace Joint

theorem ahead (joint : Joint moves seen cluster chart) (spent : 0 < (chart.spots who).spent) :
    (chart.spots who).iteration < drill.goal :=
  joint.sound.busy who spent

theorem execute (joint : Joint moves seen cluster chart)
    (found : cluster.members[who]? = some member) (member' : Member σ α)
    (opened : (chart.spots who).opened = true)
    (positive : 0 < (chart.spots who).spent)
    (spent : (chart.spots who).spent < 2 + 3 * ((chart.spots who).behind.length + 1))
    (split : chart.script who = (chart.spots who).behind ++ operation :: after)
    (more : seen ⊆ later)
    (sent : ∀ peer transfer, operation = .receive peer transfer →
      .send who transfer ∈ chart.done peer (chart.spots who).iteration)
    (carried : Carried (chart.put who ((chart.spots who).executed operation)) later mesh)
    (witnessed : Witnessed (chart.put who ((chart.spots who).executed operation)) later)
    (choosing : Choosing (chart.task who (chart.spots who).iteration) later
      ((chart.spots who).behind ++ [operation]) after run)
    (replica : member'.replica = 0)
    (equipped : Equipped drill.plan who (chart.script who) member'.worker)
    (running : member'.activity = .running run)
    (moved : drill.move? cluster who = some next)
    (shown : later = seen ++ (drill.sighting? cluster who).toList)
    (members : next.members = cluster.members.set who member') (payloads : next.payloads = [mesh]) :
    Turned moves seen cluster chart who := by
  refine ⟨next, chart.put who ((chart.spots who).executed operation), moved, ?_, rfl, Or.inr ?_⟩
  · rw [← shown]
    refine joint.turn found member' more ?_ carried witnessed replica equipped ?_ ?_ members
      payloads
    · exact joint.sound.advanced split (joint.ahead positive) rfl rfl sent
    · refine .choosing running choosing opened ?_
      simp [Spot.executed]
    · exact Nat.add_lt_add_left spent _
  · unfold Chart.performed
    rw [Chart.put_self]
    simp only [Spot.executed, List.length_append, List.length_singleton]
    rfl

theorem call (joint : Joint moves seen cluster chart)
    (found : cluster.members[who]? = some member) (opened : (chart.spots who).opened = true)
    (spent : (chart.spots who).spent = 3 + 3 * (chart.spots who).behind.length)
    (split : chart.script who = (chart.spots who).behind ++ operation :: after)
    (moved : drill.move? cluster who = some (cluster.goOn who member own run'))
    (sighted : drill.sighting? cluster who = some ⟨who, (chart.spots who).iteration, deed⟩)
    (shown : deed.operation? = some operation)
    (proper : Proper drill seen who (chart.spots who).iteration deed)
    (fed : ∀ stage microbatch answer, deed = .backwardWeights stage microbatch answer →
      .backward stage microbatch ∈ (chart.spots who).behind)
    (choosing : Choosing (chart.task who (chart.spots who).iteration)
      (seen ++ [⟨who, (chart.spots who).iteration, deed⟩])
      ((chart.spots who).behind ++ [operation]) after run') :
    Turned moves seen cluster chart who := by
  obtain ⟨replica, equipped, _⟩ := joint.attended who member found
  obtain ⟨mesh, payloads, carried⟩ := joint.carried
  have begun := joint.sound.begun who
  have more : seen ⊆ seen ++ [⟨who, (chart.spots who).iteration, deed⟩] :=
    List.subset_append_left ..
  have compute := Deed.operation?_isCompute shown
  have current := Chart.done_current begun
  have fresh := (joint.sound.scored.playable who).not_before split
  have stillCarried : Carried (chart.put who ((chart.spots who).executed operation))
      (seen ++ [⟨who, (chart.spots who).iteration, deed⟩]) mesh := by
    refine carried.advanced joint.sound rfl rfl rfl more ?_
    rintro peer transfer rfl
    cases compute
  have stillWitnessed : Witnessed (chart.put who ((chart.spots who).executed operation))
      (seen ++ [⟨who, (chart.spots who).iteration, deed⟩]) := by
    refine joint.witnessed.called begun rfl rfl shown ?_ proper ?_
    · rw [current]
      exact fresh
    · rw [current]
      exact fed
  have unreceived : ∀ peer transfer, operation = .receive peer transfer →
      .send who transfer ∈ chart.done peer (chart.spots who).iteration := by
    rintro peer transfer rfl
    cases compute
  refine joint.execute found { member with own := own, activity := .running run' } opened
    (by omega) (by omega) split more unreceived stillCarried stillWitnessed choosing replica
    equipped rfl moved ?_ rfl payloads
  rw [sighted, Option.toList_some]

theorem turn_pass (way : Way) (joint : Joint moves seen cluster chart)
    (found : cluster.members[who]? = some member) (opened : (chart.spots who).opened = true)
    (spent : (chart.spots who).spent = 3 + 3 * (chart.spots who).behind.length)
    {stage : StageId} {microbatch : Nat} {input : Option α} {value : α}
    (split : chart.script who = (chart.spots who).behind ++ way.pass stage microbatch :: after)
    (moved : drill.move? cluster who = some (cluster.goOn who member own run'))
    (sighted : drill.sighting? cluster who =
      some ⟨who, (chart.spots who).iteration, way.deed stage microbatch input (.ok value)⟩)
    (fitting : Fitting drill.plan.layout seen (chart.spots who).iteration
      (drill.inputs who (chart.spots who).iteration) way stage microbatch input)
    (resumes : ∀ later, seen ⊆ later →
      ⟨who, (chart.spots who).iteration, way.deed stage microbatch input (.ok value)⟩ ∈ later →
      Choosing (chart.task who (chart.spots who).iteration) later
        ((chart.spots who).behind ++ [way.pass stage microbatch]) after run') :
    Turned moves seen cluster chart who := by
  apply joint.call found opened spent split moved sighted (way.operation?_deed ..)
  · exact Proper.pass fitting value
  · intro other micro answer same
    cases way <;> cases same
  · apply resumes
    · exact List.subset_append_left ..
    · exact List.mem_append_right _ List.mem_cons_self

theorem quiet (joint : Joint moves seen cluster chart)
    (found : cluster.members[who]? = some member) (opened : (chart.spots who).opened = true)
    (positive : 0 < (chart.spots who).spent)
    (spent : (chart.spots who).spent < 2 + 3 * ((chart.spots who).behind.length + 1))
    (split : chart.script who = (chart.spots who).behind ++ operation :: after)
    (uncalled : operation.isCompute = false) (unmoved : operation.isTransfer = false)
    (moved : drill.move? cluster who = some (cluster.goOn who member own run'))
    (unseen : drill.sighting? cluster who = none)
    (choosing : Choosing (chart.task who (chart.spots who).iteration) seen
      ((chart.spots who).behind ++ [operation]) after run') :
    Turned moves seen cluster chart who := by
  obtain ⟨replica, equipped, _⟩ := joint.attended who member found
  obtain ⟨mesh, payloads, carried⟩ := joint.carried
  have begun := joint.sound.begun who
  have stillCarried : Carried (chart.put who ((chart.spots who).executed operation)) seen mesh := by
    refine carried.advanced joint.sound rfl rfl rfl (List.Subset.refl _) ?_
    rintro peer transfer rfl
    cases unmoved
  have stillWitnessed : Witnessed (chart.put who ((chart.spots who).executed operation)) seen :=
    joint.witnessed.advanced begun rfl rfl uncalled
  have unreceived : ∀ peer transfer, operation = .receive peer transfer →
      .send who transfer ∈ chart.done peer (chart.spots who).iteration := by
    rintro peer transfer rfl
    cases unmoved
  refine joint.execute found { member with own := own, activity := .running run' } opened positive
    spent split (List.Subset.refl _) unreceived stillCarried stillWitnessed choosing replica
    equipped rfl moved ?_ rfl payloads
  rw [unseen, Option.toList_none, List.append_nil]

section
variable (reliable : drill.callbacks.Reliable) (joint : Joint moves seen cluster chart)
  (found : cluster.members[who]? = some member) (running : member.activity = .running run)
  (opened : (chart.spots who).opened = true)
  (spent : (chart.spots who).spent = 3 + 3 * (chart.spots who).behind.length)

include reliable joint found running opened spent

theorem turn_forward {stage : StageId} {microbatch : Nat} {input : Option α}
    {resume : Except String α → Run α}
    (split : chart.script who =
      (chart.spots who).behind ++ .forward stage microbatch :: after)
    (manned : Manned (chart.task who (chart.spots who).iteration) run)
    (asks : run.turn = .ask (.forward stage microbatch input) resume)
    (fitting : Fitting drill.plan.layout seen (chart.spots who).iteration
      (drill.inputs who (chart.spots who).iteration) .forward stage microbatch input)
    (resumes : ∀ value later, seen ⊆ later →
      ⟨who, (chart.spots who).iteration, .forward stage microbatch input (.ok value)⟩ ∈ later →
      Choosing (chart.task who (chart.spots who).iteration) later
        ((chart.spots who).behind ++ [.forward stage microbatch]) after (resume (.ok value))) :
    Turned moves seen cluster chart who := by
  obtain ⟨value, answer⟩ := reliable.forward member.own stage microbatch input
  have moved := Drill.move?_ask drill found running asks
  have served : cluster.serve drill.callbacks who member run (.forward stage microbatch input)
      resume = cluster.goOn who member
        (drill.callbacks.forward member.own stage microbatch input).1 (resume (.ok value)) := by
    rw [← answer]
    rfl
  rw [served] at moved
  have sighted := drill.sighting?_ask found running asks
  rw [manned.iteration, Callbacks.deed?, answer] at sighted
  exact joint.turn_pass .forward found opened spent split moved sighted fitting (resumes value)

theorem turn_backward {stage : StageId} {microbatch : Nat} {gradient : Option α}
    {resume : Except String α → Run α}
    (split : chart.script who =
      (chart.spots who).behind ++ .backward stage microbatch :: after)
    (manned : Manned (chart.task who (chart.spots who).iteration) run)
    (asks : run.turn = .ask (.backward stage microbatch gradient) resume)
    (fitting : Fitting drill.plan.layout seen (chart.spots who).iteration
      (drill.inputs who (chart.spots who).iteration) .backward stage microbatch gradient)
    (resumes : ∀ value later, seen ⊆ later →
      ⟨who, (chart.spots who).iteration, .backward stage microbatch gradient (.ok value)⟩ ∈ later →
      Choosing (chart.task who (chart.spots who).iteration) later
        ((chart.spots who).behind ++ [.backward stage microbatch]) after (resume (.ok value))) :
    Turned moves seen cluster chart who := by
  obtain ⟨value, answer⟩ := reliable.backward member.own stage microbatch gradient
  have moved := Drill.move?_ask drill found running asks
  have served : cluster.serve drill.callbacks who member run (.backward stage microbatch gradient)
      resume = cluster.goOn who member
        (drill.callbacks.backward member.own stage microbatch gradient).1 (resume (.ok value)) := by
    rw [← answer]
    rfl
  rw [served] at moved
  have sighted := drill.sighting?_ask found running asks
  rw [manned.iteration, Callbacks.deed?, answer] at sighted
  exact joint.turn_pass .backward found opened spent split moved sighted fitting (resumes value)

theorem turn_weights {stage : StageId} {microbatch : Nat} {resume : Except String Unit → Run α}
    (split : chart.script who =
      (chart.spots who).behind ++ .backwardWeights stage microbatch :: after)
    (manned : Manned (chart.task who (chart.spots who).iteration) run)
    (asks : run.turn = .ask (.backwardWeights stage microbatch) resume)
    (resumes : ∀ later, seen ⊆ later → Choosing (chart.task who (chart.spots who).iteration) later
      ((chart.spots who).behind ++ [.backwardWeights stage microbatch]) after (resume (.ok ()))) :
    Turned moves seen cluster chart who := by
  have answer := reliable.backwardWeights member.own stage microbatch
  have moved := Drill.move?_ask drill found running asks
  have served : cluster.serve drill.callbacks who member run (.backwardWeights stage microbatch)
      resume = cluster.goOn who member
        (drill.callbacks.backwardWeights member.own stage microbatch).1 (resume (.ok ())) := by
    rw [← answer]
    rfl
  rw [served] at moved
  have sighted := drill.sighting?_ask found running asks
  rw [manned.iteration, Callbacks.deed?, answer] at sighted
  have fed := (joint.sound.scored.playable who).fed_of_weights split
  apply joint.call found opened spent split moved sighted rfl
  · exact Proper.weights drill seen who _ stage microbatch _
  · intro other micro result same
    obtain ⟨rfl, rfl, rfl⟩ := Deed.backwardWeights.inj same
    exact fed
  · exact resumes _ (List.subset_append_left ..)

theorem turn_optimizer {resume : Except String Fingerprint → Run α}
    (split : chart.script who = (chart.spots who).behind ++ .optimizerStep :: after)
    (asks : run.turn = .ask .optimize resume)
    (resumes : ∀ fingerprint later, seen ⊆ later →
      Choosing (chart.task who (chart.spots who).iteration) later
        ((chart.spots who).behind ++ [.optimizerStep]) after (resume (.ok fingerprint))) :
    Turned moves seen cluster chart who := by
  obtain ⟨fingerprint, answer⟩ := reliable.optimize member.own
  have moved := Drill.move?_ask drill found running asks
  have served : cluster.serve drill.callbacks who member run .optimize resume =
      cluster.goOn who member (drill.callbacks.optimize member.own).1
        (resume (.ok fingerprint)) := by
    rw [← answer]
    rfl
  rw [served] at moved
  have unseen : drill.sighting? cluster who = none := drill.sighting?_ask found running asks
  exact joint.quiet found opened (by omega) (by omega) split rfl rfl moved unseen
    (resumes fingerprint seen (List.Subset.refl _))

theorem turn_send {peer : Nat} {transfer : Transfer} {tag : Tag} {payload : α}
    {resume : Except DeliveryFault Unit → Run α}
    (split : chart.script who = (chart.spots who).behind ++ .send peer transfer :: after)
    (asks : run.turn = .ask (.send peer tag payload) resume)
    (tags : transfer.tag drill.plan.microbatches (attemptEpoch (chart.spots who).iteration 0) =
      .ok tag)
    (meant : Meant drill.plan.layout seen (chart.spots who).iteration transfer.entry payload)
    (resumes : ∀ later, seen ⊆ later → Choosing (chart.task who (chart.spots who).iteration) later
      ((chart.spots who).behind ++ [.send peer transfer]) after (resume (.ok ()))) :
    Turned moves seen cluster chart who := by
  obtain ⟨replica, equipped, _⟩ := joint.attended who member found
  obtain ⟨mesh, payloads, carried⟩ := joint.carried
  have listed : .send peer transfer ∈ chart.script who := by simp [split]
  have inside : peer < mesh.size := by
    rw [carried.size]
    exact (joint.sound.ranks_of_send listed).2
  obtain ⟨mesh', delivered, size, allOpen, added, others⟩ :=
    Mesh.send_ok carried.opened inside who tag payload
  obtain ⟨own, clear⟩ : ∃ own, drill.callbacks.obstruct member.own .send peer = (own, none) :=
    ⟨_, Prod.ext rfl (reliable.clear member.own .send peer)⟩
  have moved := Drill.move?_ask drill found running asks
  have served : cluster.serve drill.callbacks who member run (.send peer tag payload) resume =
      (cluster.putPayloads member.replica mesh').goOn who member own (resume (.ok ())) := by
    simp only [Cluster.serve, clear, Cluster.payloadMesh_of payloads replica, equipped.placed,
      delivered]
  rw [served] at moved
  have stillCarried : Carried (chart.put who ((chart.spots who).executed (.send peer transfer)))
      seen mesh' :=
    carried.sent joint.sound (List.Subset.refl _) split rfl rfl rfl tags meant size allOpen added
      others
  have stillWitnessed :
      Witnessed (chart.put who ((chart.spots who).executed (.send peer transfer))) seen :=
    joint.witnessed.advanced (joint.sound.begun who) rfl rfl rfl
  have unseen : drill.sighting? cluster who = none := drill.sighting?_ask found running asks
  refine joint.execute found { member with own := own, activity := .running (resume (.ok ())) }
    opened (by omega) (by omega) split (List.Subset.refl _) ?_ stillCarried stillWitnessed
    (resumes seen (List.Subset.refl _)) replica equipped rfl moved ?_ rfl
    (Cluster.putPayloads_of payloads replica mesh')
  · intro other another same
    cases same
  · rw [unseen, Option.toList_none, List.append_nil]

theorem turn_receive {peer : Nat} {transfer : Transfer} {tag : Tag}
    {resume : Except DeliveryFault α → Run α}
    (poised : Poised (chart.task who (chart.spots who).iteration) seen
      (chart.spots who).behind after
      (.receive peer transfer) run)
    (asks : run.turn = .ask (.receive peer tag) resume) : Turned moves seen cluster chart who := by
  obtain ⟨replica, equipped, _⟩ := joint.attended who member found
  obtain ⟨own, clear⟩ : ∃ own, drill.callbacks.obstruct member.own .receive peer = (own, none) :=
    ⟨_, Prod.ext rfl (reliable.clear member.own .receive peer)⟩
  have moved := Drill.move?_ask drill found running asks
  have served : cluster.serve drill.callbacks who member run (.receive peer tag) resume =
      cluster.put who { member with own := own, activity := .waiting run } := by
    simp only [Cluster.serve, clear]
  rw [served] at moved
  have unseen : drill.sighting? cluster who = none := drill.sighting?_ask found running asks
  exact joint.pause found { member with own := own, activity := .waiting run }
    (4 + 3 * (chart.spots who).behind.length) (joint.ahead (by omega)) (by omega) replica equipped
    (.waiting rfl poised opened rfl) moved unseen rfl rfl

end

/-- A receive goes on as soon as the other rank has sent. -/
theorem turn_waiting (tagged : drill.plan.layout.Tagged drill.plan.microbatches)
    (joint : Joint moves seen cluster chart) (found : cluster.members[who]? = some member)
    (waiting : member.activity = .waiting run) (opened : (chart.spots who).opened = true)
    (spent : (chart.spots who).spent = 4 + 3 * (chart.spots who).behind.length)
    {peer : Nat} {transfer : Transfer} {tag : Tag} {resume : Except DeliveryFault α → Run α}
    (split : chart.script who = (chart.spots who).behind ++ .receive peer transfer :: after)
    (asks : run.turn = .ask (.receive peer tag) resume)
    (tags : transfer.tag drill.plan.microbatches (attemptEpoch (chart.spots who).iteration 0) =
      .ok tag)
    (resumes : ∀ value later, seen ⊆ later →
      Meant drill.plan.layout later (chart.spots who).iteration transfer.entry value →
      Choosing (chart.task who (chart.spots who).iteration) later
        ((chart.spots who).behind ++ [.receive peer transfer]) after (resume (.ok value))) :
    Turned moves seen cluster chart who ∨ drill.move? cluster who = none ∧
      .send who transfer ∉ chart.done peer (chart.spots who).iteration := by
  obtain ⟨replica, equipped, _⟩ := joint.attended who member found
  obtain ⟨mesh, payloads, carried⟩ := joint.carried
  have listed : .receive peer transfer ∈ chart.script who := by simp [split]
  obtain ⟨_, source, stage, _, _, sourceKnown, known, owner, peerOwner, _⟩ :=
    (joint.sound.scored.playable who).receive_cases listed
  have inside : who < mesh.size := by
    rw [carried.size, ← owner]
    exact known.rank_lt joint.sound.scored.sound
  have peerInside : peer < mesh.size := by
    rw [carried.size, ← peerOwner]
    exact sourceKnown.rank_lt joint.sound.scored.sound
  have moved := Drill.move?_poll drill found waiting asks
  have at? := Cluster.payloadMesh_of payloads replica
  rcases Mesh.receive_cases carried.opened inside peerInside tag with
    ⟨payload, mesh', outcome, size, allOpen, taken, others⟩ | ⟨mesh', outcome, missing⟩
  · apply Or.inl
    have polled : cluster.poll? who member (.receive peer tag) resume =
        some ((cluster.putPayloads member.replica mesh').goOn who member member.own
          (resume (.ok payload))) := by
      simp only [Cluster.poll?, at?, equipped.placed, outcome]
    rw [polled] at moved
    obtain ⟨sent, meant⟩ := carried.answer tagged joint.sound opened listed tags
      (taken.mem_iff.mpr List.mem_cons_self)
    have stillCarried :
        Carried (chart.put who ((chart.spots who).executed (.receive peer transfer))) seen mesh' :=
      carried.received tagged joint.sound (List.Subset.refl _) split rfl rfl rfl tags size allOpen
        taken others
    have stillWitnessed :
        Witnessed (chart.put who ((chart.spots who).executed (.receive peer transfer))) seen :=
      joint.witnessed.advanced (joint.sound.begun who) rfl rfl rfl
    have unseen := drill.sighting?_waiting found waiting
    refine joint.execute found { member with activity := .running (resume (.ok payload)) } opened
      (by omega) (by omega) split (List.Subset.refl _) ?_ stillCarried stillWitnessed
      (resumes payload seen (List.Subset.refl _) meant) replica equipped rfl moved ?_ rfl
      (Cluster.putPayloads_of payloads replica mesh')
    · intro other another same
      obtain ⟨rfl, rfl⟩ := Operation.receive.inj same
      exact sent
    · rw [unseen, Option.toList_none, List.append_nil]
  · refine Or.inr ⟨?_, ?_⟩
    · rw [moved]
      simp only [Cluster.poll?, at?, equipped.placed, outcome]
    · have ahead : .receive peer transfer ∉ chart.done who (chart.spots who).iteration := by
        rw [Chart.done_current (joint.sound.begun who)]
        exact (joint.sound.scored.playable who).not_before split
      exact carried.unsent ahead tags missing

end Joint
end PipelineTraining
