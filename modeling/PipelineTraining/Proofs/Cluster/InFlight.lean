import PipelineTraining.Proofs.Cluster.RankDistance
import PipelineTraining.Proofs.Transport.Delivery

/-!
What is on its way. Every envelope comes from a send of an iteration close to the
one its receiver is in, and every payload that is sent and not received is held
for its receiver. Dropping what is stale keeps both.
-/

namespace PipelineTraining

variable {σ α : Type}

def Regular (plan : Plan) (transfer : Transfer) : Prop :=
  1 < plan.layout.depth ∧ ∃ (way : Way) (source target : StageId) (microbatch : Nat),
    transfer = way.transfer source target microbatch ∧ plan.layout.IsStage target ∧
    way.source plan.layout target = some source ∧ microbatch < plan.microbatches

namespace Regular

variable {plan : Plan} {transfer another : Transfer} {epoch other : UInt32} {tag : Tag}

theorem tag_ok (tagged : plan.layout.Tagged plan.microbatches) (regular : Regular plan transfer)
    (epoch : UInt32) : ∃ slot, transfer.tag plan.microbatches epoch = .ok ⟨epoch, slot⟩ := by
  obtain ⟨many, way, source, target, microbatch, rfl, known, found, inside⟩ := regular
  exact ⟨_, way.tag_transfer tagged many source known inside epoch⟩

theorem eq_of_tag (tagged : plan.layout.Tagged plan.microbatches) (regular : Regular plan transfer)
    (anotherRegular : Regular plan another)
    (tags : transfer.tag plan.microbatches epoch = .ok tag)
    (same : another.tag plan.microbatches other = .ok tag) :
    epoch = other ∧ transfer = another := by
  obtain ⟨many, way, source, target, microbatch, rfl, known, found, inside⟩ := regular
  obtain ⟨_, way', source', target', microbatch', rfl, known', found', inside'⟩ := anotherRegular
  rw [way.tag_transfer tagged many source known inside] at tags
  rw [way'.tag_transfer tagged many source' known' inside'] at same
  obtain ⟨epochs, rfl, rfl, rfl⟩ :=
    Way.tag_inj tagged many known known' inside inside' (Except.ok.inj (tags.trans same.symm))
  obtain rfl := Option.some.inj (found.symm.trans found')
  exact ⟨epochs, rfl⟩

end Regular

namespace Playable

variable {plan : Plan} {rank peer : Nat} {script : List Operation} {transfer : Transfer}

theorem regular_send (playable : Playable plan rank script)
    (member : .send peer transfer ∈ script) : Regular plan transfer := by
  obtain ⟨way, stage, target, microbatch, rfl, known, targetKnown, rfl, rfl, away, inside,
    found⟩ := playable.send_cases member
  exact ⟨targetKnown.many_of_apart known away, way, stage, target, microbatch, rfl, targetKnown,
    way.source_of_target known found, inside⟩

theorem regular_receive (playable : Playable plan rank script)
    (member : .receive peer transfer ∈ script) : Regular plan transfer := by
  obtain ⟨way, source, stage, microbatch, rfl, sourceKnown, known, rfl, rfl, away, inside,
    found⟩ := playable.receive_cases member
  exact ⟨sourceKnown.many_of_apart known away, way, source, stage, microbatch, rfl, known, found,
    inside⟩

end Playable

def Spot.Reaches (spot : Spot) (iteration : Nat) : Prop :=
  iteration ≤ spot.iteration + 1 ∧ spot.iteration ≤ iteration + 1 ∧
    (spot.opened = true → spot.iteration ≤ iteration)

def Posted {drill : Drill σ α} (chart : Chart drill) (seen : List (Sighting α)) (who : Nat)
    (envelope : Envelope α) : Prop :=
  ∃ iteration transfer, .send who transfer ∈ chart.done envelope.source iteration ∧
    transfer.tag drill.plan.microbatches (attemptEpoch iteration 0) = .ok envelope.tag ∧
    Meant drill.plan.layout seen iteration transfer.entry envelope.payload ∧
    (chart.spots who).Reaches iteration

structure Carried {drill : Drill σ α} (chart : Chart drill) (seen : List (Sighting α))
    (mesh : Mesh α) : Prop where
  size : mesh.size = drill.plan.layout.depth
  opened : mesh.AllOpen
  posted : ∀ who, ∀ envelope ∈ mesh.held who, Posted chart seen who envelope
  kept : ∀ who peer iteration transfer tag, .send who transfer ∈ chart.done peer iteration →
    .receive peer transfer ∉ chart.done who iteration →
    transfer.tag drill.plan.microbatches (attemptEpoch iteration 0) = .ok tag →
    ∃ envelope ∈ mesh.held who, envelope.source = peer ∧ envelope.tag = tag

variable {drill : Drill σ α} {chart : Chart drill} {seen later : List (Sighting α)} {mesh : Mesh α}
  {who peer iteration : Nat} {transfer : Transfer} {operation : Operation} {spot : Spot}

namespace Chart.Sound

theorem regular_send (sound : chart.Sound)
    (member : .send peer transfer ∈ chart.done who iteration) : Regular drill.plan transfer :=
  (sound.scored.playable who).regular_send ((sound.done_begins who iteration).subset member)

theorem regular_receive (sound : chart.Sound) (member : .receive peer transfer ∈ chart.script who) :
    Regular drill.plan transfer :=
  (sound.scored.playable who).regular_receive member

theorem ranks_of_send (sound : chart.Sound) (member : .send peer transfer ∈ chart.script who) :
    who < drill.plan.layout.depth ∧ peer < drill.plan.layout.depth := by
  obtain ⟨_, _, _, _, _, known, targetKnown, rfl, rfl, _⟩ :=
    (sound.scored.playable who).send_cases member
  exact ⟨known.rank_lt sound.scored.sound, targetKnown.rank_lt sound.scored.sound⟩

/-- What is sent and not received yet is of the receiver's iteration or the next. -/
theorem pending_near (sound : chart.Sound)
    (sent : .send who transfer ∈ chart.done peer iteration)
    (missing : .receive peer transfer ∉ chart.done who iteration) :
    iteration = (chart.spots who).iteration ∨ iteration = (chart.spots who).iteration + 1 := by
  have listed := (sound.done_begins peer iteration).subset sent
  obtain ⟨peerInside, inside⟩ := sound.ranks_of_send listed
  have near := sound.spread peerInside inside
  have range := range_of_done sent
  have current : (chart.spots who).iteration ≤ iteration := by
    by_contra past
    rw [done_before range.1 (by omega)] at missing
    exact missing (sound.receive_of_send listed)
  omega

end Chart.Sound

namespace Carried

theorem unchanged {chart' : Chart drill} (carried : Carried chart seen mesh) (more : seen ⊆ later)
    (same : ∀ other iteration, chart'.done other iteration = chart.done other iteration)
    (reach : ∀ other iteration, (chart.spots other).Reaches iteration →
      (chart'.spots other).Reaches iteration) : Carried chart' later mesh := by
  constructor
  · exact carried.size
  · exact carried.opened
  · intro other envelope member
    obtain ⟨iteration, transfer, sent, tags, meant, reached⟩ := carried.posted other envelope member
    exact ⟨iteration, transfer, (same ..).symm ▸ sent, tags, meant.mono more, reach _ _ reached⟩
  · intro other peer iteration transfer tag sent missing tags
    rw [same] at sent missing
    exact carried.kept other peer iteration transfer tag sent missing tags

theorem reaches_put (iterations : spot.iteration = (chart.spots who).iteration)
    (opened : spot.opened = (chart.spots who).opened) (other iteration : Nat) :
    ((chart.put who spot).spots other).Reaches iteration ↔
      (chart.spots other).Reaches iteration := by
  by_cases here : other = who
  · subst here
    rw [Chart.put_self, Spot.Reaches, Spot.Reaches, iterations, opened]
  · rw [Chart.put_other here]

/-- Whoever drops what is stale loses nothing that is still to be received. -/
theorem dropped {next : Mesh α} (tagged : drill.plan.layout.Tagged drill.plan.microbatches)
    (sound : chart.Sound) (carried : Carried chart seen mesh)
    (iterations : spot.iteration = (chart.spots who).iteration)
    (same : spot.behind = (chart.spots who).behind) (size : next.size = mesh.size)
    (opened : next.AllOpen)
    (left : next.held who = (mesh.held who).filter fun envelope =>
      !envelope.tag.isStale (attemptEpoch (chart.spots who).iteration 0))
    (others : ∀ other, who ≠ other → next.held other = mesh.held other) :
    Carried (chart.put who spot) seen next := by
  have dones := Chart.done_put_same iterations same
  constructor
  · exact size.trans carried.size
  · exact opened
  · intro other envelope member
    by_cases here : other = who
    · subst here
      rw [left, List.mem_filter] at member
      obtain ⟨iteration, transfer, sent, tags, meant, ahead, near, _⟩ :=
        carried.posted other envelope member.1
      refine ⟨iteration, transfer, (dones ..).symm ▸ sent, tags, meant, ?_⟩
      -- A payload of the iteration before would have been stale, and an older one cannot be left.
      have current : (chart.spots other).iteration ≤ iteration := by
        by_contra past
        obtain ⟨slot, regular⟩ := (sound.regular_send sent).tag_ok tagged (attemptEpoch iteration 0)
        have tag := Except.ok.inj (tags.symm.trans regular)
        have stale := stale_of_previous iteration slot
        rw [show iteration + 1 = (chart.spots other).iteration by omega] at stale
        rw [tag, stale] at member
        cases member.2
      rw [Chart.put_self, Spot.Reaches, iterations]
      exact ⟨ahead, near, fun _ => current⟩
    · rw [others other (Ne.symm here)] at member
      obtain ⟨iteration, transfer, sent, tags, meant, reached⟩ :=
        carried.posted other envelope member
      refine ⟨iteration, transfer, (dones ..).symm ▸ sent, tags, meant, ?_⟩
      rwa [Chart.put_other here]
  · intro other peer iteration transfer tag sent missing tags
    rw [dones] at sent missing
    obtain ⟨envelope, member, source, label⟩ :=
      carried.kept other peer iteration transfer tag sent missing tags
    by_cases here : other = who
    · subst here
      refine ⟨envelope, ?_, source, label⟩
      obtain ⟨slot, regular⟩ := (sound.regular_send sent).tag_ok tagged (attemptEpoch iteration 0)
      have named : envelope.tag = ⟨attemptEpoch iteration 0, slot⟩ :=
        label.trans (Except.ok.inj (tags.symm.trans regular))
      rw [left, List.mem_filter]
      refine ⟨member, ?_⟩
      -- What is still to be received is of this iteration or the next, so it is not stale.
      rw [named, fresh_of_near slot (sound.pending_near sent missing)]
      rfl
    · exact ⟨envelope, (others other (Ne.symm here)).symm ▸ member, source, label⟩

/-- What answers a receive is the payload of its send. -/
theorem answer {tag : Tag} {payload : α} (tagged : drill.plan.layout.Tagged drill.plan.microbatches)
    (sound : chart.Sound) (carried : Carried chart seen mesh)
    (opened : (chart.spots who).opened = true)
    (listed : .receive peer transfer ∈ chart.script who)
    (tags : transfer.tag drill.plan.microbatches (attemptEpoch (chart.spots who).iteration 0) =
      .ok tag) (member : ⟨peer, tag, payload⟩ ∈ mesh.held who) :
    .send who transfer ∈ chart.done peer (chart.spots who).iteration ∧
      Meant drill.plan.layout seen (chart.spots who).iteration transfer.entry payload := by
  obtain ⟨iteration, another, sent, anotherTags, meant, ahead, _, current⟩ :=
    carried.posted who _ member
  obtain ⟨epochs, rfl⟩ :=
    (sound.regular_receive listed).eq_of_tag tagged (sound.regular_send sent) tags anotherTags
  -- Payloads kept are at most one iteration ahead, so equal epochs are equal iterations.
  have near := current opened
  obtain rfl := attemptEpoch_inj ⟨by omega, by omega⟩ epochs
  exact ⟨sent, meant⟩

/-- As long as nothing answers a receive that is still ahead, its payload is not sent. -/
theorem unsent {tag : Tag} (carried : Carried chart seen mesh)
    (ahead : .receive peer transfer ∉ chart.done who iteration)
    (tags : transfer.tag drill.plan.microbatches (attemptEpoch iteration 0) = .ok tag)
    (missing : ∀ envelope ∈ mesh.held who, envelope.answers peer tag = false) :
    .send who transfer ∉ chart.done peer iteration := by
  intro sent
  obtain ⟨envelope, member, source, label⟩ :=
    carried.kept who peer iteration transfer tag sent ahead tags
  have answers := Envelope.answers_iff.mpr ⟨source, label⟩
  rw [missing envelope member] at answers
  cases answers

section
variable (sound : chart.Sound) (iterations : spot.iteration = (chart.spots who).iteration)
  (opened : spot.opened = (chart.spots who).opened)
  (longer : spot.behind = (chart.spots who).behind ++ [operation])

include sound iterations opened longer

theorem posted_put {other : Nat} {envelope : Envelope α} (more : seen ⊆ later)
    (posted : Posted chart seen other envelope) :
    Posted (chart.put who spot) later other envelope := by
  obtain ⟨iteration, transfer, sent, tags, meant, reached⟩ := posted
  exact ⟨iteration, transfer,
    (Chart.mem_done_put (sound.begun who) iterations longer ..).mpr (Or.inl sent), tags,
    meant.mono more, (reaches_put iterations opened other iteration).mpr reached⟩

theorem advanced (carried : Carried chart seen mesh) (more : seen ⊆ later)
    (unsent : ∀ peer transfer, operation ≠ .send peer transfer) :
    Carried (chart.put who spot) later mesh := by
  constructor
  · exact carried.size
  · exact carried.opened
  · exact fun other envelope member =>
      posted_put sound iterations opened longer more (carried.posted other envelope member)
  · intro other peer iteration transfer tag sent missing tags
    have members := Chart.mem_done_put (sound.begun who) iterations longer
    refine carried.kept other peer iteration transfer tag ?_ ?_ tags
    · rcases (members ..).mp sent with old | ⟨_, _, same⟩
      · exact old
      · exact absurd same.symm (unsent other transfer)
    · exact fun received => missing ((members ..).mpr (Or.inl received))

end

theorem sent {next : Mesh α} {tag : Tag} {payload : α} {after : List Operation}
    (sound : chart.Sound) (carried : Carried chart seen mesh) (more : seen ⊆ later)
    (split : chart.script who = (chart.spots who).behind ++ .send peer transfer :: after)
    (iterations : spot.iteration = (chart.spots who).iteration)
    (opened : spot.opened = (chart.spots who).opened)
    (longer : spot.behind = (chart.spots who).behind ++ [.send peer transfer])
    (tags : transfer.tag drill.plan.microbatches (attemptEpoch (chart.spots who).iteration 0) =
      .ok tag)
    (meant : Meant drill.plan.layout later (chart.spots who).iteration transfer.entry payload)
    (size : next.size = mesh.size) (allOpen : next.AllOpen)
    (added : next.held peer = mesh.held peer ++ [⟨who, tag, payload⟩])
    (others : ∀ other, peer ≠ other → next.held other = mesh.held other) :
    Carried (chart.put who spot) later next := by
  have members := Chart.mem_done_put (sound.begun who) iterations longer
  -- Sending takes nothing away.
  have held : ∀ {other}, ∀ envelope ∈ mesh.held other, envelope ∈ next.held other := by
    intro other envelope member
    by_cases here : peer = other
    · subst here
      rw [added]
      exact List.mem_append_left _ member
    · rwa [others other here]
  constructor
  · exact size.trans carried.size
  · exact allOpen
  · intro other envelope member
    by_cases here : peer = other
    · subst here
      rw [added] at member
      rcases List.mem_append.mp member with old | new
      · exact posted_put sound iterations opened longer more (carried.posted peer envelope old)
      · obtain rfl := List.mem_singleton.mp new
        refine ⟨_, transfer, (members ..).mpr (Or.inr ⟨rfl, rfl, rfl⟩), tags, meant, ?_⟩
        rw [reaches_put iterations opened]
        have listed : .send peer transfer ∈ chart.script who := by simp [split]
        obtain ⟨inside, peerInside⟩ := sound.ranks_of_send listed
        have near := sound.spread inside peerInside
        -- Had the receiver gone on to its next iteration, the send would be behind already.
        have current : (chart.spots peer).iteration ≤ (chart.spots who).iteration := by
          by_contra past
          have received := sound.receive_of_send listed
          rw [← Chart.done_before (sound.begun who) (by omega)] at received
          have behind := sound.causal _ _ _ _ received
          rw [Chart.done_current (sound.begun who)] at behind
          exact (sound.scored.playable who).not_before split behind
        exact ⟨near, by omega, fun _ => current⟩
    · rw [others other here] at member
      exact posted_put sound iterations opened longer more (carried.posted other envelope member)
  · intro other sender iteration another tag' sent missing tags'
    rcases (members ..).mp sent with old | ⟨rfl, rfl, same⟩
    · obtain ⟨envelope, member, source, label⟩ :=
        carried.kept other sender iteration another tag' old
          (fun received => missing ((members ..).mpr (Or.inl received))) tags'
      exact ⟨envelope, held envelope member, source, label⟩
    · obtain ⟨rfl, rfl⟩ := Operation.send.inj same
      refine ⟨⟨sender, tag, payload⟩, ?_, rfl, Except.ok.inj (tags.symm.trans tags')⟩
      rw [added]
      exact List.mem_append_right _ List.mem_cons_self

theorem received {next : Mesh α} {tag : Tag} {payload : α} {after : List Operation}
    (tagged : drill.plan.layout.Tagged drill.plan.microbatches)
    (sound : chart.Sound) (carried : Carried chart seen mesh) (more : seen ⊆ later)
    (split : chart.script who = (chart.spots who).behind ++ .receive peer transfer :: after)
    (iterations : spot.iteration = (chart.spots who).iteration)
    (opened : spot.opened = (chart.spots who).opened)
    (longer : spot.behind = (chart.spots who).behind ++ [.receive peer transfer])
    (tags : transfer.tag drill.plan.microbatches (attemptEpoch (chart.spots who).iteration 0) =
      .ok tag)
    (size : next.size = mesh.size) (allOpen : next.AllOpen)
    (taken : (mesh.held who).Perm (⟨peer, tag, payload⟩ :: next.held who))
    (others : ∀ other, who ≠ other → next.held other = mesh.held other) :
    Carried (chart.put who spot) later next := by
  have members := Chart.mem_done_put (sound.begun who) iterations longer
  constructor
  · exact size.trans carried.size
  · exact allOpen
  · intro other envelope member
    refine posted_put sound iterations opened longer more (carried.posted other envelope ?_)
    by_cases here : who = other
    · subst here
      exact taken.mem_iff.mpr (List.mem_cons_of_mem _ member)
    · rwa [others other here] at member
  · intro other sender iteration another tag' sent missing tags'
    have sentBefore : .send other another ∈ chart.done sender iteration := by
      rcases (members ..).mp sent with old | ⟨_, _, same⟩
      · exact old
      · cases same
    have missingBefore : .receive sender another ∉ chart.done other iteration :=
      fun received => missing ((members ..).mpr (Or.inl received))
    obtain ⟨envelope, member, source, label⟩ :=
      carried.kept other sender iteration another tag' sentBefore missingBefore tags'
    by_cases here : who = other
    · subst here
      refine ⟨envelope, ?_, source, label⟩
      rcases List.mem_cons.mp (taken.mem_iff.mp member) with first | rest
      · -- The envelope that was taken is the one of the receive, so nothing is missing.
        subst first
        obtain rfl := source
        obtain rfl := label
        have listed : .receive peer transfer ∈ chart.script who := by simp [split]
        obtain ⟨epochs, rfl⟩ := (sound.regular_receive listed).eq_of_tag tagged
          (sound.regular_send sentBefore) tags tags'
        have near := sound.pending_near sentBefore missingBefore
        obtain rfl := attemptEpoch_inj ⟨by omega, by omega⟩ epochs
        exact absurd ((members ..).mpr (Or.inr ⟨rfl, rfl, rfl⟩)) missing
      · exact rest
    · exact ⟨envelope, (others other here).symm ▸ member, source, label⟩

end Carried
end PipelineTraining
