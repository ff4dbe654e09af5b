import PipelineTraining.Proofs.Cluster.Readiness
import PipelineTraining.Proofs.Engine.Increments

/-!
What the ranks of one replica send one another in the attempts of a step. A rank only gets
what another one has sent in the same attempt, and what it has not got yet is held for it.
-/

namespace PipelineTraining

open Course

variable {α β : Type}

inductive Mesh.Answers (mesh : Mesh β) (who : Nat) : Option (Errand β) → Mesh β → Prop
  | none : Answers mesh who none mesh
  | drop {epoch : UInt32} :
      Answers mesh who (some (.drop epoch)) (mesh.discard who (·.isStale epoch)).2
  | sent {peer : Nat} {tag : Tag} {payload : β} {next : Mesh β}
      (sent : mesh.send who peer tag payload = .ok next) :
      Answers mesh who (some (.send peer tag payload (.ok ()))) next
  | refused {peer : Nat} {tag : Tag} {payload : β} {fault : DeliveryFault}
      (refused : mesh.send who peer tag payload = .error fault) :
      Answers mesh who (some (.send peer tag payload (.error fault))) mesh
  | received {peer : Nat} {tag : Tag} {payload : β} {next : Mesh β}
      (found : mesh.receive who peer tag = .ok (some payload, next)) :
      Answers mesh who (some (.receive peer tag (.ok payload))) next
  | strayed {peer : Nat} {tag : Tag} {fault : DeliveryFault}
      (strayed : mesh.receive who peer tag = .error fault) :
      Answers mesh who (some (.receive peer tag (.error fault))) mesh

namespace Errand

def peer? : Errand β → Option Nat
  | .drop _ => none
  | .send peer _ _ _ => some peer
  | .receive peer _ _ => some peer

def succeeds : Errand β → Bool
  | .send _ _ _ (.error _) => false
  | .receive _ _ (.error _) => false
  | _ => true

end Errand

namespace Mesh

variable {mesh next : Mesh β} {who : Nat}

theorem Answers.succeeds {errand : Errand β} (answers : mesh.Answers who (some errand) next)
    (opened : mesh.AllOpen) (inside : ∀ peer ∈ errand.peer?, peer < mesh.size) :
    errand.succeeds = true := by
  cases answers with
  | drop | sent | received => rfl
  | @refused peer tag payload fault refused =>
      obtain ⟨_, sent, -⟩ := send_ok opened (inside peer rfl) who tag payload
      rw [refused] at sent
      cases sent
  | @strayed peer tag fault strayed =>
      rcases receive_split (inside peer rfl) who tag with ⟨_, _, _, _, found, -⟩ | ⟨_, missed, -⟩
      · rw [strayed] at found
        cases found
      · rw [strayed] at missed
        cases missed

theorem found_of_held {source : Nat} {tag : Tag} {payload : β} (inside : source < mesh.size)
    (held : ⟨source, tag, payload⟩ ∈ mesh.held who) :
    ∃ payload next, mesh.receive who source tag = .ok (some payload, next) := by
  rcases receive_split inside who tag with ⟨payload, next, _, _, found, -⟩ | ⟨_, _, _, unlike⟩
  · exact ⟨payload, next, found⟩
  · have answers : (⟨source, tag, payload⟩ : Envelope β).answers source tag = true :=
      Envelope.answers_iff.mpr ⟨rfl, rfl⟩
    rw [unlike _ held] at answers
    cases answers

end Mesh

structure Freight (plan : Plan) (course : List (Nat × Operation)) (iteration : Nat)
    (done : Nat → Nat → List Operation) (mesh : Mesh α) : Prop where
  size : mesh.size = plan.layout.depth
  opened : mesh.AllOpen
  scripts : ∀ rank < plan.layout.depth, ∀ attempt, done rank attempt <+: partOf rank course
  /-- What a rank has received was sent to it. -/
  causal : ∀ rank < plan.layout.depth, ∀ attempt peer transfer,
    .receive peer transfer ∈ done rank attempt → .send rank transfer ∈ done peer attempt
  /-- What is held for a rank was sent to it. -/
  sourced : ∀ rank < plan.layout.depth, ∀ envelope ∈ mesh.held rank,
    envelope.source < plan.layout.depth ∧ ∃ attempt ≤ 1, ∃ transfer,
      .send rank transfer ∈ done envelope.source attempt ∧
      transfer.tag plan.microbatches (attemptEpoch iteration attempt) = .ok envelope.tag
  /-- What was sent to a rank and not received is held for it. -/
  kept : ∀ rank < plan.layout.depth, ∀ peer < plan.layout.depth, ∀ attempt ≤ 1, ∀ transfer tag,
    .send rank transfer ∈ done peer attempt → .receive peer transfer ∉ done rank attempt →
    transfer.tag plan.microbatches (attemptEpoch iteration attempt) = .ok tag →
    ∃ payload, ⟨peer, tag, payload⟩ ∈ mesh.held rank

theorem attemptEpoch_inj_of_same {iteration attempt another : Nat} (few : attempt ≤ 1)
    (fewToo : another ≤ 1)
    (same : attemptEpoch iteration attempt = attemptEpoch iteration another) :
    attempt = another := by
  have ahead : iteration < iteration + 1 := Nat.lt_succ_self iteration
  exact (attemptEpoch_inj_of_few (by decide) (Nat.le_refl _) ahead (Nat.le_refl _) ahead few fewToo
    same).2

/-- The first attempt is earlier on the circle than the second. -/
theorem attemptEpoch_before_iff {iteration attempt another : Nat} (few : attempt ≤ 1)
    (fewToo : another ≤ 1) :
    EpochBefore (attemptEpoch iteration attempt) (attemptEpoch iteration another) ↔
      attempt < another := by
  have ordered : ∀ {one other : Nat}, one ≤ 1 → other ≤ 1 → one < other →
      EpochBefore (attemptEpoch iteration one) (attemptEpoch iteration other) :=
    fun low lowToo ahead => attemptEpoch_before (by omega) low lowToo (Or.inr ⟨rfl, ahead⟩)
  refine ⟨fun before => ?_, ordered few fewToo⟩
  rcases Nat.lt_trichotomy attempt another with ahead | rfl | behind
  · exact ahead
  · exact absurd rfl before.ne
  · exact absurd before (ordered fewToo few behind).not_symm

namespace Freight

variable {plan : Plan} {course : List (Nat × Operation)} {iteration who : Nat}
  {done onward : Nat → Nat → List Operation} {mesh next : Mesh α} {run after : Run α}
  {errand : Option (Errand α)}

structure Advances (plan : Plan) (done onward : Nat → Nat → List Operation) (who : Nat)
    (run after : Run α) : Prop where
  before : ∀ attempt, done who attempt = run.done attempt
  after : ∀ attempt, onward who attempt = after.done attempt
  others : ∀ rank < plan.layout.depth, rank ≠ who → ∀ attempt,
    onward rank attempt = done rank attempt

theorem Advances.mem_adds (advances : Advances plan done onward who run after) {attempt : Nat}
    {operation : Operation} (adds : run.Adds after attempt operation) {rank other : Nat}
    (inside : rank < plan.layout.depth) {another : Operation} :
    another ∈ onward rank other ↔
      another ∈ done rank other ∨ rank = who ∧ other = attempt ∧ another = operation := by
  by_cases here : rank = who
  · subst here
    rw [advances.after, advances.before, adds other, List.mem_append]
    by_cases same : other = attempt <;> simp [same]
  · simp [advances.others rank inside here, here]

theorem Advances.same (advances : Advances plan done onward who run after)
    (same : ∀ attempt, after.done attempt = run.done attempt) {rank : Nat}
    (inside : rank < plan.layout.depth) (attempt : Nat) :
    onward rank attempt = done rank attempt := by
  by_cases here : rank = who
  · rw [here, advances.after, advances.before, same]
  · exact advances.others rank inside here attempt

theorem start (count : mesh.size = plan.layout.depth) (opened : mesh.AllOpen)
    (empty : ∀ rank, mesh.held rank = [])
    (idle : ∀ rank < plan.layout.depth, ∀ attempt, done rank attempt = []) :
    Freight plan course iteration done mesh := by
  refine ⟨count, opened, ?_, ?_, ?_, ?_⟩
  · intro rank inside attempt
    rw [idle rank inside]
    exact List.nil_prefix
  · intro rank inside attempt peer transfer received
    rw [idle rank inside] at received
    cases received
  · intro rank inside envelope held
    rw [empty] at held
    cases held
  · intro rank inside peer peerInside attempt few transfer tag sent
    rw [idle peer peerInside] at sent
    cases sent

theorem looked (freight : Freight plan course iteration done mesh) {peer : Nat} {tag : Tag}
    (missing : mesh.receive who peer tag = .ok (none, next)) :
    Freight plan course iteration done next := by
  have held := (Mesh.held_miss missing).1
  refine ⟨?_, ?_, freight.scripts, freight.causal, ?_, ?_⟩
  · rw [Mesh.receive_eq missing, Mesh.size_update]
    exact freight.size
  · rw [Mesh.receive_eq missing]
    exact freight.opened.update fun endpoint _ => endpoint.claim_isOpen ..
  · intro rank
    rw [held]
    exact freight.sourced rank
  · intro rank
    rw [held]
    exact freight.kept rank

theorem mem_script (freight : Freight plan course iteration done mesh) {rank attempt : Nat}
    {operation : Operation} (inside : rank < plan.layout.depth)
    (member : operation ∈ done rank attempt) : operation ∈ partOf rank course :=
  (freight.scripts rank inside attempt).subset member

section
variable (scored : Scored plan course)

include scored

theorem congr (freight : Freight plan course iteration done mesh)
    (scripts : ∀ rank < plan.layout.depth, ∀ attempt, onward rank attempt <+: partOf rank course)
    (same : ∀ rank < plan.layout.depth, ∀ attempt operation, operation.isTransfer = true →
      (operation ∈ onward rank attempt ↔ operation ∈ done rank attempt)) :
    Freight plan course iteration onward mesh := by
  refine ⟨freight.size, freight.opened, scripts, ?_, ?_, ?_⟩
  · intro rank inside attempt peer transfer received
    have before := (same rank inside _ _ rfl).mp received
    have peerInside := scored.inside_of_part
      (scored.send_of_receive (freight.mem_script inside before))
    exact (same peer peerInside _ _ rfl).mpr (freight.causal rank inside _ _ _ before)
  · intro rank inside envelope held
    obtain ⟨source, attempt, few, transfer, sent, tags⟩ := freight.sourced rank inside envelope held
    exact ⟨source, attempt, few, transfer, (same _ source _ _ rfl).mpr sent, tags⟩
  · intro rank inside peer peerInside attempt few transfer tag sent missing tags
    exact freight.kept rank inside peer peerInside attempt few transfer tag
      ((same peer peerInside _ _ rfl).mp sent)
      (fun received => missing ((same rank inside _ _ rfl).mpr received)) tags

/-- What a rank drops as it begins an attempt is of no use to it any more. -/
theorem dropped (tagged : plan.layout.Tagged plan.microbatches)
    (freight : Freight plan course iteration done mesh) {attempt : Nat} (few : attempt ≤ 1)
    (through : ∀ earlier < attempt, done who earlier = partOf who course) :
    Freight plan course iteration done
      (mesh.discard who (·.isStale (attemptEpoch iteration attempt))).2 := by
  obtain ⟨size, opened, -⟩ := Mesh.discard_held freight.opened who
    (·.isStale (attemptEpoch iteration attempt))
  refine ⟨size.trans freight.size, opened, freight.scripts, freight.causal, ?_, ?_⟩
  · intro rank inside envelope held
    exact freight.sourced rank inside envelope (Mesh.held_discard_subset _ _ _ _ held)
  · intro rank inside peer peerInside another fewToo transfer tag sent missing tags
    obtain ⟨payload, held⟩ := freight.kept rank inside peer peerInside another fewToo transfer tag
      sent missing tags
    refine ⟨payload, ?_⟩
    rw [Mesh.held_discard]
    split
    · next here =>
      subst here
      refine List.mem_filter.mpr ⟨held, ?_⟩
      have listed := freight.mem_script peerInside sent
      obtain ⟨slot, labelled⟩ :=
        ((scored.playable peer).regular_send listed).tag_ok tagged (attemptEpoch iteration another)
      obtain rfl := Except.ok.inj (labelled.symm.trans tags)
      -- What the rank has been through it has received.
      have current : ¬ another < attempt := by
        intro past
        rw [through another past] at missing
        exact missing (scored.receive_of_send listed)
      rw [Bool.not_eq_true', ← Bool.not_eq_true, isStale_iff_before,
        attemptEpoch_before_iff fewToo few]
      exact current
    · exact held

section
variable {attempt peer : Nat} {transfer : Transfer} {tag : Tag} {payload : α}

theorem sent (freight : Freight plan course iteration done mesh) (inside : who < plan.layout.depth)
    (scripts : ∀ rank < plan.layout.depth, ∀ attempt, onward rank attempt <+: partOf rank course)
    (few : attempt ≤ 1)
    (tags : transfer.tag plan.microbatches (attemptEpoch iteration attempt) = .ok tag)
    (adds : ∀ rank < plan.layout.depth, ∀ other operation, operation ∈ onward rank other ↔
      operation ∈ done rank other ∨
        rank = who ∧ other = attempt ∧ operation = .send peer transfer)
    (sends : mesh.send who peer tag payload = .ok next) :
    Freight plan course iteration onward next := by
  have more : ∀ rank < plan.layout.depth, ∀ other operation,
      operation ∈ done rank other → operation ∈ onward rank other :=
    fun rank within other operation old => (adds rank within other operation).mpr (Or.inl old)
  have same := Mesh.send_eq sends
  refine ⟨?_, ?_, scripts, ?_, ?_, ?_⟩
  · rw [same, Mesh.size_update]
    exact freight.size
  · rw [same]
    exact freight.opened.update fun _ _ => rfl
  · intro rank within other source another received
    rcases (adds rank within _ _).mp received with old | ⟨_, _, new⟩
    · have sourceInside := scored.inside_of_part
        (scored.send_of_receive (freight.mem_script within old))
      exact more source sourceInside _ _ (freight.causal rank within _ _ _ old)
    · cases new
  · intro rank within envelope held
    rcases Mesh.mem_held_send sends held with old | ⟨rfl, rfl⟩
    · obtain ⟨source, other, fewToo, another, sent, tagsToo⟩ :=
        freight.sourced rank within envelope old
      exact ⟨source, other, fewToo, another, more _ source _ _ sent, tagsToo⟩
    · exact ⟨inside, attempt, few, transfer, (adds who inside _ _).mpr (Or.inr ⟨rfl, rfl, rfl⟩),
        tags⟩
  · intro rank within source sourceInside other fewToo another label sent missing tagsToo
    rw [Mesh.held_send sends]
    rcases (adds source sourceInside _ _).mp sent with old | ⟨rfl, rfl, new⟩
    · obtain ⟨payload, held⟩ := freight.kept rank within source sourceInside other fewToo another
        label old (fun received => missing (more rank within _ _ received)) tagsToo
      exact ⟨payload, List.mem_append_left _ held⟩
    · obtain ⟨rfl, rfl⟩ := Operation.send.inj new
      obtain rfl := Except.ok.inj (tags.symm.trans tagsToo)
      rw [if_pos rfl]
      exact ⟨payload, List.mem_append_right _ List.mem_cons_self⟩

theorem received (tagged : plan.layout.Tagged plan.microbatches)
    (freight : Freight plan course iteration done mesh) (inside : who < plan.layout.depth)
    (scripts : ∀ rank < plan.layout.depth, ∀ attempt, onward rank attempt <+: partOf rank course)
    (few : attempt ≤ 1)
    (tags : transfer.tag plan.microbatches (attemptEpoch iteration attempt) = .ok tag)
    (adds : ∀ rank < plan.layout.depth, ∀ other operation, operation ∈ onward rank other ↔
      operation ∈ done rank other ∨
        rank = who ∧ other = attempt ∧ operation = .receive peer transfer)
    (found : mesh.receive who peer tag = .ok (some payload, next)) :
    Freight plan course iteration onward next := by
  have more : ∀ rank < plan.layout.depth, ∀ other operation,
      operation ∈ done rank other → operation ∈ onward rank other :=
    fun rank within other operation old => (adds rank within other operation).mpr (Or.inl old)
  obtain ⟨fewer, brought⟩ := Mesh.held_receive found
  have now : .receive peer transfer ∈ onward who attempt :=
    (adds who inside _ _).mpr (Or.inr ⟨rfl, rfl, rfl⟩)
  have listed := (scripts who inside attempt).subset now
  have alike : ∀ source other another, other ≤ 1 → .send who another ∈ partOf source course →
      another.tag plan.microbatches (attemptEpoch iteration other) = .ok tag →
      other = attempt ∧ another = transfer := by
    intro source other another fewToo sent tagsToo
    -- A tag is that of one transfer in one attempt.
    obtain ⟨epochs, rfl⟩ := ((scored.playable who).regular_receive listed).eq_of_tag tagged
      ((scored.playable source).regular_send sent) tags tagsToo
    exact ⟨attemptEpoch_inj_of_same fewToo few epochs.symm, rfl⟩
  obtain ⟨peerInside, other, fewToo, another, sent, tagsToo⟩ :=
    freight.sourced who inside _ (brought payload rfl)
  obtain ⟨rfl, rfl⟩ := alike peer other another fewToo (freight.mem_script peerInside sent) tagsToo
  refine ⟨?_, ?_, scripts, ?_, ?_, ?_⟩
  · rw [Mesh.receive_eq found, Mesh.size_update]
    exact freight.size
  · rcases Mesh.receive_cases freight.opened (freight.size ▸ inside) (freight.size ▸ peerInside)
      tag with ⟨_, _, same, _, opened, _⟩ | ⟨_, missed, _⟩
    · obtain ⟨-, rfl⟩ := Prod.mk.inj (Except.ok.inj (same.symm.trans found))
      exact opened
    · obtain ⟨absent, -⟩ := Prod.mk.inj (Except.ok.inj (missed.symm.trans found))
      cases absent
  · intro rank within place source given received
    rcases (adds rank within _ _).mp received with old | ⟨rfl, rfl, new⟩
    · have sourceInside := scored.inside_of_part
        (scored.send_of_receive (freight.mem_script within old))
      exact more source sourceInside _ _ (freight.causal rank within _ _ _ old)
    · obtain ⟨rfl, rfl⟩ := Operation.receive.inj new
      exact more source peerInside _ _ sent
  · intro rank within envelope held
    obtain ⟨source, place, fewToo, given, sent, tagsToo⟩ :=
      freight.sourced rank within envelope (fewer rank held)
    exact ⟨source, place, fewToo, given, more _ source _ _ sent, tagsToo⟩
  · intro rank within source sourceInside place fewToo given label sentToo missing labelled
    rcases (adds source sourceInside _ _).mp sentToo with old | ⟨_, _, new⟩
    · obtain ⟨content, held⟩ := freight.kept rank within source sourceInside place fewToo given
        label old (fun received => missing (more rank within _ _ received)) labelled
      refine ⟨content, Mesh.mem_held_receive found held fun here => ?_⟩
      subst here
      rw [← Bool.not_eq_true, Envelope.answers_iff]
      rintro ⟨rfl, rfl⟩
      -- The payload that is taken away is the one that is now received.
      obtain ⟨rfl, rfl⟩ := alike source place given fewToo (freight.mem_script sourceInside old)
        labelled
      exact missing now
    · cases new

end

theorem worked (tagged : plan.layout.Tagged plan.microbatches)
    (freight : Freight plan course iteration done mesh) (inside : who < plan.layout.depth)
    (planned : run.worker.plan = plan) (scripted : run.worker.operations = partOf who course)
    (same : run.iteration = iteration) (advances : Advances plan done onward who run after)
    (scripts : ∀ rank < plan.layout.depth, ∀ attempt, onward rank attempt <+: partOf rank course)
    (worked : Worked run errand after) (answers : mesh.Answers who errand next) :
    Freight plan course iteration onward next := by
  cases worked with
  | rest still =>
      cases answers
      exact freight.congr scored scripts fun rank inside attempt operation _ => by
        rw [advances.same still inside]
  | opened few through still =>
      cases answers
      rw [same]
      have through : ∀ earlier < _, done who earlier = partOf who course := fun earlier less => by
        rw [advances.before, through earlier less, scripted]
      exact (freight.dropped scored tagged few through).congr scored scripts
        fun rank inside attempt operation _ => by rw [advances.same still inside]
  | passed few plain adds =>
      cases answers
      refine freight.congr scored scripts fun rank inside attempt operation transfers => ?_
      rw [advances.mem_adds adds inside]
      refine or_iff_left fun new => ?_
      rw [new.2.2, plain] at transfers
      cases transfers
  | sent few tags adds =>
      rw [planned, same] at tags
      cases answers with
      | sent sends =>
          exact freight.sent scored inside scripts few tags
            (fun rank inside other operation => advances.mem_adds adds inside) sends
  | received few tags adds =>
      rw [planned, same] at tags
      cases answers with
      | received found =>
          exact freight.received scored tagged inside scripts few tags
            (fun rank inside other operation => advances.mem_adds adds inside) found

/-- The first operation of the course that an attempt lacks, syncs apart, has all it needs. -/
theorem front (freight : Freight plan course iteration done mesh)
    (sealed : ∀ rank < plan.layout.depth,
      ∃ body, partOf rank course = body ++ [.validationSync])
    {attempt : Nat} {operation : Operation} (listed : operation ∈ partOf who course)
    (plain : operation ≠ .validationSync) (missing : operation ∉ done who attempt) :
    ∃ rank < plan.layout.depth, ∃ first after,
      partOf rank course = done rank attempt ++ first :: after ∧ first ≠ .validationSync ∧
      ∀ peer transfer, first = .receive peer transfer →
        .send rank transfer ∈ done peer attempt := by
  have present : (course.find? fun entry => decide
      (entry.2 ≠ .validationSync ∧ entry.2 ∉ done entry.1 attempt)).isSome = true := by
    rw [List.find?_isSome]
    exact ⟨_, mem_partOf.mp listed, decide_eq_true ⟨plain, missing⟩⟩
  obtain ⟨⟨rank, first⟩, found⟩ := Option.isSome_iff_exists.mp present
  obtain ⟨undone, before, after, split, behind⟩ := List.find?_eq_some_iff_append.mp found
  obtain ⟨unsynced, undone⟩ := of_decide_eq_true undone
  have covered : ∀ other earlier, (other, earlier) ∈ before → earlier ≠ .validationSync →
      earlier ∈ done other attempt := by
    intro other earlier member unsynced
    have done := behind _ member
    simp only [Bool.not_eq_true', decide_eq_false_iff_not, not_and, Classical.not_not] at done
    exact done unsynced
  have script : partOf rank course = partOf rank before ++ first :: partOf rank after := by
    rw [split, partOf_append]
    simp [partOf]
  have inside := scored.inside rank first (by simp [split])
  -- The sync is the last operation of a rank, so it does not come before another one.
  have synced : .validationSync ∉ partOf rank before := by
    intro early
    obtain ⟨body, whole⟩ := sealed rank inside
    obtain ⟨others, last⟩ : ∃ others, first :: partOf rank after = others ++ [.validationSync] := by
      rcases List.eq_nil_or_concat (first :: partOf rank after) with none | ⟨others, last, same⟩
      · cases none
      · rw [same, List.concat_eq_append, ← List.append_assoc] at script
        rw [same, List.concat_eq_append,
          (List.append_inj' (script.symm.trans whole) rfl).2]
        exact ⟨others, rfl⟩
    have noDup := (scored.playable rank).noDup
    rw [script, last, List.nodup_append] at noDup
    exact noDup.2.2 _ early _ (by simp) rfl
  have done := Chart.done_of_front (scored.playable rank).noDup
    (freight.scripts rank inside attempt) script (fun earlier member =>
      covered rank earlier (mem_partOf.mp member) fun same => synced (same ▸ member)) undone
  refine ⟨rank, inside, first, partOf rank after, by rw [done, script], unsynced, ?_⟩
  rintro peer transfer rfl
  exact covered peer _ (scored.sent before rank peer transfer after split) (by simp)

end

theorem found (freight : Freight plan course iteration done mesh) {peer attempt : Nat}
    {transfer : Transfer} {tag : Tag} (inside : who < plan.layout.depth)
    (peerInside : peer < plan.layout.depth) (few : attempt ≤ 1)
    (sent : .send who transfer ∈ done peer attempt)
    (missing : .receive peer transfer ∉ done who attempt)
    (tags : transfer.tag plan.microbatches (attemptEpoch iteration attempt) = .ok tag) :
    ∃ payload next, mesh.receive who peer tag = .ok (some payload, next) := by
  obtain ⟨payload, held⟩ :=
    freight.kept who inside peer peerInside attempt few transfer tag sent missing tags
  exact Mesh.found_of_held (freight.size ▸ peerInside) held

end Freight
end PipelineTraining
