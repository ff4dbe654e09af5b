import PipelineTraining.Proofs.Clock.History

/-!
Which memory limits the clock can work with. If no rank has a candidate, the rank
that is furthest back on its forwards is at its limit, and the one furthest back
on its backwards holds the last stage and waits for a forward of its own. The two
together bound the limit: it is below the forwards that a rank runs before its
first backward. And a limit below that number lets no backward through at all.
-/

namespace PipelineTraining

namespace Simulation
open Course

/-- Among things that wait for one another, each for one with a lower count or with the same
count at a lower level, there is one that waits for none. -/
theorem exists_unwaiting {ι : Type} {count : ι → Nat} (level : ι → Nat) {Live Free : ι → Prop}
    (waits : ∀ one, Live one → Free one ∨ ∃ other, Live other ∧
      (count other < count one ∨ count other = count one ∧ level other < level one))
    {one : ι} (live : Live one) : ∃ other, Live other ∧ Free other ∧ count other ≤ count one := by
  have chase : ∀ spot : Nat × Nat, ∀ one, (count one, level one) = spot → Live one →
      ∃ other, Live other ∧ Free other ∧ count other ≤ count one := by
    intro spot
    induction spot using WellFounded.induction (Prod.lex Nat.lt_wfRel Nat.lt_wfRel).wf with
    | _ spot ih =>
        rintro one rfl live
        rcases waits one live with free | ⟨next, nextLive, less⟩
        · exact ⟨one, live, free, Nat.le_refl _⟩
        · have lower : Prod.Lex (· < ·) (· < ·) (count next, level next) (count one, level one) :=
            Prod.lex_def.mpr less
          obtain ⟨other, otherLive, free, bound⟩ := ih _ lower next rfl nextLive
          exact ⟨other, otherLive, free, by omega⟩
  exact chase _ one rfl live

theorem mem_front_iff {α : Type} {front rest order : List α} {entry : α} {place : Nat}
    (split : front ++ rest = order) (unique : ∀ index, order[index]? = some entry ↔ index = place) :
    entry ∈ front ↔ place < front.length := by
  subst split
  constructor
  · intro member
    obtain ⟨index, found⟩ := List.getElem?_of_mem member
    have counted := (List.getElem?_eq_some_iff.mp found).1
    have whole : (front ++ rest)[index]? = front[index]? := List.getElem?_append_left counted
    rw [← whole] at found
    rwa [← (unique index).mp found]
  · intro counted
    have found := (unique place).mpr rfl
    rw [List.getElem?_append_left counted] at found
    exact List.mem_of_getElem? found

theorem head?_of_front {α : Type} {front rest order : List α} (split : front ++ rest = order) :
    rest.head? = order[front.length]? := by
  rw [← split, List.getElem?_append_right (Nat.le_refl _), Nat.sub_self, List.head?_eq_getElem?]

end Simulation

namespace Way
open Course

def ahead : Way → RankClock → List Pass
  | .forward => RankClock.forwards
  | .backward => RankClock.backwards

def order : Way → Layout → Nat → Nat → List Pass
  | .forward => WorkOrder.forward
  | .backward => WorkOrder.backward

def place : Way → Layout → Nat → Nat → Nat → Nat
  | .forward => WorkOrder.forwardPlace
  | .backward => WorkOrder.backwardPlace

theorem order_index (way : Way) {layout : Layout} {rank microbatches microbatch chunk index : Nat}
    (held : chunk < layout.chunks) :
    (way.order layout rank microbatches)[index]? = some (layout.stage rank chunk, microbatch) ↔
      microbatch < microbatches ∧ index = way.place layout microbatches chunk microbatch := by
  cases way
  · exact WorkOrder.forward_index held
  · exact WorkOrder.backward_index held

theorem order_place (way : Way) (layout : Layout) (rank : Nat) {microbatches microbatch chunk : Nat}
    (held : chunk < layout.chunks) (below : microbatch < microbatches) :
    (way.order layout rank microbatches)[way.place layout microbatches chunk microbatch]? =
      some (layout.stage rank chunk, microbatch) :=
  (way.order_index held).mpr ⟨below, rfl⟩

theorem mem_order (way : Way) {layout : Layout} {rank microbatches : Nat} {pass : Pass} :
    pass ∈ way.order layout rank microbatches ↔
      ∃ chunk < layout.chunks, ∃ microbatch < microbatches,
        pass = (layout.stage rank chunk, microbatch) := by
  cases way
  · exact WorkOrder.mem_forward
  · exact WorkOrder.mem_backward

/-- On the way a micro-batch stays on a chunk or takes up a place further on. -/
theorem place_source (way : Way) {layout : Layout} {stage source : StageId}
    {microbatches microbatch : Nat} (sound : layout.Sound) (known : layout.IsStage stage)
    (found : way.source layout stage = some source) (below : microbatch < microbatches) :
    source.chunk = stage.chunk ∨ way.place layout microbatches source.chunk microbatch <
      way.place layout microbatches stage.chunk microbatch := by
  cases way with
  | forward =>
      rcases Layout.chunk_of_prev known found with same | step
      · exact Or.inl same
      · apply Or.inr
        rw [← step]
        exact WorkOrder.place_lt below
  | backward =>
      rcases Layout.chunk_of_next known found with same | step
      · exact Or.inl same.symm
      · apply Or.inr
        have bound := (Layout.isStage_next known found).chunk_lt sound
        have mirrored : layout.chunks - 1 - stage.chunk = layout.chunks - 1 - source.chunk + 1 := by
          omega
        simp only [place, WorkOrder.backwardPlace, mirrored]
        exact WorkOrder.place_lt below

end Way

namespace Simulation
open Course

variable {work : Workload} {state : Simulation} {log : List Commit}

def passed (way : Way) (log : List Commit) (rank : Nat) : Nat :=
  (passesOf way.select rank (taken log)).length

def Next (way : Way) (state : Simulation) (spot : Nat × Pass) : Prop :=
  ∃ clock rest, state.ranks[spot.1]? = some clock ∧ way.ahead clock = spot.2 :: rest

namespace History

theorem order_split (history : History work log state) (way : Way) {rank : Nat} {clock : RankClock}
    (present : state.ranks[rank]? = some clock) :
    passesOf way.select rank (taken log) ++ way.ahead clock =
      way.order work.layout rank work.microbatches := by
  cases way
  · exact (history.tracked present).forwards
  · exact (history.tracked present).backwards

theorem taken_iff (history : History work log state) (way : Way) {rank chunk microbatch : Nat}
    (inside : rank < work.layout.depth) (held : chunk < work.layout.chunks)
    (below : microbatch < work.microbatches) :
    (rank, way.action (work.layout.stage rank chunk, microbatch)) ∈ taken log ↔
      way.place work.layout work.microbatches chunk microbatch < passed way log rank := by
  obtain ⟨clock, present⟩ := history.clock_of_rank inside
  rw [← way.mem_passesOf]
  refine mem_front_iff (history.order_split way present) fun index => ?_
  rw [way.order_index held]
  exact and_iff_right below

theorem next_found (history : History work log state) {way : Way} {rank : Nat} {pass : Pass}
    (next : Next way state (rank, pass)) :
    (way.order work.layout rank work.microbatches)[passed way log rank]? = some pass := by
  obtain ⟨clock, rest, present, next⟩ := next
  rw [passed, ← head?_of_front (history.order_split way present), next, List.head?_cons]

theorem next_place (history : History work log state) {way : Way} {rank : Nat} {pass : Pass}
    (next : Next way state (rank, pass)) :
    ∃ chunk < work.layout.chunks, ∃ microbatch < work.microbatches,
      pass = (work.layout.stage rank chunk, microbatch) ∧
      passed way log rank = way.place work.layout work.microbatches chunk microbatch := by
  have found := history.next_found next
  obtain ⟨chunk, held, microbatch, _, rfl⟩ := way.mem_order.mp (List.mem_of_getElem? found)
  obtain ⟨below, place⟩ := (way.order_index held).mp found
  exact ⟨chunk, held, microbatch, below, rfl, place⟩

theorem exists_next (history : History work log state) {way : Way} {rank chunk microbatch : Nat}
    (inside : rank < work.layout.depth) (held : chunk < work.layout.chunks)
    (below : microbatch < work.microbatches)
    (behind : passed way log rank ≤ way.place work.layout work.microbatches chunk microbatch) :
    ∃ pass, Next way state (rank, pass) := by
  obtain ⟨clock, present⟩ := history.clock_of_rank inside
  have split := history.order_split way present
  have placed := way.order_place work.layout rank held below
  have counted := (List.getElem?_eq_some_iff.mp placed).1
  cases next : way.ahead clock with
  | nil =>
      rw [next, List.append_nil] at split
      rw [← split] at counted
      exact absurd (Nat.lt_of_le_of_lt behind counted) (Nat.lt_irrefl _)
  | cons pass rest => exact ⟨pass, clock, rest, present, next⟩

/-- A rank that waits for an uncommitted pass waits for a rank that is further back, or as far
back and about to take up that very pass. -/
theorem lags (sound : work.layout.Sound) (history : History work log state) {way : Way}
    {rank microbatch : Nat} {stage source : StageId}
    (next : Next way state (rank, stage, microbatch))
    (found : way.source work.layout stage = some source)
    (missing : (work.layout.rankOf source, way.action (source, microbatch)) ∉ taken log) :
    ∃ other, Next way state other ∧ (passed way log other.1 < passed way log rank ∨
      passed way log other.1 = passed way log rank ∧
        way.level work.layout other.2.1 < way.level work.layout stage) := by
  have inside : rank < work.layout.depth := by
    obtain ⟨clock, _, present, _⟩ := next
    exact history.inside present
  obtain ⟨chunk, held, _, below, same, place⟩ := history.next_place next
  obtain ⟨rfl, rfl⟩ := Prod.mk.inj same
  have known := Layout.isStage_stage sound inside held
  have sourceKnown := way.isStage_source known found
  have sourceInside := sourceKnown.rank_lt sound
  have sourceHeld := sourceKnown.chunk_lt sound
  have sourceNamed := sourceKnown.stage_rank_chunk sound
  rw [← sourceNamed, Layout.rankOf_stage sourceInside,
    history.taken_iff way sourceInside sourceHeld below, Nat.not_lt] at missing
  obtain ⟨pass, otherNext⟩ := history.exists_next sourceInside sourceHeld below missing
  refine ⟨_, otherNext, ?_⟩
  -- A source of the same chunk has its turn at the same place of its rank's order, one of
  -- another chunk at an earlier place.
  rcases way.place_source sound known found below with sameChunk | lower
  · rw [sameChunk, Layout.stage_chunk, ← place] at missing
    rcases Nat.lt_or_eq_of_le missing with less | equal
    · exact Or.inl less
    · have here := history.next_found otherNext
      have there := way.order_place work.layout (work.layout.rankOf source) sourceHeld below
      rw [sourceNamed, sameChunk, Layout.stage_chunk, ← place, ← equal, here] at there
      obtain rfl := Option.some.inj there
      exact Or.inr ⟨equal, way.level_source known found⟩
  · rw [Layout.stage_chunk, ← place] at lower
    exact Or.inl (Nat.lt_of_le_of_lt missing lower)

end History

abbrev Stuck (work : Workload) (state : Simulation) : Prop :=
  state.earliest work 0 state.ranks = none

theorem Stuck.candidate {rank : Nat} {clock : RankClock} (stuck : Stuck work state)
    (present : state.ranks[rank]? = some clock) : state.candidate work rank clock = none := by
  have idle := earliest_eq_none stuck rank clock present
  rwa [Nat.zero_add] at idle

namespace History

theorem forward_missing (history : History work log state) {rank : Nat} {stage : StageId}
    {microbatch : Nat} (undone : state.forwardDone.at? stage microbatch = none) :
    (rank, .forward (stage, microbatch)) ∉ taken log := by
  intro member
  have done := (history.records.1 stage.logical microbatch).mpr
    ⟨rank, _, stage, member, rfl, rfl⟩
  simp only [Completion.at?] at undone
  simp [undone] at done

theorem backward_missing (history : History work log state) {rank : Nat} {stage : StageId}
    {microbatch : Nat} (undone : state.backwardDone.at? stage microbatch = none) :
    (rank, .backward (stage, microbatch)) ∉ taken log := by
  intro member
  have done := (history.records.2 stage.logical microbatch).mpr
    ⟨rank, _, stage, member, rfl, rfl⟩
  simp only [Completion.at?] at undone
  simp [undone] at done

/-- Where nobody can go on, a rank not ahead of the given one on its forwards is at its limit. -/
theorem forward_at_limit (sound : work.layout.Sound) (history : History work log state)
    (stuck : Stuck work state) {spot : Nat × Pass} (next : Next .forward state spot) :
    ∃ other, Next .forward state other ∧
      passed .backward log other.1 + work.memoryLimit ≤ passed .forward log other.1 ∧
      passed .forward log other.1 ≤ passed .forward log spot.1 := by
  refine exists_unwaiting (fun spot => Way.forward.level work.layout spot.2.1) ?_ next
  rintro ⟨rank, stage, microbatch⟩ next
  obtain ⟨clock, rest, present, head⟩ := id next
  rcases (candidate_eq_none (stuck.candidate present)).2.1 _ _ head with full | starved
  · apply Or.inl
    have balance := history.pending sound present
    dsimp only at balance
    simp only [passed, Way.select]
    omega
  · unfold forwardArrival at starved
    cases found : work.layout.prev stage with
    | none => simp [found] at starved
    | some source =>
        simp only [found, Option.map_eq_none_iff] at starved
        exact Or.inr (history.lags sound next found (history.forward_missing starved))

/-- Where nobody can go on, a rank not ahead of the given one on its backwards waits for its own
forward of the last stage. -/
theorem backward_at_end (sound : work.layout.Sound) (history : History work log state)
    (stuck : Stuck work state) {spot : Nat × Pass} (next : Next .backward state spot) :
    ∃ other, Next .backward state other ∧ (work.layout.next other.2.1 = none ∧
      (other.1, .forward other.2) ∉ taken log) ∧
      passed .backward log other.1 ≤ passed .backward log spot.1 := by
  refine exists_unwaiting (fun spot => Way.backward.level work.layout spot.2.1) ?_ next
  rintro ⟨rank, stage, microbatch⟩ next
  obtain ⟨clock, rest, present, head⟩ := id next
  have starved := (candidate_eq_none (stuck.candidate present)).2.2 _ _ head
  unfold backwardArrival at starved
  cases found : work.layout.next stage with
  | none =>
      simp only [found] at starved
      exact Or.inl ⟨rfl, history.forward_missing starved⟩
  | some source =>
      simp only [found, Option.map_eq_none_iff] at starved
      exact Or.inr (history.lags sound next found (history.backward_missing starved))

end History
end Simulation

namespace Workload

def lead (work : Workload) : Nat :=
  (work.layout.chunks - 1) * min work.layout.depth work.microbatches

/-- The smallest limit that the clock can work with: room for all forwards that a rank runs
before its first backward. -/
def leastMemory (work : Workload) : Nat :=
  work.lead + 1

theorem forwardPlace_last_le {work : Workload} (sound : work.layout.Sound) (microbatch : Nat) :
    WorkOrder.forwardPlace work.layout work.microbatches (work.layout.chunks - 1) microbatch ≤
      WorkOrder.backwardPlace work.layout work.microbatches (work.layout.chunks - 1) microbatch +
        work.lead := by
  have bound : WorkOrder.groupLength work.layout work.microbatches
      (microbatch / WorkOrder.groupSize work.layout) ≤
      min work.layout.depth work.microbatches := by
    rw [← WorkOrder.groupSize_eq sound.ranks]
    exact WorkOrder.groupLength_le _ _ _
  rw [WorkOrder.forwardPlace_last]
  exact Nat.add_le_add_left (Nat.mul_le_mul_left _ bound) _

end Workload

namespace Simulation.History
open Course

/-- If the next backward of a rank is stuck, then a rank is stuck on its forwards, by at most the
lead ahead of where that backward is. -/
theorem forward_behind (sound : work.layout.Sound) (history : History work log state)
    (stuck : Stuck work state) {spot : Nat × Pass} (next : Next .backward state spot) :
    ∃ other, Next .forward state other ∧
      passed .forward log other.1 ≤ passed .backward log spot.1 + work.lead := by
  obtain ⟨⟨rank, pass⟩, last, ⟨ends, missing⟩, bound⟩ := history.backward_at_end sound stuck next
  have inside : rank < work.layout.depth := by
    obtain ⟨clock, _, present, _⟩ := last
    exact history.inside present
  obtain ⟨chunk, held, microbatch, below, rfl, place⟩ := history.next_place last
  have lastChunk := Layout.chunk_of_last sound (Layout.isStage_stage sound inside held) ends
  rw [Layout.stage_chunk] at lastChunk
  obtain rfl : chunk = work.layout.chunks - 1 := by omega
  -- The rank waits for its own forward of the last chunk, so its forwards are no further.
  have behind := Nat.le_of_not_lt
    (mt (history.taken_iff .forward inside held below).mpr missing)
  obtain ⟨pass, found⟩ := history.exists_next inside held below behind
  refine ⟨_, found, ?_⟩
  have step := Workload.forwardPlace_last_le sound microbatch
  dsimp only [Way.place] at place behind bound ⊢
  omega

theorem backward_next (sound : work.layout.Sound) (history : History work log state)
    {spot : Nat × Pass} (next : Next .forward state spot) :
    ∃ pass, Next .backward state (spot.1, pass) := by
  obtain ⟨rank, pass⟩ := spot
  have inside : rank < work.layout.depth := by
    obtain ⟨clock, _, present, _⟩ := next
    exact history.inside present
  obtain ⟨chunk, held, microbatch, below, rfl, place⟩ := history.next_place next
  have forwardAhead := mt (history.taken_iff .forward inside held below).mp (by omega)
  have backwardAhead : (rank, .backward (work.layout.stage rank chunk, microbatch)) ∉ taken log :=
    fun member => forwardAhead
      (forward_of_backward (history.ordered sound) (history.placed sound) member)
  exact history.exists_next inside held below
    (Nat.le_of_not_lt (mt (history.taken_iff .backward inside held below).mpr backwardAhead))

/-- Where nobody can go on, the limit is too small for any rank with a forward ahead: each such
rank would have another one behind it. -/
theorem no_forward_next (sound : work.layout.Sound) (history : History work log state)
    (stuck : Stuck work state) (enough : work.leastMemory ≤ work.memoryLimit) (count : Nat) :
    ∀ spot, Next .forward state spot → passed .forward log spot.1 = count → False := by
  -- Induction on how far the rank is with its forwards: the one found is behind it.
  induction count using Nat.strong_induction_on with
  | h count ih =>
      intro spot next counted
      obtain ⟨full, fullNext, atLimit, notAhead⟩ := history.forward_at_limit sound stuck next
      obtain ⟨pass, backwardNext⟩ := history.backward_next sound fullNext
      obtain ⟨other, otherNext, close⟩ := history.forward_behind sound stuck backwardNext
      unfold Workload.leastMemory at enough
      dsimp only at close
      exact ih (passed .forward log other.1) (by omega) other otherNext rfl

theorem memory_lt_of_stuck (sound : work.layout.Sound) (history : History work log state)
    (stuck : Stuck work state) (undone : state.done = false) :
    work.memoryLimit < work.leastMemory := by
  by_contra enough
  have none_next := history.no_forward_next sound stuck (Nat.le_of_not_lt enough)
  obtain ⟨clock, member, busy⟩ : ∃ clock ∈ state.ranks, clock.done = false := by
    simpa [done, List.all_eq_false] using undone
  obtain ⟨rank, present⟩ := List.getElem?_of_mem member
  have idle := (candidate_eq_none (stuck.candidate present)).1
  cases forwards : clock.forwards with
  | cons pass rest => exact none_next _ (rank, pass) ⟨clock, rest, present, forwards⟩ rfl
  | nil =>
      cases backwards : clock.backwards with
      | nil => simp [RankClock.done, idle, forwards, backwards] at busy
      | cons pass rest =>
          have next : Next .backward state (rank, pass) := ⟨clock, rest, present, backwards⟩
          obtain ⟨other, otherNext, _⟩ := history.forward_behind sound stuck next
          exact none_next _ other otherNext rfl

/-- The first backward of all comes when its rank has all forwards up to its last chunk behind
it and no backward. -/
theorem first_backward (sound : work.layout.Sound) (history : History work log state)
    {rank : Nat} {clock : RankClock} {pass : Pass} {rest : List Pass}
    (present : state.ranks[rank]? = some clock) (next : clock.backwards = pass :: rest)
    (fed : Fed work.layout (taken log) rank (.backward pass))
    (first : ∀ rank pass, (rank, .backward pass) ∉ taken log) :
    work.lead < clock.pending := by
  have found : Next .backward state (rank, pass) := ⟨clock, rest, present, next⟩
  obtain ⟨chunk, held, microbatch, below, rfl, place⟩ := history.next_place found
  have inside := history.inside present
  -- No backward is behind, so all forwards of the rank are pending and its next backward is
  -- the first of its order.
  have none_passed : passesOf Action.backward? rank (taken log) = [] :=
    List.eq_nil_iff_forall_not_mem.mpr fun pass member => first _ _ (mem_backwards.mp member)
  have balance := history.pending sound present
  rw [none_passed, List.length_nil, Nat.add_zero] at balance
  rw [passed, Way.select, none_passed, List.length_nil] at place
  simp only [Fed] at fed
  cases source : work.layout.next (work.layout.stage rank chunk) with
  | some behind =>
      simp only [source] at fed
      exact absurd fed (first _ _)
  | none =>
      simp only [source] at fed
      have lastChunk := Layout.chunk_of_last sound (Layout.isStage_stage sound inside held) source
      rw [Layout.stage_chunk] at lastChunk
      obtain rfl : chunk = work.layout.chunks - 1 := by omega
      obtain rfl := WorkOrder.backwardPlace_last_eq_zero sound.chunked place.symm
      have behind := (history.taken_iff .forward inside held below).mp fed
      dsimp only [Way.place] at behind
      rw [WorkOrder.forwardPlace_last_first, WorkOrder.groupSize_eq sound.ranks, passed, Way.select,
        ← balance] at behind
      exact behind

theorem memory_of_backward (sound : work.layout.Sound) (history : History work log state)
    {rank : Nat} {pass : Pass} (member : (rank, .backward pass) ∈ taken log) :
    work.leastMemory ≤ work.memoryLimit := by
  induction history generalizing rank pass with
  | initial => simp [taken] at member
  | commit past chosen ih =>
      rename_i log state chosenRank choice
      -- Either this commit is the first backward of all, or there was one before.
      by_cases first : ∀ rank pass, (rank, .backward pass) ∉ taken log
      · rw [taken_snoc] at member
        have new := (List.mem_append.mp member).resolve_left (first _ _)
        obtain ⟨rfl, action⟩ := Prod.mk.inj (List.mem_singleton.mp new)
        obtain ⟨clock, present, granted⟩ := granted_of_earliest chosen
        have fed := past.fed sound present granted
        cases granted with
        | forward | weights => simp at action
        | backward next arrived =>
            have crowded := past.first_backward sound present next fed first
            have bounded := past.pending_le present
            unfold Workload.leastMemory
            omega
      · push Not at first
        obtain ⟨_, _, earlier⟩ := first
        exact ih earlier

end Simulation.History

namespace Workload
open Simulation

/-- A finished rank has committed all its backwards. -/
theorem backward_of_done {work : Workload} (sound : work.layout.Sound)
    (busy : 0 < work.microbatches) {log : List Commit} {state : Simulation}
    (history : History work log state) (done : state.done = true) :
    ∃ pass, (0, .backward pass) ∈ taken log := by
  obtain ⟨clock, present⟩ := history.clock_of_rank sound.ranks
  have finished := List.all_eq_true.mp done clock (List.mem_of_getElem? present)
  simp only [RankClock.done, Bool.and_eq_true, List.isEmpty_iff] at finished
  have tracked := (history.tracked present).backwards
  rw [finished.1.2, List.append_nil] at tracked
  refine ⟨(work.layout.stage 0 0, 0), Course.mem_backwards.mp ?_⟩
  rw [tracked]
  exact WorkOrder.mem_backward.mpr ⟨0, sound.chunked, 0, busy, rfl⟩

theorem simulate_ok {work : Workload} (sound : work.layout.Sound) (busy : 0 < work.microbatches) :
    (∃ timelines, work.simulate = .ok timelines) ↔ work.leastMemory ≤ work.memoryLimit := by
  rcases work.simulate_ends with ⟨log, final, ended, history, done⟩ |
    ⟨log, final, ended, history, undone, stuck⟩
  · obtain ⟨pass, member⟩ := backward_of_done sound busy history done
    exact iff_of_true ⟨_, ended⟩ (history.memory_of_backward sound member)
  · have small := history.memory_lt_of_stuck sound stuck undone
    refine iff_of_false ?_ (Nat.not_le_of_lt small)
    rintro ⟨timelines, other⟩
    rw [ended] at other
    cases other

theorem simulate_fault {work : Workload} {fault : Fault} (failed : work.simulate = .error fault) :
    ∃ cause, fault = .configuration cause ∧ cause.parameter = "memory_limit" := by
  rcases work.simulate_ends with ⟨log, final, ended, _⟩ | ⟨log, final, ended, _⟩
  · rw [ended] at failed
    cases failed
  · rw [ended] at failed
    cases failed
    exact ⟨_, rfl, rfl⟩

/-- A workload can be scheduled exactly if the limit has room for the forwards that a rank runs
before its first backward; nothing else about it matters, and a refusal blames the limit. -/
theorem simulate_ok_iff {topology : Topology} {chunks : Nat} {placement : Placement}
    {work : Workload} (ranks : 0 < topology.depth)
    (laid : topology.layout chunks placement = .ok work.layout) (busy : 0 < work.microbatches) :
    ((∃ timelines, work.simulate = .ok timelines) ↔
        (chunks - 1) * min topology.depth work.microbatches + 1 ≤ work.memoryLimit) ∧
      (∀ fault, work.simulate = .error fault →
        ∃ cause, fault = .configuration cause ∧ cause.parameter = "memory_limit") ∧
      ∀ (other : Workload) (otherPlacement : Placement),
        topology.layout chunks otherPlacement = .ok other.layout →
        other.microbatches = work.microbatches → work.memoryLimit ≤ other.memoryLimit →
        (∃ timelines, work.simulate = .ok timelines) →
        ∃ timelines, other.simulate = .ok timelines := by
  have threshold : ∀ {placement : Placement} {work : Workload},
      topology.layout chunks placement = .ok work.layout → 0 < work.microbatches →
      ((∃ timelines, work.simulate = .ok timelines) ↔
        (chunks - 1) * min topology.depth work.microbatches + 1 ≤ work.memoryLimit) := by
    intro placement work laid busy
    obtain ⟨sound, depth, cut, _⟩ := Topology.layout_ok ranks laid
    rw [simulate_ok sound busy, leastMemory, lead, depth, cut]
  refine ⟨threshold laid busy, fun fault => simulate_fault, ?_⟩
  intro other otherPlacement otherLaid same larger scheduled
  have enough := (threshold laid busy).mp scheduled
  rw [← same] at busy enough
  exact (threshold otherLaid busy).mpr (Nat.le_trans enough larger)

/-- Two folded ranks with free actions need room for three activations. -/
theorem simulate_ok_iff_folded :
    let folded (limit : Nat) : Workload := ⟨⟨2, 2, 1, .vShape⟩, 3, limit, true, ⟨0, 0, 0, 0⟩⟩
    (Topology.mk 2 4 none).layout 2 .vShape = .ok (folded 3).layout ∧
      (∃ timelines, (folded 3).simulate = .ok timelines) ∧
      ¬ ∃ timelines, (folded 2).simulate = .ok timelines := by
  intro folded
  have laid : ∀ limit, (Topology.mk 2 4 none).layout 2 .vShape = .ok (folded limit).layout :=
    fun _ => rfl
  refine ⟨laid 3, ?_, ?_⟩
  · exact (simulate_ok_iff (by decide) (laid 3) (by decide)).1.mpr (by decide)
  · exact mt (simulate_ok_iff (by decide) (laid 2) (by decide)).1.mp (by decide)

end Workload
end PipelineTraining
