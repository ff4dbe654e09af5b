import Mathlib.Logic.Function.Basic
import PipelineTraining.Proofs.Cluster.Interleaving

/-!
How far every rank is. Whatever a rank has received another rank has sent in the
same iteration. As payloads go through the whole pipeline, no rank gets more than
one iteration ahead of another.
-/

namespace PipelineTraining

open Course

variable {σ α : Type}

/-- Where a rank stands: the iteration that it is in or begins next, whether stale payloads are
dropped, the operations behind it, and the turns spent on the iteration. -/
structure Spot where
  iteration : Nat
  opened : Bool
  behind : List Operation
  spent : Nat

structure Chart (drill : Drill σ α) where
  course : List (Nat × Operation)
  spots : Nat → Spot

namespace Chart

variable {drill : Drill σ α} {chart : Chart drill} {who peer iteration : Nat}
  {operation : Operation} {transfer : Transfer} {spot : Spot}

def script (chart : Chart drill) (who : Nat) : List Operation :=
  partOf who chart.course

def done (chart : Chart drill) (who iteration : Nat) : List Operation :=
  if iteration < drill.first ∨ (chart.spots who).iteration < iteration then []
  else if iteration < (chart.spots who).iteration then chart.script who
  else (chart.spots who).behind

def put (chart : Chart drill) (who : Nat) (spot : Spot) : Chart drill :=
  { chart with spots := Function.update chart.spots who spot }

def fresh (drill : Drill σ α) (course : List (Nat × Operation)) : Chart drill :=
  ⟨course, fun _ => ⟨drill.first, false, [], 0⟩⟩

structure Sound (chart : Chart drill) : Prop where
  scored : Scored drill.plan chart.course
  begun : ∀ who, drill.first ≤ (chart.spots who).iteration
  bounded : ∀ who, (chart.spots who).iteration ≤ drill.goal
  busy : ∀ who, 0 < (chart.spots who).spent → (chart.spots who).iteration < drill.goal
  behind : ∀ who, (chart.spots who).behind <+: chart.script who
  causal : ∀ who iteration peer transfer, .receive peer transfer ∈ chart.done who iteration →
    .send who transfer ∈ chart.done peer iteration

theorem put_self (chart : Chart drill) (who : Nat) (spot : Spot) :
    (chart.put who spot).spots who = spot :=
  Function.update_self ..

theorem put_other {other : Nat} (different : other ≠ who) :
    (chart.put who spot).spots other = chart.spots other :=
  Function.update_of_ne different ..

theorem forall_put {P : Nat → Spot → Prop} (here : P who spot)
    (there : ∀ other, P other (chart.spots other)) (other : Nat) :
    P other ((chart.put who spot).spots other) := by
  by_cases self : other = who
  · subst self
    rw [put_self]
    exact here
  · rw [put_other self]
    exact there other

theorem iteration_put (same : spot.iteration = (chart.spots who).iteration) (other : Nat) :
    ((chart.put who spot).spots other).iteration = (chart.spots other).iteration :=
  forall_put (P := fun other spot => spot.iteration = (chart.spots other).iteration) same
    (fun _ => rfl) other

theorem done_put_other {other : Nat} (different : other ≠ who) (iteration : Nat) :
    (chart.put who spot).done other iteration = chart.done other iteration := by
  unfold done script
  rw [put_other different]
  rfl

theorem done_put_same (iterations : spot.iteration = (chart.spots who).iteration)
    (same : spot.behind = (chart.spots who).behind) (other iteration : Nat) :
    (chart.put who spot).done other iteration = chart.done other iteration := by
  by_cases here : other = who
  · subst here
    unfold done script
    rw [put_self, iterations, same]
    rfl
  · exact done_put_other here iteration

theorem done_current (begun : drill.first ≤ (chart.spots who).iteration) :
    chart.done who (chart.spots who).iteration = (chart.spots who).behind := by
  unfold done
  rw [if_neg (by omega), if_neg (by omega)]

theorem done_before (begun : drill.first ≤ iteration)
    (past : iteration < (chart.spots who).iteration) :
    chart.done who iteration = chart.script who := by
  unfold done
  rw [if_neg (by omega), if_pos past]

theorem done_ahead (ahead : (chart.spots who).iteration < iteration) :
    chart.done who iteration = [] :=
  if_pos (Or.inr ahead)

theorem done_fresh (course : List (Nat × Operation)) (who iteration : Nat) :
    (fresh drill course).done who iteration = [] := by
  rcases Nat.lt_trichotomy iteration drill.first with early | rfl | ahead
  · exact if_pos (Or.inl early)
  · exact (fresh drill course).done_current (Nat.le_refl _)
  · exact done_ahead ahead

theorem range_of_done (member : operation ∈ chart.done who iteration) :
    drill.first ≤ iteration ∧ iteration ≤ (chart.spots who).iteration := by
  unfold done at member
  split at member
  · cases member
  · omega

theorem done_put_next (whole : (chart.spots who).behind = chart.script who)
    (iterations : spot.iteration = (chart.spots who).iteration + 1) (empty : spot.behind = [])
    (other iteration : Nat) :
    (chart.put who spot).done other iteration = chart.done other iteration := by
  by_cases here : other = who
  · subst here
    unfold done
    rw [put_self, iterations, empty, whole]
    have same : (chart.put other spot).script other = chart.script other := rfl
    rw [same]
    by_cases early : iteration < drill.first
    · rw [if_pos (Or.inl early), if_pos (Or.inl early)]
    · by_cases past : iteration < (chart.spots other).iteration + 1
      · rw [if_neg (by omega), if_pos past, if_neg (by omega), ite_self]
      · rw [if_pos (Or.inr (by omega : (chart.spots other).iteration < iteration)), if_neg past,
          ite_self]
  · exact done_put_other here iteration

theorem mem_done_put (begun : drill.first ≤ (chart.spots who).iteration)
    (iterations : spot.iteration = (chart.spots who).iteration)
    (longer : spot.behind = (chart.spots who).behind ++ [operation]) (other iteration : Nat)
    (another : Operation) :
    another ∈ (chart.put who spot).done other iteration ↔ another ∈ chart.done other iteration ∨
      other = who ∧ iteration = (chart.spots who).iteration ∧ another = operation := by
  by_cases here : other = who
  · subst here
    by_cases now : iteration = (chart.spots other).iteration
    · subst now
      have after : (chart.put other spot).done other (chart.spots other).iteration =
          (chart.spots other).behind ++ [operation] := by
        have current := (chart.put other spot).done_current
          (by rw [put_self, iterations]; exact begun)
        rwa [put_self, iterations, longer] at current
      rw [after, done_current begun]
      simp
    · have same : (chart.put other spot).done other iteration = chart.done other iteration := by
        unfold done
        rw [put_self, iterations]
        by_cases early : iteration < drill.first ∨ (chart.spots other).iteration < iteration
        · rw [if_pos early, if_pos early]
        · rw [if_neg early, if_neg early, if_pos (by omega), if_pos (by omega)]
          rfl
      simp [same, now]
  · simp [done_put_other here, here]

namespace Sound

theorem done_begins (sound : chart.Sound) (who iteration : Nat) :
    chart.done who iteration <+: chart.script who := by
  unfold done
  split
  · exact List.nil_prefix
  · split
    · exact List.prefix_rfl
    · exact sound.behind who

/-- What an operation needs is done before it. -/
theorem supplied (sound : chart.Sound) (member : operation ∈ chart.done who iteration) :
    ∃ before, before ⊆ chart.done who iteration ∧ Supplied drill.plan who before operation := by
  obtain ⟨rest, whole⟩ := sound.done_begins who iteration
  obtain ⟨before, after, split⟩ := List.append_of_mem member
  refine ⟨before, ?_, (sound.scored.playable who).supplied before operation (after ++ rest) ?_⟩
  · rw [split]
    exact List.subset_append_left ..
  · rw [← List.cons_append, ← List.append_assoc, ← split]
    exact whole.symm

theorem mem_script_of_pass (sound : chart.Sound) (way : Way) {stage : StageId} {microbatch : Nat}
    (known : drill.plan.layout.IsStage stage) (inside : microbatch < drill.plan.microbatches) :
    way.pass stage microbatch ∈ chart.script (drill.plan.layout.rankOf stage) :=
  sound.scored.mem_of_pass way known inside

theorem receive_of_send (sound : chart.Sound) (member : .send peer transfer ∈ chart.script who) :
    .receive who transfer ∈ chart.script peer :=
  sound.scored.receive_of_send member

/-- A pass is done behind the pass of the stage that feeds it, on whatever rank that is. -/
theorem source_done (sound : chart.Sound) {way : Way} {stage source : StageId} {microbatch : Nat}
    (found : way.source drill.plan.layout stage = some source)
    (member : way.pass stage microbatch ∈ chart.done (drill.plan.layout.rankOf stage) iteration) :
    way.pass source microbatch ∈ chart.done (drill.plan.layout.rankOf source) iteration := by
  obtain ⟨before, behind, supplied⟩ := sound.supplied member
  generalize same : way.pass stage microbatch = operation at supplied
  cases supplied with
  | pass other another micro known owned inside fed =>
      obtain ⟨rfl, rfl, rfl⟩ := Way.pass_inj same
      -- What feeds the pass is behind it: the source itself on the same rank, or a receive.
      have inflow := behind (fed source found)
      unfold Way.inflow at inflow
      split at inflow
      · next here =>
        rw [here]
        exact inflow
      · -- The receive has its send behind it, and the send the pass of the source.
        have sent := sound.causal _ _ _ _ inflow
        obtain ⟨front, within, sending⟩ := sound.supplied sent
        generalize peer : Operation.send _ _ = operation at sending
        cases sending with
        | send other elsewhere target micro' known' owned' inside' found' away' fed' =>
            obtain ⟨-, transfers⟩ := Operation.send.inj peer
            obtain ⟨kind, rfl, rfl, rfl⟩ := Transfer.mk.inj transfers
            obtain rfl := Way.kind_inj kind
            exact within fed'
        | pass way => cases way <;> cases peer
        | weights | receive | optimizer | sync => cases peer
  | weights | send | receive | optimizer | sync => cases way <;> cases same

theorem last_forward_done (sound : chart.Sound) {stage : StageId} {microbatch stages : Nat}
    (known : drill.plan.layout.IsStage stage)
    (count : stage.logical + stages + 1 = drill.plan.layout.stageCount)
    (member : .backward stage microbatch ∈ chart.done (drill.plan.layout.rankOf stage) iteration) :
    ∃ last, drill.plan.layout.IsStage last ∧ drill.plan.layout.next last = none ∧
      .forward last microbatch ∈ chart.done (drill.plan.layout.rankOf last) iteration := by
  induction stages generalizing stage with
  | zero =>
      -- On the last stage a backward follows its own forward.
      obtain ⟨rest, whole⟩ := sound.done_begins (drill.plan.layout.rankOf stage) iteration
      exact ⟨stage, known, Layout.next_eq_none.mpr count,
        (sound.scored.playable _).forward_of_backward whole.symm member⟩
  | succ stages ih =>
      have found : Way.backward.source drill.plan.layout stage =
          some (drill.plan.layout.stageAt (stage.logical + 1)) :=
        Layout.next_eq_some.mpr ⟨by omega, rfl⟩
      apply ih (Layout.isStage_next known found) ?_ (sound.source_done found member)
      rw [Layout.stageAt_logical]
      omega

theorem forward_done_before (sound : chart.Sound) {stage other : StageId} {microbatch stages : Nat}
    (known : drill.plan.layout.IsStage stage) (otherKnown : drill.plan.layout.IsStage other)
    (count : other.logical + stages = stage.logical)
    (member : .forward stage microbatch ∈ chart.done (drill.plan.layout.rankOf stage) iteration) :
    .forward other microbatch ∈ chart.done (drill.plan.layout.rankOf other) iteration := by
  induction stages generalizing stage with
  | zero => rwa [otherKnown.eq_of_logical known count]
  | succ stages ih =>
      have found : Way.forward.source drill.plan.layout stage =
          some (drill.plan.layout.stageAt (stage.logical - 1)) :=
        Layout.prev_eq_some.mpr ⟨by omega, rfl⟩
      apply ih (Layout.isStage_prev known found) ?_ (sound.source_done found member)
      rw [Layout.stageAt_logical]
      omega

/-- A backward has the forwards of its micro-batch behind it, all down the pipeline. -/
theorem forwards_done (sound : chart.Sound) {stage other : StageId} {microbatch : Nat}
    (known : drill.plan.layout.IsStage stage) (otherKnown : drill.plan.layout.IsStage other)
    (member : .backward stage microbatch ∈ chart.done (drill.plan.layout.rankOf stage) iteration) :
    .forward other microbatch ∈ chart.done (drill.plan.layout.rankOf other) iteration := by
  have inside := known.inside
  have stages : stage.logical + (drill.plan.layout.stageCount - 1 - stage.logical) + 1 =
      drill.plan.layout.stageCount := by omega
  obtain ⟨last, lastKnown, ends, forward⟩ := sound.last_forward_done known stages member
  have count := Layout.next_eq_none.mp ends
  have otherInside := otherKnown.inside
  have above : other.logical + (last.logical - other.logical) = last.logical := by omega
  exact sound.forward_done_before lastKnown otherKnown above forward

theorem exists_stage (sound : chart.Sound) (inside : who < drill.plan.layout.depth) :
    ∃ stage, drill.plan.layout.IsStage stage ∧ drill.plan.layout.rankOf stage = who :=
  ⟨_, Layout.isStage_stage sound.scored.sound inside sound.scored.sound.chunked,
    Layout.rankOf_stage inside 0⟩

/-- No rank is more than one iteration ahead. -/
theorem spread (sound : chart.Sound) (inside : who < drill.plan.layout.depth)
    {other : Nat} (otherInside : other < drill.plan.layout.depth) :
    (chart.spots who).iteration ≤ (chart.spots other).iteration + 1 := by
  by_contra far
  -- The iteration that `other` has not begun and `who` has been through.
  have whole : chart.done who ((chart.spots other).iteration + 1) = chart.script who := by
    have begun := sound.begun other
    exact done_before (by omega) (by omega)
  have empty : chart.done other ((chart.spots other).iteration + 1) = [] :=
    done_ahead (Nat.lt_succ_self _)
  obtain ⟨stage, known, rfl⟩ := sound.exists_stage inside
  obtain ⟨another, anotherKnown, rfl⟩ := sound.exists_stage otherInside
  -- A backward of `who` in that iteration needs a forward of `other`.
  have backward := sound.mem_script_of_pass .backward known sound.scored.busy
  rw [← whole] at backward
  have forward := sound.forwards_done known anotherKnown backward
  rw [empty] at forward
  cases forward

theorem replaced (sound : chart.Sound)
    (same : ∀ other iteration, (chart.put who spot).done other iteration =
      chart.done other iteration)
    (begun : drill.first ≤ spot.iteration) (bounded : spot.iteration ≤ drill.goal)
    (busy : 0 < spot.spent → spot.iteration < drill.goal)
    (behind : spot.behind <+: chart.script who) :
    (chart.put who spot).Sound := by
  constructor
  · exact sound.scored
  · exact forall_put (P := fun _ spot => drill.first ≤ spot.iteration) begun sound.begun
  · exact forall_put (P := fun _ spot => spot.iteration ≤ drill.goal) bounded sound.bounded
  · exact forall_put (P := fun _ spot => 0 < spot.spent → spot.iteration < drill.goal)
      busy sound.busy
  · exact forall_put (P := fun other spot => spot.behind <+: chart.script other) behind sound.behind
  · intro other iteration peer transfer member
    rw [same] at member ⊢
    exact sound.causal other iteration peer transfer member

theorem advanced (sound : chart.Sound) {after : List Operation}
    (split : chart.script who = (chart.spots who).behind ++ operation :: after)
    (busy : (chart.spots who).iteration < drill.goal)
    (iterations : spot.iteration = (chart.spots who).iteration)
    (longer : spot.behind = (chart.spots who).behind ++ [operation])
    (sent : ∀ peer transfer, operation = .receive peer transfer →
      .send who transfer ∈ chart.done peer (chart.spots who).iteration) :
    (chart.put who spot).Sound := by
  have more : ∀ {other iteration another}, another ∈ chart.done other iteration →
      another ∈ (chart.put who spot).done other iteration :=
    fun member => (mem_done_put (sound.begun who) iterations longer ..).mpr (Or.inl member)
  constructor
  · exact sound.scored
  · apply forall_put (P := fun _ spot => drill.first ≤ spot.iteration) _ sound.begun
    rw [iterations]
    exact sound.begun who
  · apply forall_put (P := fun _ spot => spot.iteration ≤ drill.goal) _ sound.bounded
    rw [iterations]
    exact sound.bounded who
  · apply forall_put (P := fun _ spot => 0 < spot.spent → spot.iteration < drill.goal) _ sound.busy
    rw [iterations]
    exact fun _ => busy
  · apply forall_put (P := fun other spot => spot.behind <+: chart.script other) _ sound.behind
    rw [longer, split]
    exact ⟨after, by rw [List.append_assoc, List.singleton_append]⟩
  · intro other iteration peer transfer member
    rcases (mem_done_put (sound.begun who) iterations longer ..).mp member with
      old | ⟨rfl, rfl, same⟩
    · exact more (sound.causal other iteration peer transfer old)
    · exact more (sent peer transfer same.symm)

end Sound
end Chart
end PipelineTraining
