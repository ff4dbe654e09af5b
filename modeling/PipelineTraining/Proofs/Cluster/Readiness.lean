import PipelineTraining.Proofs.Cluster.UnblockedRank

/-!
Somebody can always go on. Among the operations of the least iteration that is not
done everywhere, the first one of the common course has all it needs: what its
rank has to receive was sent in front of it.
-/

namespace PipelineTraining

open Course

variable {σ α : Type} {drill : Drill σ α} {chart chart' : Chart drill} {moves : List Nat}
  {seen : List (Sighting α)} {cluster : Cluster σ α} {who iteration : Nat}

namespace Chart

/-- The rank has an operation left that waits for nobody. -/
def Ready (chart : Chart drill) (who : Nat) : Prop :=
  ∃ iteration before operation after, drill.first ≤ iteration ∧ iteration < drill.goal ∧
    chart.script who = before ++ operation :: after ∧ chart.done who iteration = before ∧
    (∀ earlier, drill.first ≤ earlier → earlier < iteration →
      chart.done who earlier = chart.script who) ∧
    ∀ peer transfer, operation = .receive peer transfer →
      .send who transfer ∈ chart.done peer iteration

theorem Ready.unchanged (ready : chart.Ready who) (course : chart'.course = chart.course)
    (same : ∀ other iteration, chart'.done other iteration = chart.done other iteration) :
    chart'.Ready who := by
  obtain ⟨iteration, before, operation, after, begun, ahead, split, done, earlier, sent⟩ := ready
  have scripts : chart'.script who = chart.script who := congrArg (partOf who) course
  refine ⟨iteration, before, operation, after, begun, ahead, scripts.trans split,
    (same ..).trans done, fun sooner start less => ?_, fun peer transfer receive => ?_⟩
  · rw [same, scripts]
    exact earlier sooner start less
  · rw [same]
    exact sent peer transfer receive

theorem Ready.not_waits (sound : chart.Sound) (ready : chart.Ready who) :
    ¬ Joint.Waits chart who := by
  rintro ⟨_, peer, transfer, rest, split, unsent⟩
  obtain ⟨iteration, before, operation, after, begun, ahead, listed, done, earlier, sent⟩ := ready
  have current := done_current (sound.begun who)
  rcases Nat.lt_trichotomy iteration (chart.spots who).iteration with past | rfl | early
  · rw [done_before begun past, listed] at done
    simp at done
  · rw [current] at done
    subst done
    obtain ⟨rfl, rfl⟩ := List.cons.inj (List.append_cancel_left (listed.symm.trans split))
    exact unsent (sent peer transfer rfl)
  · have whole := earlier _ (sound.begun who) early
    rw [current, split] at whole
    simp at whole

theorem Ready.not_rests (ready : chart.Ready who) : ¬ Joint.Rests chart cluster who := by
  rintro ⟨past, _⟩
  obtain ⟨iteration, before, operation, after, begun, ahead, listed, done, _⟩ := ready
  rw [done_before begun (past ▸ ahead), listed] at done
  simp at done

theorem done_of_front {script done front back : List Operation} {operation : Operation}
    (noDup : script.Nodup) (begun : done <+: script) (split : script = front ++ operation :: back)
    (covered : ∀ earlier ∈ front, earlier ∈ done) (missing : operation ∉ done) : done = front := by
  obtain ⟨rest, whole⟩ := begun
  rcases List.append_eq_append_iff.mp (whole.trans split) with
    ⟨more, longer, _⟩ | ⟨more, longer, next⟩
  · cases more with
    | nil => rw [longer, List.append_nil]
    | cons first others =>
        have early : first ∈ done := covered first (by simp [longer])
        rw [split, longer, List.append_assoc, List.nodup_append] at noDup
        exact absurd rfl (noDup.2.2 first early first (by simp))
  · cases more with
    | nil => rw [longer, List.append_nil]
    | cons first others =>
        obtain ⟨rfl, _⟩ := List.cons.inj next
        exact absurd (by simp [longer]) missing

/-- The first operation of the course that is not done in an iteration. -/
theorem exists_first (sound : chart.Sound) (short : chart.done who iteration ≠ chart.script who) :
    ∃ front rank operation back, chart.course = front ++ (rank, operation) :: back ∧
      operation ∉ chart.done rank iteration ∧
      ∀ other earlier, (other, earlier) ∈ front → earlier ∈ chart.done other iteration := by
  obtain ⟨rest, whole⟩ := sound.done_begins who iteration
  have noDup := (sound.scored.playable who).noDup
  cases rest with
  | nil =>
      rw [List.append_nil] at whole
      exact absurd whole short
  | cons operation others =>
      have missing : operation ∉ chart.done who iteration := by
        have apart : (chart.script who).Nodup := noDup
        rw [← whole, List.nodup_append] at apart
        exact fun member => apart.2.2 operation member operation List.mem_cons_self rfl
      have listed : (who, operation) ∈ chart.course := by
        have member : operation ∈ chart.script who := by simp [← whole]
        exact mem_partOf.mp member
      -- The course holds an undone entry, so it holds a first one.
      have present : (chart.course.find? fun entry =>
          decide (entry.2 ∉ chart.done entry.1 iteration)).isSome = true := by
        rw [List.find?_isSome]
        exact ⟨_, listed, decide_eq_true missing⟩
      obtain ⟨⟨rank, first⟩, found⟩ := Option.isSome_iff_exists.mp present
      obtain ⟨undone, front, back, split, behind⟩ := List.find?_eq_some_iff_append.mp found
      refine ⟨front, rank, first, back, split, of_decide_eq_true undone, ?_⟩
      intro other earlier member
      simpa using behind _ member

/-- As long as anything is left to do, some rank has an operation that waits for nobody. -/
theorem exists_ready (sound : chart.Sound) (begun : drill.first ≤ iteration)
    (ahead : iteration < drill.goal) (short : chart.done who iteration ≠ chart.script who) :
    ∃ rank, rank < drill.plan.layout.depth ∧ chart.Ready rank := by
  classical
  have open? : ∃ iteration, drill.first ≤ iteration ∧
      ∃ who, chart.done who iteration ≠ chart.script who := ⟨iteration, begun, who, short⟩
  -- The least iteration that is not done everywhere.
  obtain ⟨start, other, shortOther⟩ := Nat.find_spec open?
  have least : ∀ earlier, drill.first ≤ earlier → earlier < Nat.find open? →
      ∀ who, chart.done who earlier = chart.script who := by
    intro earlier sooner less who
    by_contra short
    exact Nat.find_min open? less ⟨sooner, who, short⟩
  have within : Nat.find open? < drill.goal :=
    Nat.lt_of_le_of_lt (Nat.find_min' open? ⟨begun, who, short⟩) ahead
  obtain ⟨front, rank, operation, back, split, missing, covered⟩ := exists_first sound shortOther
  have script : chart.script rank = partOf rank front ++ operation :: partOf rank back := by
    unfold Chart.script
    rw [split, partOf_append]
    simp [partOf]
  have listed : (rank, operation) ∈ chart.course := by simp [split]
  -- All of the rank before that operation is done, so it stands in front of it. If it is a
  -- receive, its send is earlier in the course and done too.
  have done := done_of_front (sound.scored.playable rank).noDup (sound.done_begins rank _) script
    (fun earlier member => covered rank earlier (mem_partOf.mp member)) missing
  refine ⟨rank, sound.scored.inside rank operation listed, _, _, operation, _, start, within,
    script,
    done, fun earlier sooner less => least earlier sooner less rank, ?_⟩
  rintro peer transfer rfl
  exact covered peer _ (sound.scored.sent front rank peer transfer back split)

end Chart
end PipelineTraining
