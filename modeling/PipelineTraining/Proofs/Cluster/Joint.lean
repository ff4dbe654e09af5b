import PipelineTraining.Proofs.Cluster.CallsOnce
import PipelineTraining.Proofs.Cluster.InFlight

/-!
The joint state of all ranks: where each stands and what it is doing there, what
is on its way and what has been seen. One turn of any rank keeps it.
-/

namespace PipelineTraining

variable {σ α : Type}

namespace Spot

def turned (spot : Spot) (spent : Nat) : Spot :=
  { spot with spent := spent }

def cleared (spot : Spot) : Spot :=
  { spot with opened := true, spent := 2 }

def executed (spot : Spot) (operation : Operation) : Spot :=
  { spot with
    behind := spot.behind ++ [operation]
    spent := 2 + 3 * (spot.behind.length + 1) }

def next (spot : Spot) : Spot :=
  ⟨spot.iteration + 1, false, [], 0⟩

end Spot

inductive Stands (task : Task α) (seen : List (Sighting α)) (spot : Spot) (member : Member σ α) :
    Prop
  | idle (activity : member.activity = .idle) (counted : member.worker.iteration = task.iteration)
      (empty : spot.behind = []) (spent : spot.spent = 0)
  | clearing {run : Run α} (activity : member.activity = .running run) (manned : Manned task run)
      (phase : run.phase = .clearing none) (empty : spot.behind = []) (spent : spot.spent = 1)
  | choosing {run : Run α} {after : List Operation} (activity : member.activity = .running run)
      (choosing : Choosing task seen spot.behind after run) (opened : spot.opened = true)
      (spent : spot.spent = 2 + 3 * spot.behind.length)
  | poised {run : Run α} {operation : Operation} {after : List Operation}
      (activity : member.activity = .running run)
      (poised : Poised task seen spot.behind after operation run) (opened : spot.opened = true)
      (spent : spot.spent = 3 + 3 * spot.behind.length)
  | waiting {run : Run α} {peer : Nat} {transfer : Transfer} {after : List Operation}
      (activity : member.activity = .waiting run)
      (poised : Poised task seen spot.behind after (.receive peer transfer) run)
      (opened : spot.opened = true) (spent : spot.spent = 4 + 3 * spot.behind.length)
  | ended {run : Run α} {report : StepReport α} (activity : member.activity = .running run)
      (phase : run.phase = .ended (.ok report)) (manned : Manned task run)
      (finished : Finished task seen report) (whole : spot.behind = task.script)
      (opened : spot.opened = true) (spent : spot.spent = 3 + 3 * spot.behind.length)

theorem Stands.mono {task : Task α} {seen later : List (Sighting α)} {spot : Spot}
    {member : Member σ α} (more : seen ⊆ later) (stands : Stands task seen spot member) :
    Stands task later spot member := by
  cases stands with
  | idle activity counted empty spent => exact .idle activity counted empty spent
  | clearing activity manned phase empty spent => exact .clearing activity manned phase empty spent
  | choosing activity choosing opened spent =>
      exact .choosing activity (choosing.mono more) opened spent
  | poised activity poised opened spent => exact .poised activity (poised.mono more) opened spent
  | waiting activity poised opened spent => exact .waiting activity (poised.mono more) opened spent
  | ended activity phase manned finished whole opened spent =>
      exact .ended activity phase manned (finished.mono more) whole opened spent

def Attended {drill : Drill σ α} (chart : Chart drill) (seen : List (Sighting α))
    (members : List (Member σ α)) : Prop :=
  ∀ who member, members[who]? = some member → member.replica = 0 ∧
    Equipped drill.plan who (chart.script who) member.worker ∧
    Stands (chart.task who (chart.spots who).iteration) seen (chart.spots who) member

def Chart.turns {drill : Drill σ α} (chart : Chart drill) (who : Nat) : Nat :=
  3 * (chart.script who).length + 4

def Chart.performed {drill : Drill σ α} (chart : Chart drill) (who : Nat) : Nat :=
  ((chart.spots who).iteration - drill.first) * (chart.script who).length +
    (chart.spots who).behind.length

structure Joint {drill : Drill σ α} (moves : List Nat) (seen : List (Sighting α))
    (cluster : Cluster σ α) (chart : Chart drill) : Prop where
  sound : chart.Sound
  size : cluster.members.length = drill.plan.layout.depth
  attended : Attended chart seen cluster.members
  carried : ∃ mesh, cluster.payloads = [mesh] ∧ Carried chart seen mesh
  witnessed : Witnessed chart seen
  known : ∀ who ∈ moves, who < drill.plan.layout.depth
  counted : ∀ who, moves.count who ≤
    ((chart.spots who).iteration - drill.first) * chart.turns who + (chart.spots who).spent

/-- A turn that executes nothing changes nothing that is done; any other executes one operation. -/
def Chart.Follows {drill : Drill σ α} (chart chart' : Chart drill) (who : Nat) : Prop :=
  chart'.course = chart.course ∧
    ((chart'.performed who = chart.performed who ∧
        ∀ other iteration, chart'.done other iteration = chart.done other iteration) ∨
      chart'.performed who = chart.performed who + 1)

def Turned {drill : Drill σ α} (moves : List Nat) (seen : List (Sighting α))
    (cluster : Cluster σ α) (chart : Chart drill) (who : Nat) : Prop :=
  ∃ next chart', drill.move? cluster who = some next ∧
    Joint (moves ++ [who]) (seen ++ (drill.sighting? cluster who).toList) next chart' ∧
    chart.Follows chart' who

variable {drill : Drill σ α} {chart : Chart drill} {moves : List Nat}
    {seen later : List (Sighting α)}
  {cluster next : Cluster σ α} {who : Nat} {member member' : Member σ α} {mesh : Mesh α}
  {spot : Spot} {operation : Operation} {run : Run α}

namespace Joint

theorem turn (joint : Joint moves seen cluster chart) (found : cluster.members[who]? = some member)
    (member' : Member σ α) (more : seen ⊆ later) (sound : (chart.put who spot).Sound)
    (carried : Carried (chart.put who spot) later mesh)
    (witnessed : Witnessed (chart.put who spot) later) (replica : member'.replica = 0)
    (equipped : Equipped drill.plan who (chart.script who) member'.worker)
    (stands : Stands (chart.task who spot.iteration) later spot member')
    (count : ((chart.spots who).iteration - drill.first) * chart.turns who +
      (chart.spots who).spent < (spot.iteration - drill.first) * chart.turns who + spot.spent)
    (members : next.members = cluster.members.set who member')
    (payloads : next.payloads = [mesh]) :
    Joint (moves ++ [who]) later next (chart.put who spot) := by
  have inside := (List.getElem?_eq_some_iff.mp found).1
  constructor
  · exact sound
  · rw [members, List.length_set, joint.size]
  · intro other another known
    rw [members] at known
    by_cases here : other = who
    · subst here
      rw [List.getElem?_set_self inside] at known
      obtain rfl := Option.some.inj known
      rw [Chart.put_self]
      exact ⟨replica, equipped, stands⟩
    · rw [List.getElem?_set_ne (Ne.symm here)] at known
      obtain ⟨replica, equipped, stands⟩ := joint.attended other another known
      rw [Chart.put_other here]
      exact ⟨replica, equipped, stands.mono more⟩
  · exact ⟨mesh, payloads, carried⟩
  · exact witnessed
  · intro other member
    rcases List.mem_append.mp member with old | now
    · exact joint.known other old
    · rw [List.mem_singleton.mp now, ← joint.size]
      exact inside
  · intro other
    -- Every turn of a rank moves its spot on, so no turn is left uncounted.
    rw [List.count_append]
    have same : (chart.put who spot).turns other = chart.turns other := rfl
    rw [same]
    have before := joint.counted other
    by_cases here : other = who
    · subst here
      rw [Chart.put_self, List.count_singleton_self]
      omega
    · rw [Chart.put_other here, List.count_singleton, if_neg (by simpa using Ne.symm here)]
      omega

theorem pause (joint : Joint moves seen cluster chart)
    (found : cluster.members[who]? = some member) (member' : Member σ α) (spent : Nat)
    (ahead : (chart.spots who).iteration < drill.goal) (longer : (chart.spots who).spent < spent)
    (replica : member'.replica = 0)
    (equipped : Equipped drill.plan who (chart.script who) member'.worker)
    (stands : Stands (chart.task who (chart.spots who).iteration) seen
      ((chart.spots who).turned spent) member')
    (moved : drill.move? cluster who = some next) (unseen : drill.sighting? cluster who = none)
    (members : next.members = cluster.members.set who member')
    (payloads : next.payloads = cluster.payloads) : Turned moves seen cluster chart who := by
  obtain ⟨mesh, same, carried⟩ := joint.carried
  have dones : ∀ other iteration,
      (chart.put who ((chart.spots who).turned spent)).done other iteration =
        chart.done other iteration := Chart.done_put_same rfl rfl
  refine ⟨next, chart.put who ((chart.spots who).turned spent), moved, ?_, rfl,
    Or.inl ⟨?_, dones⟩⟩
  · rw [unseen, Option.toList_none, List.append_nil]
    refine joint.turn found member' (List.Subset.refl _) ?_ ?_ ?_ replica equipped stands ?_ members
      (payloads.trans same)
    · exact joint.sound.replaced dones (joint.sound.begun who) (joint.sound.bounded who)
        (fun _ => ahead) (joint.sound.behind who)
    · refine carried.unchanged (List.Subset.refl _) dones fun other iteration reached => ?_
      exact (Carried.reaches_put (by rfl) (by rfl) other iteration).mpr reached
    · exact joint.witnessed.unchanged dones (Chart.iteration_put rfl) rfl
    · exact Nat.add_lt_add_left longer _
  · unfold Chart.performed
    rw [Chart.put_self]
    rfl

end Joint
end PipelineTraining
