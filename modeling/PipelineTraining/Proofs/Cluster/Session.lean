import PipelineTraining.Proofs.Cluster.UnblockedRank
import PipelineTraining.Proofs.Engine.Span

/-!
The ranks of one pipeline at work over one mesh, where anything may fail. Nothing is
assumed of the order of their turns, of what callbacks answer, of how long a receive
waits or of when a rank is called; every turn is written down.
-/

namespace PipelineTraining

open Course

variable {α : Type}

def Exchange.travels : Exchange α → Bool
  | ⟨.dropStale _, _⟩ => true
  | ⟨.send .., .ok _⟩ => true
  | ⟨.receive .., .ok _⟩ => true
  | _ => false

inductive Carries (who : Nat) (mesh : Mesh α) : Option (Exchange α) → Mesh α → Prop
  | apart {exchange : Option (Exchange α)} (apart : exchange.any Exchange.travels = false) :
      Carries who mesh exchange mesh
  | drop {epoch : UInt32} :
      Carries who mesh (some ⟨.dropStale epoch, ()⟩) (mesh.discard who (·.isStale epoch)).2
  | send {peer : Nat} {tag : Tag} {payload : α} {next : Mesh α}
      (sent : mesh.send who peer tag payload = .ok next) :
      Carries who mesh (some ⟨.send peer tag payload, .ok ()⟩) next
  | receive {peer : Nat} {tag : Tag} {payload : α} {next : Mesh α}
      (received : mesh.receive who peer tag = .ok (some payload, next)) :
      Carries who mesh (some ⟨.receive peer tag, .ok payload⟩) next

structure Event (α : Type) where
  who : Nat
  run : Run α
  exchange : Option (Exchange α)
  next : Run α

def callsIn (who : Nat) (attempt : Option (Nat × Nat)) (log : List (Event α)) :
    List (Exchange α) :=
  log.filterMap fun event =>
    if event.who = who ∧ event.run.underway? = attempt then event.exchange else none

def turnsIn (who : Nat) (attempt : Nat × Nat) (log : List (Event α)) : Nat :=
  log.countP fun event => event.who = who ∧ event.run.underway? = some attempt

inductive Post (α : Type) where
  | idle (worker : Worker)
  | busy (run : Run α)

structure Team (α : Type) where
  posts : List (Post α)
  mesh : Mesh α

def Team.put (team : Team α) (who : Nat) (post : Post α) : Team α :=
  { team with posts := team.posts.set who post }

/-- A worker of a rank as made for the plan. How it validates, what it records and how long it
waits is its own. -/
def Recruit (plan : Plan) (first who : Nat) (worker : Worker) : Prop :=
  ∃ made validated validator seat window sink timeout,
    Worker.make plan who plan.ranks.length = .ok made ∧
    made.withValidator validator seat = .ok validated ∧
    worker = { validated.withProfiling window sink with timeout := timeout, iteration := first }

/-- What the ranks can come to, with all their turns so far. -/
inductive Session (plan : Plan) (first rounds : Nat) : List (Event α) → Team α → Prop
  | start {workers : List Worker} (count : workers.length = plan.ranks.length)
      (recruited : ∀ who worker, workers[who]? = some worker → Recruit plan first who worker) :
      Session plan first rounds [] ⟨workers.map .idle, .make plan.ranks.length⟩
  /-- A rank is called for an iteration or a step. -/
  | begin {log : List (Event α)} {team : Team α} {who : Nat} {worker : Worker} {run : Run α}
      {inputs : Option (List α)} (past : Session plan first rounds log team)
      (idle : team.posts[who]? = some (.idle worker)) (left : worker.iteration < first + rounds)
      (suited : Suited plan inputs)
      (called : run = .ofIteration worker inputs ∨ run = .ofStep worker inputs) :
      Session plan first rounds log (team.put who (.busy run))
  | stride {log : List (Event α)} {team : Team α} {who : Nat} {run next : Run α}
      {exchange : Option (Exchange α)} {mesh : Mesh α} (past : Session plan first rounds log team)
      (busy : team.posts[who]? = some (.busy run)) (stride : Stride run exchange next)
      (carries : Carries who team.mesh exchange mesh) :
      Session plan first rounds (log ++ [⟨who, run, exchange, next⟩])
        { team.put who (.busy next) with mesh := mesh }
  /-- A rank looks for a message that has not come. -/
  | look {log : List (Event α)} {team : Team α} {who peer : Nat} {tag : Tag} {mesh : Mesh α}
      (past : Session plan first rounds log team)
      (missing : team.mesh.receive who peer tag = .ok (none, mesh)) :
      Session plan first rounds log { team with mesh := mesh }
  | finish {log : List (Event α)} {team : Team α} {who : Nat} {run : Run α}
      {result : Except Fault (StepReport α)} (past : Session plan first rounds log team)
      (busy : team.posts[who]? = some (.busy run)) (ended : run.turn = .over result) :
      Session plan first rounds log (team.put who (.idle run.worker))

variable {plan : Plan} {course : List (Nat × Operation)} {first rounds who other : Nat}
  {log : List (Event α)} {team : Team α} {event : Event α}

theorem callsIn_self (log : List (Event α)) (event : Event α) :
    callsIn event.who event.run.underway? (log ++ [event]) =
      callsIn event.who event.run.underway? log ++ event.exchange.toList := by
  rw [callsIn, List.filterMap_append]
  cases exchange : event.exchange <;> simp [callsIn, exchange]

theorem callsIn_other {attempt : Option (Nat × Nat)} (log : List (Event α)) (event : Event α)
    (different : event.who = who → event.run.underway? ≠ attempt) :
    callsIn who attempt (log ++ [event]) = callsIn who attempt log := by
  rw [callsIn, List.filterMap_append]
  simpa [callsIn] using fun here same => absurd same (different here)

theorem callsIn_none {attempt : Option (Nat × Nat)}
    (absent : ∀ event ∈ log, event.who = who → event.run.underway? ≠ attempt) :
    callsIn who attempt log = [] := by
  refine List.filterMap_eq_nil_iff.mpr fun event member => if_neg ?_
  exact fun ⟨here, same⟩ => absent event member here same

theorem turnsIn_self {attempt : Nat × Nat} (log : List (Event α)) (event : Event α)
    (here : event.who = who) (underway : event.run.underway? = some attempt) :
    turnsIn who attempt (log ++ [event]) = turnsIn who attempt log + 1 := by
  simp [turnsIn, here, underway]

theorem turnsIn_other {attempt : Nat × Nat} (log : List (Event α)) (event : Event α)
    (different : event.who = who → event.run.underway? ≠ some attempt) :
    turnsIn who attempt (log ++ [event]) = turnsIn who attempt log := by
  rw [turnsIn, List.countP_append]
  simpa [turnsIn] using fun here same => absurd same (different here)

theorem turnsIn_none {attempt : Nat × Nat}
    (absent : ∀ event ∈ log, event.who = who → event.run.underway? ≠ some attempt) :
    turnsIn who attempt log = 0 := by
  refine List.countP_eq_zero.mpr fun event member both => ?_
  obtain ⟨here, same⟩ := of_decide_eq_true both
  exact absent event member here same

theorem Team.of_put {post taken : Post α} (found : (team.put who taken).posts[other]? = some post) :
    other = who ∧ post = taken ∨ other ≠ who ∧ team.posts[other]? = some post := by
  rw [put, List.getElem?_set] at found
  by_cases here : who = other
  · rw [if_pos here] at found
    split at found
    · exact Or.inl ⟨here.symm, (Option.some.inj found).symm⟩
    · cases found
  · rw [if_neg here] at found
    exact Or.inr ⟨Ne.symm here, found⟩

theorem Recruit.fitted {worker : Worker} (scored : Scored plan course)
    (recruit : Recruit plan first who worker) : Fitted plan who (partOf who course) worker := by
  obtain ⟨made, validated, validator, seat, window, sink, timeout, makes, validates, rfl⟩ := recruit
  obtain ⟨placed, planned, scripted, _, limited, _, tracked⟩ :=
    Worker.equipped_of_make scored makes
  have inside := (List.getElem?_eq_some_iff.mp tracked).1
  unfold Worker.withValidator at validates
  split at validates
  · cases validates
  · obtain rfl := Except.ok.inj validates
    exact ⟨placed, planned, scripted, limited, inside⟩

theorem Conduct.begin {rank : Nat} {script : List Operation} {worker : Worker} {run : Run α}
    {inputs : Option (List α)} (part : List (Exchange α)) (fitted : Fitted plan rank script worker)
    (suited : Suited plan inputs)
    (called : run = .ofIteration worker inputs ∨ run = .ofStep worker inputs) :
    Conduct plan rank script part run ∧ run.iteration = worker.iteration ∧
      run.worker.iteration = worker.iteration + 1 := by
  obtain ⟨placed, planned, scripted, limited, tracked⟩ := fitted
  have begun : ∀ phase : Phase α, phase.trial? = none → Orderly phase →
      Conduct plan rank script part
        ⟨{ worker with iteration := worker.iteration + 1 }, worker.iteration, inputs, phase⟩ := by
    intro phase idle orderly
    refine ⟨⟨placed, planned, scripted, limited, tracked⟩, orderly, suited, fun trial shown => ?_⟩
    rw [idle] at shown
    cases shown
  have clearing : Run.ofIteration worker inputs =
      ⟨{ worker with iteration := worker.iteration + 1 }, worker.iteration, inputs,
        .clearing none⟩ :=
    Run.beginAttempt_of_suited (planned.symm ▸ suited) none
  have unguarded : Orderly (.clearing none : Phase α) := .clearing fun _ same => by cases same
  rcases called with rfl | rfl
  · rw [clearing]
    exact ⟨begun _ rfl unguarded, rfl, rfl⟩
  · rw [Run.ofStep, clearing]
    split
    · exact ⟨begun _ rfl .snapshotting, rfl, rfl⟩
    · exact ⟨begun _ rfl unguarded, rfl, rfl⟩

/-- Where a rank stands. It makes no attempt twice. -/
inductive Stationed (plan : Plan) (script : List Operation) (first rounds who : Nat)
    (log : List (Event α)) : Post α → Prop
  | idle {worker : Worker} (fitted : Fitted plan who script worker)
      (begun : first ≤ worker.iteration)
      (past : ∀ event ∈ log, event.who = who → ∀ attempt, event.run.underway? = some attempt →
        attempt.1 < worker.iteration) : Stationed plan script first rounds who log (.idle worker)
  | busy {run : Run α} (conduct : Conduct plan who script (callsIn who run.underway? log) run)
      (counted : run.worker.iteration = run.iteration + 1) (begun : first ≤ run.iteration)
      (ahead : run.iteration < first + rounds)
      (past : ∀ event ∈ log, event.who = who → ∀ attempt, event.run.underway? = some attempt →
        run.Past attempt) : Stationed plan script first rounds who log (.busy run)

def Dispatched (plan : Plan) (course : List (Nat × Operation)) (first rounds : Nat)
    (log : List (Event α)) (who : Nat) (envelope : Envelope α) : Prop :=
  ∃ sending ∈ log, ∃ transfer, sending.who = envelope.source ∧
    sending.exchange = some ⟨.send who envelope.tag envelope.payload, .ok ()⟩ ∧
    Labelling plan (partOf envelope.source course) sending.run (.send who transfer) transfer
      envelope.tag ∧
    first ≤ sending.run.iteration ∧ sending.run.iteration < first + rounds

theorem Dispatched.mono {later : List (Event α)} {envelope : Envelope α} (more : log ⊆ later)
    (dispatched : Dispatched plan course first rounds log who envelope) :
    Dispatched plan course first rounds later who envelope := by
  obtain ⟨sending, member, rest⟩ := dispatched
  exact ⟨sending, more member, rest⟩

namespace Stationed

variable {script : List Operation} {run next : Run α} {exchange : Option (Exchange α)}

theorem elsewhere {post : Post α} (stationed : Stationed plan script first rounds who log post)
    (different : event.who ≠ who) :
    Stationed plan script first rounds who (log ++ [event]) post := by
  have old : ∀ earlier ∈ log ++ [event], earlier.who = who → earlier ∈ log := by
    intro earlier member here
    rcases List.mem_append.mp member with old | new
    · exact old
    · obtain rfl := List.mem_singleton.mp new
      exact absurd here different
  cases stationed with
  | idle fitted begun past =>
      exact .idle fitted begun
        fun earlier member here => past earlier (old earlier member here) here
  | busy conduct counted begun ahead past =>
      rw [← callsIn_other log event fun here => absurd here different] at conduct
      exact .busy conduct counted begun ahead
        fun earlier member here => past earlier (old earlier member here) here

theorem stride (scored : Scored plan course) (tagged : plan.layout.Tagged plan.microbatches)
    (conduct : Conduct plan who (partOf who course) (callsIn who run.underway? log) run)
    (counted : run.worker.iteration = run.iteration + 1) (begun : first ≤ run.iteration)
    (ahead : run.iteration < first + rounds)
    (past : ∀ event ∈ log, event.who = who → ∀ attempt, event.run.underway? = some attempt →
      run.Past attempt) (stride : Stride run exchange next) :
    Stationed plan (partOf who course) first rounds who (log ++ [⟨who, run, exchange, next⟩])
      (.busy next) := by
  have kin := stride.kin
  refine .busy (conduct.stride (scored.playable who) scored.sound tagged stride ?_ ?_) ?_ ?_ ?_ ?_
  · intro same
    rw [← same]
    exact callsIn_self log ⟨who, run, exchange, next⟩
  · intro idle begins
    obtain ⟨attempt, underway⟩ := Option.isSome_iff_exists.mp begins
    obtain ⟨anew, -⟩ := stride.opens idle underway
    rw [underway]
    refine callsIn_none fun event member here same => ?_
    rcases List.mem_append.mp member with old | new
    · -- Attempts of the past came before the one that begins now.
      exact run.not_past (anew ▸ past event old here attempt same)
    · obtain rfl := List.mem_singleton.mp new
      rw [idle] at same
      cases same
  · rw [kin.counted, kin.iteration, counted]
  · rw [kin.iteration]
    exact begun
  · rw [kin.iteration]
    exact ahead
  · intro event member here attempt underway
    rcases List.mem_append.mp member with old | new
    · exact (past event old here attempt underway).stride conduct.orderly stride
    · obtain rfl := List.mem_singleton.mp new
      exact stride.past conduct.orderly underway

end Stationed

namespace Session

section
variable (scored : Scored plan course) (tagged : plan.layout.Tagged plan.microbatches)

include scored tagged

theorem stationed {post : Post α} (session : Session plan first rounds log team)
    (found : team.posts[who]? = some post) :
    Stationed plan (partOf who course) first rounds who log post := by
  -- By induction on the turns of all ranks: a rank's own turn keeps it in its ways, and a turn of
  -- another one changes nothing that it has exchanged.
  induction session generalizing who post with
  | start _ recruited =>
      rw [List.getElem?_map] at found
      obtain ⟨worker, known, rfl⟩ := Option.map_eq_some_iff.mp found
      have recruit := recruited who worker known
      refine .idle (recruit.fitted scored) ?_ fun _ member => by cases member
      obtain ⟨_, _, _, _, _, _, _, _, _, rfl⟩ := recruit
      exact Nat.le_refl _
  | begin past idle left suited called ih =>
      rcases Team.of_put found with ⟨rfl, rfl⟩ | ⟨_, found⟩
      · cases ih idle with
        | idle fitted begun elapsed =>
            obtain ⟨conduct, iteration, counted⟩ := Conduct.begin _ fitted suited called
            refine .busy conduct (by omega) (by omega) (by omega) ?_
            intro event member here attempt underway
            rw [Run.Past, iteration]
            exact Or.inl (elapsed event member here attempt underway)
      · exact ih found
  | stride past busy stride carries ih =>
      rcases Team.of_put found with ⟨rfl, rfl⟩ | ⟨different, found⟩
      · cases ih busy with
        | busy conduct counted begun ahead elapsed =>
            exact .stride scored tagged conduct counted begun ahead elapsed stride
      · exact (ih found).elsewhere (Ne.symm different)
  | look _ _ ih => exact ih found
  | finish past busy ended ih =>
      rcases Team.of_put found with ⟨rfl, rfl⟩ | ⟨_, found⟩
      · cases ih busy with
        | busy conduct counted begun ahead elapsed =>
            refine .idle conduct.fitted (by omega) ?_
            intro event member here attempt underway
            have behind := elapsed event member here attempt underway
            unfold Run.Past at behind
            omega
      · exact ih found

/-- The turns of an attempt so far and those before it stay within the bound. -/
theorem spent {run : Run α} {attempt : Nat × Nat} (session : Session plan first rounds log team)
    (busy : team.posts[who]? = some (.busy run)) (underway : run.underway? = some attempt) :
    turnsIn who attempt log + run.turnsAhead ≤ run.turnBound := by
  induction session generalizing who run attempt with
  | start =>
      rw [List.getElem?_map] at busy
      obtain ⟨_, _, same⟩ := Option.map_eq_some_iff.mp busy
      cases same
  | begin past idle left suited called ih =>
      rcases Team.of_put busy with ⟨_, same⟩ | ⟨_, busy⟩
      · obtain rfl := Post.busy.inj same
        rw [Run.underway?, Run.trial?_of_called called] at underway
        cases underway
      · exact ih busy underway
  | @stride log team actor before next exchange mesh past found stride carries ih =>
      rcases Team.of_put busy with ⟨rfl, same⟩ | ⟨different, busy⟩
      · obtain rfl := Post.busy.inj same
        have bound : run.turnBound = before.turnBound := by
          rw [Run.turnBound, Run.turnBound, stride.kin.operations, stride.kin.seat]
        rw [bound]
        obtain ⟨onward, known, _⟩ := Option.map_eq_some_iff.mp underway
        cases shown : before.phase.trial? with
        | some trial =>
            have same := (stride.underway_of_on shown known).symm.trans underway
            have sooner := ih found same
            have nearer := stride.nearer shown known
            have counted : turnsIn who attempt (log ++ [⟨who, before, exchange, run⟩]) =
                turnsIn who attempt log + 1 := turnsIn_self log _ rfl same
            omega
        | none =>
            have idle : before.underway? = none := by rw [Run.underway?, shown, Option.map_none]
            obtain ⟨anew, -⟩ := stride.opens idle underway
            cases past.stationed scored tagged found with
            | busy conduct _ _ _ elapsed =>
                have fresh : turnsIn who attempt (log ++ [⟨who, before, exchange, run⟩]) = 0 := by
                  rw [turnsIn_other log _ fun _ same => by cases idle.symm.trans same]
                  exact turnsIn_none fun event member here same =>
                    before.not_past (anew ▸ elapsed event member here attempt same)
                rcases stride.idle shown with resting | ⟨guard, _, rfl, _⟩
                · rw [resting.idle] at known
                  cases known
                · rw [fresh, Nat.zero_add]
                  refine (before.turnsAhead_cleared guard ?_).trans before.attemptBound_le
                  rw [conduct.fitted.scripted]
                  exact List.nodup_iff_count_le_one.mp (scored.playable who).noDup _
      · have apart : turnsIn who attempt (log ++ [⟨actor, before, exchange, next⟩]) =
            turnsIn who attempt log :=
          turnsIn_other log _ fun here => absurd here.symm different
        rw [apart]
        exact ih busy underway
  | look _ _ ih => exact ih busy underway
  | finish past found ended ih =>
      rcases Team.of_put busy with ⟨_, same⟩ | ⟨_, busy⟩
      · cases same
      · exact ih busy underway

/-- Whatever is held for a rank was sent to it by a rank in the middle of an attempt. -/
theorem dispatched {envelope : Envelope α} (session : Session plan first rounds log team)
    (held : envelope ∈ team.mesh.held who) :
    Dispatched plan course first rounds log who envelope := by
  induction session generalizing who envelope with
  | start =>
      rw [Mesh.held_make] at held
      cases held
  | begin _ _ _ _ _ ih => exact ih held
  | @stride log team actor run next exchange mesh past busy stride carries ih =>
      have more : log ⊆ log ++ [⟨actor, run, exchange, next⟩] := List.subset_append_left ..
      cases carries with
      | apart => exact (ih held).mono more
      | drop => exact (ih (Mesh.held_discard_subset _ _ _ _ held)).mono more
      | receive received => exact (ih ((Mesh.held_receive received).1 _ held)).mono more
      | @send peer tag payload _ sent =>
          rcases Mesh.mem_held_send sent held with old | ⟨rfl, rfl⟩
          · exact (ih old).mono more
          · -- The sender was in an attempt at the time, and labelled the payload with it.
            cases past.stationed scored tagged busy with
            | busy conduct _ begun ahead =>
                obtain ⟨transfer, labelling⟩ := conduct.sends stride
                exact ⟨_, List.mem_append_right _ List.mem_cons_self, transfer, rfl, rfl, labelling,
                  begun, ahead⟩
  | look _ missing ih => exact ih ((Mesh.held_receive missing).1 _ held)
  | finish _ _ _ ih => exact ih held

end
end Session
end PipelineTraining
