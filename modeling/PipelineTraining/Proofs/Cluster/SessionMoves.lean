import PipelineTraining.Proofs.Cluster.Session

/-!
The moves of a cluster of one pipeline. Whatever its members' callbacks answer and whichever
wait ends, they are turns of a session.
-/

namespace PipelineTraining

variable {σ α : Type}

def Member.post (member : Member σ α) : Post α :=
  match member.activity with
  | .idle => .idle member.worker
  | .running run => .busy run
  | .waiting run => .busy run

def Post.rank : Post α → Nat
  | .idle worker => worker.rank
  | .busy run => run.worker.rank

namespace Cluster

def team (cluster : Cluster σ α) : Team α :=
  ⟨cluster.members.map Member.post, cluster.payloadMesh 0⟩

/-- A cluster of one pipeline, its members in the order of their ranks. -/
structure Single (cluster : Cluster σ α) : Prop where
  payloads : cluster.payloads.length = 1
  placed : ∀ who (member : Member σ α), cluster.members[who]? = some member →
    member.replica = 0 ∧ member.worker.rank = who ∧ member.post.rank = who

variable {cluster : Cluster σ α} {who : Nat} {member : Member σ α} {run : Run α}

theorem team_put (cluster : Cluster σ α) (who : Nat) (member : Member σ α) :
    (cluster.put who member).team = cluster.team.put who member.post := by
  simp [team, put, Team.put, payloadMesh]

theorem team_post (found : cluster.members[who]? = some member) :
    cluster.team.posts[who]? = some member.post := by
  rw [team, List.getElem?_map, found]
  rfl

namespace Single

theorem rank_of_busy (single : cluster.Single) (found : cluster.members[who]? = some member)
    (busy : member.post = .busy run) : run.worker.rank = who := by
  have placed := (single.placed who member found).2.2
  rwa [busy] at placed

theorem team_putPayloads (single : cluster.Single) (mesh : Mesh α) :
    (cluster.putPayloads 0 mesh).team = { cluster.team with mesh := mesh } := by
  have inside : 0 < cluster.payloads.length := by rw [single.payloads]; exact Nat.one_pos
  simp [team, Cluster.putPayloads, payloadMesh, inside]

theorem put (single : cluster.Single) {taken : Member σ α} (replica : taken.replica = 0)
    (placed : taken.worker.rank = who) (post : taken.post.rank = who) :
    (cluster.put who taken).Single := by
  refine ⟨single.payloads, fun other old found => ?_⟩
  rw [Cluster.put, List.getElem?_set] at found
  split at found
  · next here =>
    subst here
    split at found
    · obtain rfl := Option.some.inj found
      exact ⟨replica, placed, post⟩
    · cases found
  · exact single.placed other old found

theorem putPayloads (single : cluster.Single) (mesh : Mesh α) :
    (cluster.putPayloads 0 mesh).Single :=
  ⟨(List.length_set ..).trans single.payloads, single.placed⟩

theorem goOn (single : cluster.Single) (found : cluster.members[who]? = some member) (own : σ)
    (placed : run.worker.rank = who) : (cluster.goOn who member own run).Single := by
  obtain ⟨replica, rank, _⟩ := single.placed who member found
  exact single.put replica rank placed

end Single
end Cluster

def Continued (plan : Plan) (first rounds : Nat) (log : List (Event α)) (cluster : Cluster σ α) :
    Prop :=
  cluster.Single ∧ ∃ later, Session plan first rounds (log ++ later) cluster.team

theorem Continued.congr {plan : Plan} {first rounds : Nat} {log : List (Event α)}
    {cluster other : Cluster σ α} (continued : Continued plan first rounds log cluster)
    (members : other.members = cluster.members) (payloads : other.payloads = cluster.payloads) :
    Continued plan first rounds log other := by
  obtain ⟨single, later, session⟩ := continued
  have team : other.team = cluster.team := by
    rw [Cluster.team, Cluster.payloadMesh, members, payloads]
    rfl
  exact ⟨⟨payloads ▸ single.payloads, members ▸ single.placed⟩, later, team ▸ session⟩

namespace Session

variable {plan : Plan} {first rounds who : Nat} {log : List (Event α)} {cluster next : Cluster σ α}
  {member : Member σ α} {run onward : Run α} {exchange : Option (Exchange α)} {mesh : Mesh α}
  {callbacks : Callbacks σ α}

theorem continued (session : Session plan first rounds log cluster.team) (single : cluster.Single) :
    Continued plan first rounds log cluster :=
  ⟨single, [], by rwa [List.append_nil]⟩

theorem replied (session : Session plan first rounds log cluster.team) (single : cluster.Single)
    (found : cluster.members[who]? = some member) (busy : member.post = .busy run)
    (stride : Stride run exchange onward) (apart : exchange.any Exchange.travels = false)
    (own : σ) : Continued plan first rounds log (cluster.goOn who member own onward) := by
  have rank := stride.kin.rank.trans (single.rank_of_busy found busy)
  refine ⟨single.goOn found own rank, [⟨who, run, exchange, onward⟩], ?_⟩
  rw [Cluster.goOn, Cluster.team_put]
  exact session.stride (busy ▸ Cluster.team_post found) stride (.apart apart)

/-- The mesh of the fingerprints is not part of the team. -/
theorem exchanged (session : Session plan first rounds log cluster.team) (single : cluster.Single)
    (found : cluster.members[who]? = some member) (busy : member.post = .busy run)
    (stride : Stride run exchange onward) (apart : exchange.any Exchange.travels = false)
    (fingerprints : Mesh StageFingerprint) (own : σ) :
    Continued plan first rounds log
      ((cluster.putFingerprints fingerprints).goOn who member own onward) := by
  obtain ⟨single, later, session⟩ := session.replied single found busy stride apart own
  exact ⟨⟨single.payloads, single.placed⟩, later, session⟩

theorem carried (session : Session plan first rounds log cluster.team) (single : cluster.Single)
    (found : cluster.members[who]? = some member) (busy : member.post = .busy run)
    (stride : Stride run exchange onward)
    (carries : Carries who (cluster.payloadMesh 0) exchange mesh) (own : σ) :
    Continued plan first rounds log ((cluster.putPayloads 0 mesh).goOn who member own onward) := by
  have rank := stride.kin.rank.trans (single.rank_of_busy found busy)
  refine ⟨(single.putPayloads mesh).goOn found own rank,
    [⟨who, run, exchange, onward⟩], ?_⟩
  rw [Cluster.goOn, Cluster.team_put, single.team_putPayloads]
  exact session.stride (busy ▸ Cluster.team_post found) stride carries

/-- A receive that is let through makes its member wait, which is no turn. -/
theorem waited (session : Session plan first rounds log cluster.team) (single : cluster.Single)
    (found : cluster.members[who]? = some member) (busy : member.post = .busy run) (own : σ) :
    Continued plan first rounds log
      (cluster.put who { member with own := own, activity := .waiting run }) := by
  obtain ⟨replica, rank, _⟩ := single.placed who member found
  refine ⟨single.put replica rank (single.rank_of_busy found busy), [], ?_⟩
  have same : cluster.team.put who (.busy run) = cluster.team := by
    have known := Cluster.team_post found
    rw [busy] at known
    obtain ⟨inside, known⟩ := List.getElem?_eq_some_iff.mp known
    rw [Team.put, ← known, List.set_getElem_self]
  rw [List.append_nil, Cluster.team_put, Member.post, same]
  exact session

theorem served (session : Session plan first rounds log cluster.team) (single : cluster.Single)
    (found : cluster.members[who]? = some member) (running : member.activity = .running run)
    {request : Request α} {resume : request.Answer → Run α}
    (turn : run.turn = .ask request resume) :
    Continued plan first rounds log (cluster.serve callbacks who member run request resume) := by
  obtain ⟨replica, rank, _⟩ := single.placed who member found
  have busy : member.post = .busy run := by rw [Member.post, running]
  have stride := Stride.ask turn
  cases request with
  | forward | backward | backwardWeights | optimize | gather | snapshot | restore | discard =>
      exact session.replied single found busy (stride _) rfl _
  | dropStale epoch =>
      rw [Cluster.serve, replica, rank]
      exact session.carried single found busy (stride ()) .drop _
  | dropPublished epoch =>
      exact session.exchanged single found busy (stride ()) rfl _ _
  | send peer tag payload =>
      rw [Cluster.serve]
      split
      · exact session.replied single found busy (stride _) rfl _
      · rw [replica, rank]
        split
        · exact session.replied single found busy (stride _) rfl _
        · next sent => exact session.carried single found busy (stride (.ok ())) (.send sent) _
  | publish peer tag entry =>
      rw [Cluster.serve]
      split
      · exact session.replied single found busy (stride _) rfl _
      · split
        · exact session.replied single found busy (stride _) rfl _
        · exact session.exchanged single found busy (stride _) rfl _ _
  | receive | collect =>
      rw [Cluster.serve]
      split
      · exact session.replied single found busy (stride _) rfl _
      · exact session.waited single found busy _

theorem polled (session : Session plan first rounds log cluster.team) (single : cluster.Single)
    (found : cluster.members[who]? = some member) (waiting : member.activity = .waiting run)
    {request : Request α} {resume : request.Answer → Run α} (turn : run.turn = .ask request resume)
    (polls : cluster.poll? who member request resume = some next) :
    Continued plan first rounds log next := by
  obtain ⟨replica, rank, _⟩ := single.placed who member found
  have busy : member.post = .busy run := by rw [Member.post, waiting]
  have stride := Stride.ask turn
  cases request with
  | receive peer tag =>
      rw [Cluster.poll?, replica, rank] at polls
      split at polls
      · obtain rfl := Option.some.inj polls
        exact session.replied single found busy (stride _) rfl _
      · next received =>
        obtain rfl := Option.some.inj polls
        exact session.carried single found busy (stride (.ok _)) (.receive received) _
      · cases polls
  | collect peer tag =>
      rw [Cluster.poll?] at polls
      split at polls
      · obtain rfl := Option.some.inj polls
        exact session.replied single found busy (stride _) rfl _
      · obtain rfl := Option.some.inj polls
        exact session.exchanged single found busy (stride _) rfl _ _
      · cases polls
  | _ => cases polls

/-- Every move of a member belongs to a session. -/
theorem moved (session : Session plan first rounds log cluster.team) (single : cluster.Single)
    (moves : cluster.move? callbacks who = some next) : Continued plan first rounds log next := by
  unfold Cluster.move? at moves
  split at moves
  · cases moves
  · next member found =>
    split at moves
    · cases moves
    · next run running =>
      have busy : member.post = .busy run := by rw [Member.post, running]
      split at moves
      · next result ended =>
        obtain rfl := Option.some.inj moves
        have placed := single.rank_of_busy found busy
        refine ⟨single.put (single.placed who member found).1 placed placed, [], ?_⟩
        rw [List.append_nil, Cluster.team_put]
        exact session.finish (busy ▸ Cluster.team_post found) ended
      · next onward turn =>
        obtain rfl := Option.some.inj moves
        exact session.replied single found busy (.own turn) rfl _
      · next request resume turn =>
        obtain rfl := Option.some.inj moves
        exact session.served single found running turn
    · next run waiting =>
      split at moves
      · next turn => exact session.polled single found waiting turn moves
      · cases moves

theorem expired (session : Session plan first rounds log cluster.team) (single : cluster.Single)
    (who : Nat) : Continued plan first rounds log (cluster.expire who) := by
  unfold Cluster.expire
  split
  · next member found =>
    split
    · next run waiting =>
      have busy : member.post = .busy run := by rw [Member.post, waiting]
      split
      · next request resume turn =>
        cases request with
        | receive | collect =>
            exact session.replied single found busy (.ask turn _) rfl _
        | _ => exact session.continued single
      · exact session.continued single
    · exact session.continued single
  · exact session.continued single

end Session

theorem Recruit.of_make {plan : Plan} {course : List (Nat × Operation)} {first who : Nat}
    {worker : Worker} (scored : Scored plan course)
    (made : Worker.make plan who plan.ranks.length = .ok worker) (window : Window) (sink : Sink)
    (timeout : Duration) : Recruit plan first who
      { worker.withProfiling window sink with timeout := timeout, iteration := first } := by
  refine ⟨worker, worker, worker.validator, worker.seat, window, sink, timeout, made, ?_, rfl⟩
  rw [Worker.withValidator, (Worker.equipped_of_make scored made).silent]
  rfl

namespace Drill

variable {drill : Drill σ α} {course : List (Nat × Operation)} {log : List (Event α)}
  {cluster next : Cluster σ α} {moves : List Nat} {seen : List (Sighting α)}

theorem session_start {members : List (Member σ α)} (scored : Scored drill.plan course)
    (crew : drill.Crew members) (limit : Duration) :
    (drill.start limit members).Single ∧
      Session drill.plan drill.first drill.rounds [] (drill.start limit members).team := by
  obtain ⟨count, crew⟩ := crew
  constructor
  · refine ⟨rfl, fun who member found => ?_⟩
    obtain ⟨own, worker, window, sink, timeout, made, rfl⟩ := crew who member found
    have placed := (Worker.equipped_of_make scored made).placed
    exact ⟨rfl, placed, placed⟩
  · have posts : members.map Member.post = (members.map Member.worker).map Post.idle := by
      rw [List.map_map]
      refine List.map_congr_left fun member listed => ?_
      obtain ⟨who, inside, rfl⟩ := List.getElem_of_mem listed
      obtain ⟨_, _, _, _, _, _, same⟩ := crew who _ (List.getElem?_eq_getElem inside)
      rw [same]
      rfl
    have team : (drill.start limit members).team =
        ⟨(members.map Member.worker).map Post.idle, .make drill.plan.ranks.length⟩ := by
      rw [← posts]
      rfl
    rw [team]
    refine .start (by rw [List.length_map, count]) fun who worker found => ?_
    rw [List.getElem?_map] at found
    obtain ⟨member, known, rfl⟩ := Option.map_eq_some_iff.mp found
    obtain ⟨own, worker, window, sink, timeout, made, rfl⟩ := crew who member known
    exact .of_make scored made window sink timeout

theorem session_move {who : Nat}
    (suited : ∀ who iteration, Suited drill.plan (drill.inputs who iteration))
    (session : Session drill.plan drill.first drill.rounds log cluster.team)
    (single : cluster.Single) (moved : drill.move? cluster who = some next) :
    Continued drill.plan drill.first drill.rounds log next := by
  cases found : cluster.members[who]? with
  | none =>
      simp only [move?, found] at moved
      cases moved
  | some member =>
      cases activity : member.activity with
      | idle =>
          by_cases ahead : member.worker.iteration < drill.goal
          · obtain ⟨begun, begins, members, payloads⟩ := move?_idle found activity ahead
            obtain rfl := Option.some.inj (begins.symm.trans moved)
            obtain ⟨replica, rank, _⟩ := single.placed who member found
            have kin := Kin.beginAttempt (Run.mk
              { member.worker with iteration := member.worker.iteration + 1 }
              member.worker.iteration
              (drill.inputs who member.worker.iteration) (.clearing none)) none
            have put : (cluster.put who { member with
                activity := .running
                  (.ofIteration member.worker (drill.inputs who member.worker.iteration))
                result := none }).Single := single.put replica rank (kin.rank.trans rank)
            have known := Cluster.team_post found
            rw [Member.post, activity] at known
            refine Continued.congr ⟨put, [], ?_⟩ members payloads
            rw [List.append_nil, Cluster.team_put]
            exact session.begin known ahead (suited who _) (Or.inl rfl)
          · rw [move?_rest found activity (Nat.le_of_not_lt ahead)] at moved
            cases moved
      | running | waiting =>
          simp only [move?, found, activity] at moved
          exact session.moved single moved

/-- However the members of a drill take their turns, that is a session. -/
theorem session_follow (suited : ∀ who iteration, Suited drill.plan (drill.inputs who iteration))
    (session : Session drill.plan drill.first drill.rounds log cluster.team)
    (single : cluster.Single) (followed : drill.follow? cluster moves = some (seen, next)) :
    Continued drill.plan drill.first drill.rounds log next := by
  induction moves generalizing cluster log seen with
  | nil =>
      obtain ⟨-, rfl⟩ := Prod.mk.inj (Option.some.inj followed)
      exact session.continued single
  | cons who rest ih =>
      obtain ⟨between, moved, onward⟩ := Option.bind_eq_some_iff.mp followed
      obtain ⟨⟨_, _⟩, last, same⟩ := Option.map_eq_some_iff.mp onward
      obtain ⟨-, rfl⟩ := Prod.mk.inj same
      obtain ⟨single, later, session⟩ := session_move suited session single moved
      obtain ⟨single, more, session⟩ := ih session single last
      exact ⟨single, later ++ more, by rwa [← List.append_assoc]⟩

end Drill
end PipelineTraining
