import PipelineTraining.Proofs.Cluster.AttemptPayloads
import PipelineTraining.Proofs.Validation.Unanimity

/-!
What members hear from their group in the attempts of a step. Their calls are calls of the
exchange of fingerprints, so those of one attempt return the same entries, and members that
match exactly reach one verdict on them.
-/

namespace PipelineTraining

variable {α : Type}

/-- What the members have said and heard in the attempts of an iteration, and the mesh of their
fingerprints. -/
structure Council (size iteration : Nat) (validators : Nat → Validator)
    (log : List Gather.Event) (runs : Nat → Run α) (board : Mesh StageFingerprint) : Prop where
  past : Gather.Past size log (fun who => (runs who).phase.call) board
  /-- A call is for an attempt whose verdict the member has heard, or for the one that it is in. -/
  began : ∀ who epoch own, .began who epoch own ∈ log →
    own.stage = (validators who).stage ∧ own.replica = (validators who).replica ∧
      ∃ attempt ≤ 1, epoch = attemptEpoch iteration attempt ∧
        (attempt < (runs who).phase.verdicts.length ∨
          attempt = (runs who).phase.verdicts.length ∧ (runs who).phase.call ≠ .idle)
  /-- A verdict is on what the call of its attempt has returned. -/
  heard : ∀ who < size, ∀ attempt verdict, (runs who).phase.verdicts[attempt]? = some verdict →
    attempt ≤ 1 ∧ ∃ entries, .returned who (attemptEpoch iteration attempt) entries ∈ log ∧
      ((validators who).judge entries).isConsistent = verdict

namespace Council

variable {size iteration who : Nat} {validators : Nat → Validator} {log : List Gather.Event}
  {runs : Nat → Run α} {board after : Mesh StageFingerprint} {next : Run α}
  {errand : Option (Errand StageFingerprint)}

theorem calls_update (runs : Nat → Run α) (who : Nat) (next : Run α) :
    (fun other => (Function.update runs who next other).phase.call) =
      Function.update (fun other => (runs other).phase.call) who next.phase.call := by
  funext other
  by_cases here : other = who
  · subst here
    rw [Function.update_self, Function.update_self]
  · rw [Function.update_of_ne here, Function.update_of_ne here]

theorem start (idle : ∀ who, (runs who).phase.call = .idle)
    (silent : ∀ who < size, (runs who).phase.verdicts = []) :
    Council size iteration validators [] runs (.make size) := by
  refine ⟨?_, nofun, fun who inside attempt verdict known => ?_⟩
  · rw [funext idle]
    exact .start
  · rw [silent who inside] at known
    cases known

theorem looked (council : Council size iteration validators log runs board) {gather : Gather}
    {peer : Nat} (going : (runs who).phase.call = .going gather)
    (asks : gather.move = .collect peer)
    (missing : board.receive who peer gather.tag = .ok (none, after)) :
    Council size iteration validators log runs after := by
  have ranked : gather.rank = who := (council.past.sound.underway going).2.rank
  exact ⟨council.past.look who going asks (by rwa [ranked]), council.began, council.heard⟩

/-- All calls are for one of the two attempts. -/
theorem within (council : Council size iteration validators log runs board) :
    Gather.Within (attemptEpoch iteration 0) log := by
  intro who epoch own began
  obtain ⟨-, -, attempt, few, rfl, -⟩ := council.began who epoch own began
  simp only [attemptEpoch, Nat.toUInt32, UInt32.toNat_sub, UInt32.toNat_ofNat']
  omega

theorem put {events : List Gather.Event}
    (council : Council size iteration validators log runs board)
    (past : Gather.Past size (log ++ events)
      (Function.update (fun other => (runs other).phase.call) who next.phase.call) after)
    (longer : (runs who).phase.verdicts.length ≤ next.phase.verdicts.length)
    (calling : (runs who).phase.call ≠ .idle → next.phase.call = .idle →
      (runs who).phase.verdicts.length < next.phase.verdicts.length)
    (began : ∀ other epoch own, .began other epoch own ∈ events → other = who ∧
      own.stage = (validators who).stage ∧ own.replica = (validators who).replica ∧
      next.phase.verdicts.length ≤ 1 ∧
      epoch = attemptEpoch iteration next.phase.verdicts.length ∧ next.phase.call ≠ .idle)
    (heard : ∀ attempt verdict, next.phase.verdicts[attempt]? = some verdict →
      (runs who).phase.verdicts[attempt]? = some verdict ∨ attempt ≤ 1 ∧ ∃ entries,
        .returned who (attemptEpoch iteration attempt) entries ∈ events ∧
        ((validators who).judge entries).isConsistent = verdict) :
    Council size iteration validators (log ++ events) (Function.update runs who next) after where
  past := by
    rw [calls_update]
    exact past
  began other epoch own member := by
    rcases List.mem_append.mp member with old | new
    · obtain ⟨stage, replica, attempt, few, same, stands⟩ := council.began other epoch own old
      refine ⟨stage, replica, attempt, few, same, ?_⟩
      by_cases here : other = who
      · subst here
        rw [Function.update_self]
        by_cases idle : next.phase.call = .idle
        · rcases stands with behind | ⟨now, busy⟩
          · exact Or.inl (by omega)
          · exact Or.inl (by have := calling busy idle; omega)
        · rcases stands with behind | ⟨now, busy⟩
          · exact Or.inl (by omega)
          · rcases Nat.lt_or_ge attempt next.phase.verdicts.length with less | more
            · exact Or.inl less
            · exact Or.inr ⟨by omega, idle⟩
      · rw [Function.update_of_ne here]
        exact stands
    · obtain ⟨rfl, stage, replica, few, rfl, busy⟩ := began other epoch own new
      rw [Function.update_self]
      exact ⟨stage, replica, _, few, rfl, Or.inr ⟨rfl, busy⟩⟩
  heard other inside attempt verdict known := by
    have before : ∀ place verdict, (runs other).phase.verdicts[place]? = some verdict →
        place ≤ 1 ∧ ∃ entries,
          .returned other (attemptEpoch iteration place) entries ∈ log ++ events ∧
          ((validators other).judge entries).isConsistent = verdict := by
      intro place verdict old
      obtain ⟨few, entries, returned, judged⟩ := council.heard other inside place verdict old
      exact ⟨few, entries, List.mem_append_left _ returned, judged⟩
    by_cases here : other = who
    · subst here
      rw [Function.update_self] at known
      rcases heard attempt verdict known with old | ⟨few, entries, returned, judged⟩
      · exact before attempt verdict old
      · exact ⟨few, entries, List.mem_append_right _ returned, judged⟩
    · rw [Function.update_of_ne here] at known
      exact before attempt verdict known

theorem put_silent {events : List Gather.Event}
    (council : Council size iteration validators log runs board)
    (past : Gather.Past size (log ++ events)
      (Function.update (fun other => (runs other).phase.call) who next.phase.call) after)
    (same : next.phase.verdicts = (runs who).phase.verdicts)
    (busy : (runs who).phase.call ≠ .idle → next.phase.call ≠ .idle)
    (silent : ∀ other epoch own, .began other epoch own ∉ events) :
    Council size iteration validators (log ++ events) (Function.update runs who next) after := by
  refine council.put past (by rw [same]) (fun calling idle => absurd idle (busy calling))
    (fun _ _ _ member => absurd member (silent _ _ _)) fun attempt verdict known => Or.inl ?_
  rwa [same] at known

theorem opens {fingerprint : Fingerprint}
    (council : Council size iteration validators log runs board) (inside : who < size)
    (idle : (runs who).phase.call = .idle) (few : (runs who).phase.verdicts.length ≤ 1)
    (opened : next.phase.call = .opened
      (attemptEpoch iteration (runs who).phase.verdicts.length)
      ((validators who).publish fingerprint))
    (same : next.phase.verdicts = (runs who).phase.verdicts) :
    Council size iteration validators
      (log ++ [.began who (attemptEpoch iteration (runs who).phase.verdicts.length)
        ((validators who).publish fingerprint)]) (Function.update runs who next) board := by
  refine council.put ?_ (by rw [same]) (fun busy => absurd idle busy) ?_
    fun attempt verdict known => Or.inl (same ▸ known)
  · rw [opened]
    refine council.past.begin who _ _ inside idle fun last found => ?_
    -- All calls of the member before this one have returned.
    obtain ⟨own, began⟩ := Gather.mem_epochs.mp (List.mem_of_getLast? found)
    obtain ⟨-, -, attempt, fewToo, rfl, behind | ⟨-, busy⟩⟩ := council.began who last own began
    · exact (attemptEpoch_before_iff fewToo few).mpr behind
    · exact absurd idle busy
  · intro other epoch own member
    obtain ⟨rfl, rfl, rfl⟩ := Gather.Event.began.inj (List.mem_singleton.mp member)
    rw [same, opened]
    exact ⟨rfl, rfl, rfl, few, rfl, nofun⟩

theorem hears {gather : Gather} (council : Council size iteration validators log runs board)
    (going : (runs who).phase.call = .going gather) (asks : gather.move = .finish)
    (idle : next.phase.call = .idle)
    (epoch : gather.epoch = attemptEpoch iteration (runs who).phase.verdicts.length)
    (few : (runs who).phase.verdicts.length ≤ 1)
    (heard : next.phase.verdicts = (runs who).phase.verdicts ++
      [((validators who).judge gather.result).isConsistent]) :
    Council size iteration validators (log ++ [.returned who gather.epoch gather.result])
      (Function.update runs who next) board := by
  refine council.put ?_ (by simp [heard]) (fun _ _ => by simp [heard])
    (fun _ _ _ member => by simp at member) fun attempt verdict known => ?_
  · rw [idle]
    exact council.past.finish who going asks
  · rw [heard, List.getElem?_append] at known
    split at known
    · exact Or.inl known
    · next outside =>
      simp only [List.getElem?_singleton, Option.ite_none_right_eq_some,
        Option.some.injEq] at known
      obtain ⟨place, rfl⟩ := known
      obtain rfl : attempt = (runs who).phase.verdicts.length := by omega
      rw [← epoch]
      exact Or.inr ⟨few, gather.result, List.mem_singleton.mpr rfl, rfl⟩

theorem called (council : Council size iteration validators log runs board) (inside : who < size)
    (validator : (runs who).worker.validator = validators who)
    (seat : (runs who).worker.seat = ⟨who, size⟩) (same : (runs who).iteration = iteration)
    (calling : ∀ epoch, (∃ own, (runs who).phase.call = .opened epoch own ∨
        ∃ gather, (runs who).phase.call = .going gather ∧ gather.epoch = epoch) →
      epoch = attemptEpoch iteration (runs who).phase.verdicts.length ∧
        (runs who).phase.verdicts.length ≤ 1)
    (called : Called (runs who) errand next) (answers : board.Answers who errand after) :
    ∃ events, Council size iteration validators (log ++ events) (Function.update runs who next)
      after := by
  have ranked : ∀ gather, (runs who).phase.call = .going gather → gather.rank = who :=
    fun gather going => (council.past.sound.underway going).2.rank
  cases called with
  | apart idle still verdicts =>
      cases answers
      refine ⟨[], council.put_silent ?_ verdicts (fun busy => absurd idle busy) (by simp)⟩
      rw [List.append_nil, still, ← idle, Function.update_eq_self who]
      exact council.past
  | began idle few opened verdicts =>
      cases answers
      rw [same, validator] at opened
      exact ⟨_, council.opens inside idle few opened verdicts⟩
  | dropped opened going verdicts =>
      cases answers
      refine ⟨[], council.put_silent ?_ verdicts (fun _ => by rw [going]; nofun) (by simp)⟩
      rw [List.append_nil, going, seat]
      exact council.past.drop who opened
  | @published _ gather peer going asks onward verdicts =>
      cases answers with
      | sent sends =>
          refine ⟨[.published who peer gather.epoch], council.put_silent ?_ verdicts
            (fun _ => by rw [onward]; nofun) (by simp)⟩
          rw [onward]
          exact council.past.publish who going asks (by rwa [ranked gather going])
  | @collected _ gather peer entry going asks onward verdicts =>
      cases answers with
      | received found =>
          refine ⟨[], council.put_silent ?_ verdicts (fun _ => by rw [onward]; nofun) (by simp)⟩
          rw [List.append_nil, onward]
          exact council.past.collect who going asks (by rwa [ranked gather going])
  | @returned _ gather going asks idle verdicts =>
      cases answers
      obtain ⟨epoch, few⟩ := calling gather.epoch ⟨gather.own, Or.inr ⟨gather, going, rfl⟩⟩
      rw [validator] at verdicts
      exact ⟨_, council.hears going asks idle epoch few verdicts⟩

/-- Members that match exactly never hear different verdicts on one attempt. -/
theorem agree (council : Council size iteration validators log runs board)
    (exact : ∀ who < size, (validators who).settings.mode = .exact)
    (distinct : ∀ one < size, ∀ other < size, (validators one).stage = (validators other).stage →
      (validators one).replica = (validators other).replica → one = other)
    {one other attempt : Nat} {verdict another : Bool} (inside : one < size)
    (otherInside : other < size) (heard : (runs one).phase.verdicts[attempt]? = some verdict)
    (heardToo : (runs other).phase.verdicts[attempt]? = some another) : verdict = another := by
  obtain ⟨few, entries, returned, rfl⟩ := council.heard one inside attempt verdict heard
  obtain ⟨-, others, returnedToo, rfl⟩ := council.heard other otherInside attempt another heardToo
  have faithful := council.past.faithful council.within
  obtain rfl := faithful.agreed one other _ entries others returned returnedToo
  -- An entry is from the member of its place, and no two members have the same stage and replica.
  obtain ⟨length, entered⟩ : entries.length = size ∧ ∀ peer < size, ∃ own,
      entries[peer]? = some own ∧ own.stage = (validators peer).stage ∧
        own.replica = (validators peer).replica := by
    obtain ⟨before, later, split⟩ := List.append_of_mem returned
    obtain ⟨length, entered⟩ := faithful.returned before later one _ entries split
    refine ⟨length, fun peer peerInside => ?_⟩
    obtain ⟨own, found, began⟩ := entered peer peerInside
    obtain ⟨stage, replica, -⟩ :=
      council.began peer _ own (split ▸ List.mem_append_left _ began)
    exact ⟨own, found, stage, replica⟩
  have apart : Comparison.Distinct entries := by
    rw [Comparison.Distinct, List.Nodup, List.pairwise_iff_getElem]
    intro place another here there less same
    rw [List.length_map] at here there
    obtain ⟨own, found, stage, replica⟩ := entered place (length ▸ here)
    obtain ⟨its, foundToo, stageToo, replicaToo⟩ := entered another (length ▸ there)
    obtain ⟨_, rfl⟩ := List.getElem?_eq_some_iff.mp found
    obtain ⟨_, rfl⟩ := List.getElem?_eq_some_iff.mp foundToo
    simp only [List.getElem_map, Prod.mk.injEq] at same
    rw [stage, replica, stageToo, replicaToo] at same
    exact less.ne (distinct place (length ▸ here) another (length ▸ there) same.1 same.2)
  have unanimous : Comparison.Unanimous entries .exact :=
    Comparison.unanimous_of_spread apart fun member known hub third thirdKnown stage =>
      Comparison.hub_spread_exact apart hub known thirdKnown stage
  obtain ⟨own, found, stage, replica⟩ := entered one inside
  obtain ⟨its, foundToo, stageToo, replicaToo⟩ := entered other otherInside
  have same := unanimous own (List.mem_of_getElem? found) its (List.mem_of_getElem? foundToo)
  rw [stage, replica, stageToo, replicaToo] at same
  rw [Validator.judge, Validator.judge, exact one inside, exact other otherInside]
  exact Bool.eq_iff_iff.mpr same

/-- A member finds the entry of another one that is through with the attempt or waits in it. -/
theorem found (council : Council size iteration validators log runs board) {gather : Gather}
    {peer attempt : Nat} (going : (runs who).phase.call = .going gather)
    (asks : gather.move = .collect peer) (epoch : gather.epoch = attemptEpoch iteration attempt)
    (ready : attempt < (runs peer).phase.verdicts.length ∨ ∃ other,
      (runs peer).phase.call = .going other ∧ other.epoch = gather.epoch ∧ other.unsent = []) :
    ∃ entry next, board.receive who peer gather.tag = .ok (some entry, next) := by
  obtain ⟨inside, underway⟩ := council.past.sound.underway going
  have peerInside := underway.collect_lt asks
  obtain ⟨-, rest, missing⟩ := Gather.missing_of_collect asks
  have apart := underway.collect_ne asks
  have lacks : (runs who).phase.call.Lacks peer gather.epoch := by
    rw [going]
    exact ⟨rfl, gather.missing_enterOwn (missing ▸ List.mem_cons_self)⟩
  have told : .published peer who gather.epoch ∈ log := by
    rcases ready with through | ⟨other, waits, same, unsent⟩
    · obtain ⟨-, entries, returned, -⟩ :=
        council.heard peer peerInside attempt _ (List.getElem?_eq_getElem through)
      rw [epoch]
      exact council.past.told returned inside apart.symm
    · rcases (council.past.sound.underway waits).2.told who inside apart.symm with left | told
      · rw [unsent] at left
        cases left
      · exact same ▸ told
  obtain ⟨own, held⟩ :=
    council.past.kept council.within peer who gather.epoch told (Or.inr lacks)
  exact Mesh.found_of_held (council.past.sound.size ▸ peerInside) held

end Council
end PipelineTraining
