import PipelineTraining.Limiter

/-!
When the limiter answers and with what. A rank has to be tracked; a forward needs
room below the limit, a backward a pending forward.
-/

namespace PipelineTraining.Limiter

variable {limiter next : Limiter} {rank other count : Nat}

theorem admit?_eq_some :
    limiter.admit? rank = some next ↔
      ∃ count, limiter.pending[rank]? = some count ∧ count < limiter.limit ∧
        next = { limiter with
          pending := limiter.pending.set rank (count + 1)
          peaks := limiter.peaks.set rank (max (limiter.peakOn rank) (count + 1)) } := by
  unfold admit? admits pendingOn
  cases found : limiter.pending[rank]? with
  | none => simp
  | some count => simp [eq_comm (a := next)]

theorem complete_eq_ok :
    limiter.complete rank = .ok next ↔
      ∃ count, limiter.pending[rank]? = some (count + 1) ∧
        next = { limiter with pending := limiter.pending.set rank count } := by
  unfold complete
  cases found : limiter.pending[rank]? with
  | none => simp
  | some count =>
      cases count with
      | zero => simp
      | succ count => simp [eq_comm (a := next)]

theorem admits_iff (found : limiter.pending[rank]? = some count) :
    limiter.admits rank = true ↔ count < limiter.limit := by
  simp [admits, found]

theorem admit?_of_room (found : limiter.pending[rank]? = some count)
    (room : count < limiter.limit) : ∃ next, limiter.admit? rank = some next ∧
      next.limit = limiter.limit ∧ next.pending[rank]? = some (count + 1) := by
  have inside := (List.getElem?_eq_some_iff.mp found).1
  exact ⟨_, admit?_eq_some.mpr ⟨count, found, room, rfl⟩, rfl, List.getElem?_set_self inside⟩

theorem complete_of_pending (found : limiter.pending[rank]? = some (count + 1)) :
    ∃ next, limiter.complete rank = .ok next ∧ next.limit = limiter.limit ∧
      next.pending[rank]? = some count := by
  have inside := (List.getElem?_eq_some_iff.mp found).1
  exact ⟨_, complete_eq_ok.mpr ⟨count, found, rfl⟩, rfl, List.getElem?_set_self inside⟩

theorem pending_admit (found : limiter.pending[rank]? = some count)
    (admits : limiter.admit? rank = some next) : next.pending[rank]? = some (count + 1) := by
  obtain ⟨_, same, _, rfl⟩ := admit?_eq_some.mp admits
  obtain rfl := Option.some.inj (same.symm.trans found)
  exact List.getElem?_set_self (List.getElem?_eq_some_iff.mp found).1

theorem pending_complete (completes : limiter.complete rank = .ok next) :
    ∃ count, limiter.pending[rank]? = some (count + 1) ∧ next.pending[rank]? = some count := by
  obtain ⟨count, found, rfl⟩ := complete_eq_ok.mp completes
  exact ⟨count, found, List.getElem?_set_self (List.getElem?_eq_some_iff.mp found).1⟩

theorem pending_reset (inside : rank < limiter.pending.length) :
    limiter.reset.pending[rank]? = some 0 := by
  simp [reset, inside]

theorem pendingOn_admitted (admits : limiter.admit? rank = some next) (other : Nat) :
    next.pendingOn other = limiter.pendingOn other + if other = rank then 1 else 0 := by
  obtain ⟨_, found, _, rfl⟩ := admit?_eq_some.mp admits
  obtain ⟨inside, rfl⟩ := List.getElem?_eq_some_iff.mp found
  by_cases same : other = rank
  · simp [pendingOn, same, inside]
  · simp [pendingOn, same, Ne.symm same]

theorem pendingOn_complete (completes : limiter.complete rank = .ok next) (other : Nat) :
    next.pendingOn other + (if other = rank then 1 else 0) = limiter.pendingOn other := by
  obtain ⟨count, found, rfl⟩ := complete_eq_ok.mp completes
  obtain ⟨inside, held⟩ := List.getElem?_eq_some_iff.mp found
  by_cases same : other = rank
  · simp [pendingOn, same, inside, held]
  · simp [pendingOn, same, Ne.symm same]

theorem pendingOn_reset (limiter : Limiter) : limiter.reset.pendingOn rank = 0 := by
  simp only [pendingOn, reset, List.getElem?_map]
  cases limiter.pending[rank]? <;> rfl

theorem peakOn_admitted (even : limiter.peaks.length = limiter.pending.length)
    (admits : limiter.admit? rank = some next) :
    next.peakOn other =
      if other = rank then max (limiter.peakOn rank) (limiter.pendingOn rank + 1)
      else limiter.peakOn other := by
  obtain ⟨count, found, _, rfl⟩ := admit?_eq_some.mp admits
  have inside := (List.getElem?_eq_some_iff.mp found).1
  rw [← even] at inside
  by_cases same : other = rank
  · simp [peakOn, pendingOn, same, inside, found]
  · simp [peakOn, same, Ne.symm same]

theorem peakOn_complete (completes : limiter.complete rank = .ok next) :
    next.peakOn other = limiter.peakOn other := by
  obtain ⟨_, _, rfl⟩ := complete_eq_ok.mp completes
  rfl

theorem peakOn_reset (limiter : Limiter) : limiter.reset.peakOn rank = 0 := by
  simp only [peakOn, reset, List.getElem?_map]
  cases limiter.peaks[rank]? <;> rfl

end PipelineTraining.Limiter
