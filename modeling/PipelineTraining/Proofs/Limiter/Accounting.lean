import Mathlib.Data.List.Induction
import Mathlib.Order.Bounds.Basic
import PipelineTraining.Proofs.Limiter.Counting
import PipelineTraining.Proofs.Service.Account

/-!
The limiter under any calls, on ranks that it does not track as well. Since the last reset
it has admitted, on every rank, as many forwards as backwards have been completed there and
are pending; the peak is the highest such count at any moment since then. A call that is
refused or fails changes nothing, and a call on one rank changes nothing on another.
-/

namespace PipelineTraining.Limiter

inductive Call where
  | forward (rank : Nat)
  | backward (rank : Nat)
  | reset

inductive Reply where
  | admitted
  | refused
  | completed
  | failed (fault : Fault)
  | cleared

def service : Service Limiter Call Reply
  | limiter, .forward rank =>
      match limiter.admit? rank with
      | some next => (next, .admitted)
      | none => (limiter, .refused)
  | limiter, .backward rank =>
      match limiter.complete rank with
      | .ok next => (next, .completed)
      | .error fault => (limiter, .failed fault)
  | limiter, .reset => (limiter.reset, .cleared)

abbrev Entry := Service.Entry Limiter Call Reply

def Call.rank? : Call → Option Nat
  | .forward rank => some rank
  | .backward rank => some rank
  | .reset => none

def admittedOn (rank : Nat) (entry : Entry) : Bool :=
  match entry.call, entry.reply with
  | .forward other, .admitted => rank == other
  | _, _ => false

def completedOn (rank : Nat) (entry : Entry) : Bool :=
  match entry.call, entry.reply with
  | .backward other, .completed => rank == other
  | _, _ => false

structure Sized (ranks limit : Nat) (limiter : Limiter) : Prop where
  limited : limiter.limit = limit
  tracked : limiter.pending.length = ranks
  even : limiter.peaks.length = limiter.pending.length
  bounded : ∀ rank, limiter.pendingOn rank ≤ limit

inductive Turn (limiter : Limiter) : Call → Limiter → Reply → Prop
  | admitted {rank : Nat} {next : Limiter} (admits : limiter.admit? rank = some next) :
      Turn limiter (.forward rank) next .admitted
  | refused {rank : Nat} (none : limiter.admit? rank = none) :
      Turn limiter (.forward rank) limiter .refused
  | completed {rank : Nat} {next : Limiter} (completes : limiter.complete rank = .ok next) :
      Turn limiter (.backward rank) next .completed
  | failed {rank : Nat} {fault : Fault} (fails : limiter.complete rank = .error fault) :
      Turn limiter (.backward rank) limiter (.failed fault)
  | cleared : Turn limiter .reset limiter.reset .cleared

variable {ranks limit rank : Nat} {limiter next fresh : Limiter} {call : Call} {reply : Reply}

theorem turn (limiter : Limiter) (call : Call) :
    Turn limiter call (service limiter call).1 (service limiter call).2 := by
  cases call with
  | forward rank =>
      simp only [service]
      cases answer : limiter.admit? rank with
      | none => exact .refused answer
      | some next => exact .admitted answer
  | backward rank =>
      simp only [service]
      cases answer : limiter.complete rank with
      | error fault => exact .failed answer
      | ok next => exact .completed answer
  | reset => exact .cleared

theorem Sized.of_make {made : Limiter} (begun : make ranks limit = .ok made) :
    Sized ranks limit made := by
  unfold make at begun
  split at begun
  · cases begun
  · obtain rfl := Except.ok.inj begun
    refine ⟨rfl, List.length_replicate, by simp, fun rank => ?_⟩
    simp only [pendingOn, List.getElem?_replicate]
    split <;> exact Nat.zero_le _

theorem Sized.turn (sized : Sized ranks limit limiter) (turned : Turn limiter call next reply) :
    Sized ranks limit next := by
  obtain ⟨limited, tracked, even, bounded⟩ := sized
  cases turned with
  | refused | failed => exact ⟨limited, tracked, even, bounded⟩
  | cleared =>
      refine ⟨limited, by simpa [reset] using tracked, by simpa [reset] using even, fun rank => ?_⟩
      exact (pendingOn_reset limiter).trans_le (Nat.zero_le _)
  | completed completes =>
      have counted := pendingOn_complete completes
      obtain ⟨_, _, rfl⟩ := complete_eq_ok.mp completes
      refine ⟨limited, by simpa using tracked, by simpa using even, fun other => ?_⟩
      exact Nat.le_trans (Nat.le_of_add_right_le (Nat.le_of_eq (counted other))) (bounded other)
  | @admitted owner _ admits =>
      have counted := pendingOn_admitted admits
      obtain ⟨count, found, room, rfl⟩ := admit?_eq_some.mp admits
      refine ⟨limited, by simpa using tracked, by simpa using even, fun other => ?_⟩
      rw [counted]
      by_cases same : other = owner
      · have pending : limiter.pendingOn other = count := by rw [pendingOn, same, found]; rfl
        rw [if_pos same, pending, ← limited]
        exact room
      · rw [if_neg same]
        exact bounded other

theorem Turn.counts (turned : Turn limiter call next reply) (unreset : call ≠ .reset) (rank : Nat) :
    next.pendingOn rank + (if completedOn rank ⟨limiter, call, reply, next⟩ then 1 else 0) =
      limiter.pendingOn rank + if admittedOn rank ⟨limiter, call, reply, next⟩ then 1 else 0 := by
  cases turned with
  | refused | failed => rfl
  | cleared => exact absurd rfl unreset
  | completed completes =>
      simpa [completedOn, admittedOn] using pendingOn_complete completes rank
  | admitted admits =>
      simpa [completedOn, admittedOn] using pendingOn_admitted admits rank

theorem Turn.peaks (turned : Turn limiter call next reply) (unreset : call ≠ .reset)
    (even : limiter.peaks.length = limiter.pending.length)
    (below : limiter.pendingOn rank ≤ limiter.peakOn rank) :
    next.peakOn rank = max (next.pendingOn rank) (limiter.peakOn rank) := by
  cases turned with
  | refused | failed => exact (max_eq_right below).symm
  | cleared => exact absurd rfl unreset
  | completed completes =>
      have counted := pendingOn_complete completes rank
      rw [peakOn_complete completes]
      exact (max_eq_right (by omega)).symm
  | @admitted owner _ admits =>
      rw [peakOn_admitted even admits, pendingOn_admitted admits]
      by_cases same : rank = owner
      · rw [if_pos same, if_pos same, same, max_comm]
      · rw [if_neg same, if_neg same, Nat.add_zero, max_eq_right below]

theorem Turn.apart {owner : Nat} (turned : Turn limiter call next reply)
    (even : limiter.peaks.length = limiter.pending.length) (on : call.rank? = some owner)
    (other : rank ≠ owner) :
    next.pendingOn rank = limiter.pendingOn rank ∧ next.peakOn rank = limiter.peakOn rank := by
  cases turned with
  | refused | failed => exact ⟨rfl, rfl⟩
  | cleared => cases on
  | completed completes =>
      obtain rfl := Option.some.inj on
      have counted := pendingOn_complete completes rank
      rw [if_neg other, Nat.add_zero] at counted
      exact ⟨counted, peakOn_complete completes⟩
  | admitted admits =>
      obtain rfl := Option.some.inj on
      rw [pendingOn_admitted admits, if_neg other, peakOn_admitted even admits, if_neg other]
      exact ⟨rfl, rfl⟩

theorem Sized.after (sized : Sized ranks limit limiter) (calls : List Call) :
    Sized ranks limit (service.after limiter calls) :=
  Service.after_keeps (fun state call kept => kept.turn (Limiter.turn state call)) sized calls

theorem Sized.admits_iff (sized : Sized ranks limit limiter) :
    limiter.admits rank = true ↔ rank < ranks ∧ limiter.pendingOn rank < limit := by
  obtain ⟨rfl, rfl, _, _⟩ := sized
  unfold admits pendingOn
  by_cases inside : rank < limiter.pending.length
  · simp [inside]
  · simp [inside]

theorem Sized.complete_cases (sized : Sized ranks limit limiter) (rank : Nat) :
    (∃ next, limiter.complete rank = .ok next) ∧ rank < ranks ∧ 0 < limiter.pendingOn rank ∨
      limiter.complete rank = .error (.invariant rank .nothingPending) ∧ rank < ranks ∧
        limiter.pendingOn rank = 0 ∨
      limiter.complete rank = .error (.invariant rank .untracked) ∧ ranks ≤ rank := by
  have tracked := sized.tracked
  unfold complete pendingOn
  cases found : limiter.pending[rank]? with
  | none => exact Or.inr (Or.inr ⟨rfl, tracked ▸ List.getElem?_eq_none_iff.mp found⟩)
  | some count =>
      have inside : rank < ranks := tracked ▸ (List.getElem?_eq_some_iff.mp found).1
      cases count with
      | zero => exact Or.inr (Or.inl ⟨rfl, inside, rfl⟩)
      | succ count => exact Or.inl ⟨⟨_, rfl⟩, inside, Nat.succ_pos count⟩

theorem Sized.isDrained_iff (sized : Sized ranks limit limiter) :
    limiter.isDrained = true ↔ ∀ rank < ranks, limiter.pendingOn rank = 0 := by
  obtain ⟨_, rfl, _, _⟩ := sized
  simp only [isDrained, List.all_eq_true, beq_iff_eq]
  constructor
  · intro idle rank inside
    simpa [pendingOn, inside] using idle _ (List.getElem_mem inside)
  · intro idle count member
    obtain ⟨rank, inside, rfl⟩ := List.getElem_of_mem member
    simpa [pendingOn, inside] using idle rank inside

structure Counted (limit : Nat) (fresh : Limiter) (recent : List Call) : Prop where
  pending : ∀ rank, (service.after fresh recent).pendingOn rank +
      (service.account fresh recent).countP (completedOn rank) =
    (service.account fresh recent).countP (admittedOn rank)
  bounded : ∀ rank, (service.after fresh recent).pendingOn rank ≤ limit
  peak : ∀ rank, IsGreatest
    {count | ∃ part, part <+: recent ∧ (service.after fresh part).pendingOn rank = count}
    ((service.after fresh recent).peakOn rank)

structure Answering (ranks limit : Nat) (limiter : Limiter) : Prop where
  admits : ∀ rank, limiter.admits rank = true ↔ rank < ranks ∧ limiter.pendingOn rank < limit
  admitted : ∀ rank, (service limiter (.forward rank)).2 = .admitted ↔ limiter.admits rank = true
  refused : ∀ rank, limiter.admits rank = false →
    service limiter (.forward rank) = (limiter, .refused)
  completed : ∀ rank, (service limiter (.backward rank)).2 = .completed ↔
    rank < ranks ∧ 0 < limiter.pendingOn rank
  failed : ∀ rank, ¬ (rank < ranks ∧ 0 < limiter.pendingOn rank) →
    service limiter (.backward rank) = (limiter,
      .failed (.invariant rank (if rank < ranks then .nothingPending else .untracked)))
  apart : ∀ call owner rank, call.rank? = some owner → rank ≠ owner →
    (service limiter call).1.pendingOn rank = limiter.pendingOn rank ∧
      (service limiter call).1.peakOn rank = limiter.peakOn rank
  drained : limiter.isDrained = true ↔ ∀ rank < ranks, limiter.pendingOn rank = 0

/-- Calls that leave all counts cleared: none at all, or the last one is a reset. -/
def Clearing (calls : List Call) : Prop :=
  calls = [] ∨ ∃ front, calls = front ++ [.reset]

theorem exists_clearing (calls : List Call) :
    ∃ earlier recent, calls = earlier ++ recent ∧ Clearing earlier ∧ .reset ∉ recent := by
  induction calls using List.reverseRecOn with
  | nil => exact ⟨[], [], rfl, Or.inl rfl, List.not_mem_nil⟩
  | append_singleton calls call ih =>
      obtain ⟨earlier, recent, rfl, clearing, unreset⟩ := ih
      by_cases last : call = .reset
      · exact ⟨_, [], (List.append_nil _).symm, Or.inr ⟨_, by rw [last]⟩, List.not_mem_nil⟩
      · refine ⟨earlier, recent ++ [call], List.append_assoc .., clearing, fun member => ?_⟩
        rcases List.mem_append.mp member with old | new
        · exact unreset old
        · exact last (List.mem_singleton.mp new).symm

theorem cleared {made : Limiter} (begun : make ranks limit = .ok made) {earlier : List Call}
    (clearing : Clearing earlier) (rank : Nat) :
    (service.after made earlier).pendingOn rank = 0 ∧
      (service.after made earlier).peakOn rank = 0 := by
  rcases clearing with rfl | ⟨front, rfl⟩
  · unfold make at begun
    split at begun
    · cases begun
    · obtain rfl := Except.ok.inj begun
      simp only [Service.after, List.foldl_nil, pendingOn, peakOn, List.getElem?_replicate]
      split <;> exact ⟨rfl, rfl⟩
  · rw [Service.after_append]
    exact ⟨pendingOn_reset _, peakOn_reset _⟩

theorem Counted.nothing (none : ∀ rank, fresh.pendingOn rank = 0 ∧ fresh.peakOn rank = 0) :
    Counted limit fresh [] := by
  refine ⟨fun rank => (none rank).1, fun rank => (none rank).1.trans_le (Nat.zero_le _),
    fun rank => ?_⟩
  have only : {count | ∃ part, part <+: [] ∧ (service.after fresh part).pendingOn rank = count} =
      {0} := by
    ext count
    simp [Service.after, (none rank).1, eq_comm]
  rw [only, Service.after, List.foldl_nil, (none rank).2]
  exact isGreatest_singleton

theorem Counted.step {recent : List Call} (sized : Sized ranks limit fresh)
    (counted : Counted limit fresh recent) (unreset : call ≠ .reset) :
    Counted limit fresh (recent ++ [call]) := by
  have turned := turn (service.after fresh recent) call
  refine ⟨fun rank => ?_, (sized.after _).bounded, fun rank => ?_⟩
  · have before := counted.pending rank
    have step := turned.counts unreset rank
    have last : service.after (service.after fresh recent) [call] =
      (service (service.after fresh recent) call).1 := rfl
    simp only [Service.account_append, Service.after_append, List.countP_append, last]
    simp only [Service.account, Service.note, List.countP_singleton] at step ⊢
    omega
  · have before := counted.peak rank
    have below := before.2 ⟨recent, List.prefix_rfl, rfl⟩
    -- The moments are those before and the one that the call leads to.
    have moments : {count | ∃ part, part <+: recent ++ [call] ∧
          (service.after fresh part).pendingOn rank = count} =
        insert ((service.after fresh (recent ++ [call])).pendingOn rank)
          {count | ∃ part, part <+: recent ∧
            (service.after fresh part).pendingOn rank = count} := by
      ext count
      simp only [List.prefix_concat_iff, Set.mem_ofPred_eq, Set.mem_insert_iff, or_and_right,
        exists_or, exists_eq_left, eq_comm (a := count)]
    rw [moments, Service.after_append]
    exact turned.peaks unreset (sized.after recent).even below ▸ before.insert _

theorem Sized.counted (sized : Sized ranks limit fresh)
    (none : ∀ rank, fresh.pendingOn rank = 0 ∧ fresh.peakOn rank = 0) {recent : List Call}
    (unreset : .reset ∉ recent) : Counted limit fresh recent := by
  induction recent using List.reverseRecOn with
  | nil => exact .nothing none
  | append_singleton recent call ih =>
      refine (ih fun member => unreset (List.mem_append_left _ member)).step sized ?_
      rintro rfl
      exact unreset (List.mem_append_right _ List.mem_cons_self)

theorem Sized.answering (sized : Sized ranks limit limiter) : Answering ranks limit limiter := by
  have admitted : ∀ rank, limiter.admits rank = true ↔ ∃ next, limiter.admit? rank = some next := by
    intro rank
    simp [admit?]
  constructor
  case admits => exact fun rank => sized.admits_iff
  case admitted =>
    intro rank
    rw [admitted]
    simp only [service]
    cases limiter.admit? rank <;> simp
  case refused =>
    intro rank refused
    simp [service, admit?, refused]
  case completed =>
    intro rank
    rcases sized.complete_cases rank with ⟨⟨next, answer⟩, inside, some⟩ |
      ⟨answer, inside, none⟩ | ⟨answer, outside⟩
    · simp [service, answer, inside, some]
    · simp [service, answer, none]
    · simp [service, answer, Nat.not_lt.mpr outside]
  case failed =>
    intro rank unfit
    rcases sized.complete_cases rank with ⟨_, fit⟩ | ⟨answer, inside, _⟩ | ⟨answer, outside⟩
    · exact absurd fit unfit
    · simp [service, answer, inside]
    · simp [service, answer, Nat.not_lt.mpr outside]
  case apart =>
    intro call owner rank on other
    exact (Limiter.turn limiter call).apart sized.even on other
  case drained => exact sized.isDrained_iff

/-- After any calls the counts are those of the calls since the last reset, and the next call is
answered by them. -/
theorem accounts_for_calls (positive : 1 ≤ limit) : ∃ made, make ranks limit = .ok made ∧
    ∀ calls, ∃ earlier recent, calls = earlier ++ recent ∧ Clearing earlier ∧ .reset ∉ recent ∧
      Counted limit (service.after made earlier) recent ∧
      Answering ranks limit (service.after made calls) := by
  obtain ⟨made, begun⟩ : ∃ made, make ranks limit = .ok made :=
    ⟨_, if_neg (Nat.ne_of_gt positive)⟩
  have sized := Sized.of_make begun
  refine ⟨made, begun, fun calls => ?_⟩
  obtain ⟨earlier, recent, rfl, clearing, unreset⟩ := exists_clearing calls
  exact ⟨earlier, recent, rfl, clearing, unreset,
    (sized.after earlier).counted (cleared begun clearing) unreset, (sized.after _).answering⟩

/-- Two ranks with room for one forward each, and a rank that is not there. -/
theorem accounts_for_calls_beyond :
    let calls : List Call := [.forward 0, .forward 0, .reset, .backward 0, .forward 1, .forward 7]
    ∃ made, make 2 1 = .ok made ∧ ∃ earlier recent, calls = earlier ++ recent ∧
      Clearing earlier ∧ .reset ∉ recent ∧ Counted 1 (service.after made earlier) recent ∧
      Answering 2 1 (service.after made calls) := by
  intro calls
  have room : 1 ≤ 1 := Nat.le_refl 1
  obtain ⟨made, begun, accounts⟩ := @accounts_for_calls 2 1 room
  exact ⟨made, begun, accounts calls⟩

end PipelineTraining.Limiter
