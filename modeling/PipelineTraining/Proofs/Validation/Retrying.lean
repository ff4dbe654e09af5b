import PipelineTraining.Proofs.Service.Account
import PipelineTraining.Validation.StepCycle

/-!
A step cycle under any calls, those in the wrong place included. A call that does not fit is
refused and changes nothing. All others lead from the update to a verdict, and there is one
way back only: after the first mismatch, and then a second mismatch is the last word.
-/

namespace PipelineTraining.StepCycle

inductive Call where
  | beginValidation
  | judge (outcome : Outcome)
  | beginRetry

abbrev Reply := Except Fault (Option StepAction)

def settle (cycle : StepCycle) : Except Fault StepCycle → StepCycle × Reply
  | .ok next => (next, .ok none)
  | .error fault => (cycle, .error fault)

def service : Service StepCycle Call Reply
  | cycle, .beginValidation => cycle.settle cycle.beginValidation
  | cycle, .judge outcome => ((cycle.judge outcome).1, (cycle.judge outcome).2.map some)
  | cycle, .beginRetry => cycle.settle cycle.beginRetry

abbrev Entry := Service.Entry StepCycle Call Reply

/-- Where a call has its place. Nothing is left to be called once the step is decided. -/
def fits : StepState → Call → Bool
  | .applied, .beginValidation => true
  | .validating, .judge _ => true
  | .retrying, .judge _ => true
  | .rolledBack, .beginRetry => true
  | _, _ => false

inductive Milestone where
  | begun
  | committed
  | rolledBack
  | retried
  | diverged
deriving DecidableEq

def milestone? : Call → Reply → Option Milestone
  | .beginValidation, .ok none => some .begun
  | .beginRetry, .ok none => some .retried
  | _, .ok (some .commit) => some .committed
  | _, .ok (some .rollBackAndRetry) => some .rolledBack
  | _, .error (.divergence ..) => some .diverged
  | _, _ => none

def milestones (entries : List Entry) : List Milestone :=
  entries.filterMap fun entry => milestone? entry.call entry.reply

inductive Turn (cycle : StepCycle) : Call → StepCycle → Reply → Prop
  | begin (here : cycle.state = .applied) :
      Turn cycle .beginValidation { cycle with state := .validating } (.ok none)
  | commit (here : cycle.state = .validating ∨ cycle.state = .retrying) :
      Turn cycle (.judge .consistent) { cycle with state := .committed } (.ok (some .commit))
  | rollBack (here : cycle.state = .validating) (own other : Fingerprint) :
      Turn cycle (.judge (.mismatch own other)) { cycle with state := .rolledBack }
        (.ok (some .rollBackAndRetry))
  | retry (here : cycle.state = .rolledBack) :
      Turn cycle .beginRetry { cycle with state := .retrying, retries := cycle.retries + 1 }
        (.ok none)
  | diverge (here : cycle.state = .retrying) (own other : Fingerprint) :
      Turn cycle (.judge (.mismatch own other)) { cycle with state := .divergent }
        (.error (.divergence own other cycle.retries))
  | refuse {call : Call} (unfit : fits cycle.state call = false) (cause : Violation) :
      Turn cycle call cycle (.error (.invariant cycle.rank cause))

theorem turn (cycle : StepCycle) (call : Call) :
    Turn cycle call (service cycle call).1 (service cycle call).2 := by
  obtain ⟨rank, state, retries⟩ := cycle
  cases call with
  | beginValidation =>
      cases state with
      | applied => exact .begin rfl
      | _ => exact .refuse rfl _
  | beginRetry =>
      cases state with
      | rolledBack => exact .retry rfl
      | _ => exact .refuse rfl _
  | judge outcome =>
      cases outcome with
      | consistent =>
          cases state with
          | validating => exact .commit (Or.inl rfl)
          | retrying => exact .commit (Or.inr rfl)
          | _ => exact .refuse rfl _
      | mismatch own other =>
          cases state with
          | validating => exact .rollBack rfl own other
          | retrying => exact .diverge rfl own other
          | _ => exact .refuse rfl _

/-- The ways from the update to where a cycle stands, with the retries that they take. -/
inductive Route (rank : Nat) : List Milestone → StepCycle → Prop
  | applied : Route rank [] ⟨rank, .applied, 0⟩
  | validating : Route rank [.begun] ⟨rank, .validating, 0⟩
  | accepted : Route rank [.begun, .committed] ⟨rank, .committed, 0⟩
  | rolledBack : Route rank [.begun, .rolledBack] ⟨rank, .rolledBack, 0⟩
  | retrying : Route rank [.begun, .rolledBack, .retried] ⟨rank, .retrying, 1⟩
  | recovered : Route rank [.begun, .rolledBack, .retried, .committed] ⟨rank, .committed, 1⟩
  | divergent : Route rank [.begun, .rolledBack, .retried, .diverged] ⟨rank, .divergent, 1⟩

variable {rank : Nat} {past : List Milestone} {cycle next : StepCycle} {call : Call} {reply : Reply}

theorem Route.turn (route : Route rank past cycle) (turned : Turn cycle call next reply) :
    Route rank (past ++ (milestone? call reply).toList) next := by
  cases turned with
  | begin here => cases route <;> cases here; exact .validating
  | commit here =>
      cases route with
      | validating => exact .accepted
      | retrying => exact .recovered
      | _ => rcases here with here | here <;> cases here
  | rollBack here => cases route <;> cases here; exact .rolledBack
  | retry here => cases route <;> cases here; exact .retrying
  | diverge here => cases route <;> cases here; exact .divergent
  | refuse unfit cause =>
      have nothing : milestone? call (.error (.invariant cycle.rank cause)) = none := by
        cases call <;> rfl
      rwa [nothing, Option.toList_none, List.append_nil]

theorem Route.follow (route : Route rank past cycle) (calls : List Call) :
    Route rank (past ++ milestones (service.account cycle calls)) (service.after cycle calls) := by
  induction calls generalizing past cycle with
  | nil => rwa [Service.account, milestones, List.filterMap_nil, List.append_nil]
  | cons call rest ih =>
      have onward := ih (route.turn (StepCycle.turn cycle call))
      rw [List.append_assoc] at onward
      have split : milestones (service.account cycle (call :: rest)) =
          (milestone? call (service cycle call).2).toList ++
            milestones (service.account (service cycle call).1 rest) := by
        rw [milestones, Service.account, List.filterMap_cons]
        cases found : milestone? call (service cycle call).2 <;>
          simp [Service.note, found, milestones]
      rwa [split]

theorem route (rank : Nat) (calls : List Call) :
    Route rank (milestones (service.account (start rank) calls))
      (service.after (start rank) calls) :=
  Route.applied.follow calls

theorem Route.once (route : Route rank past cycle) (milestone : Milestone) :
    past.count milestone ≤ 1 := by
  cases route <;> cases milestone <;> decide

theorem Route.decided (route : Route rank past cycle) :
    ¬ (.committed ∈ past ∧ .diverged ∈ past) := by
  cases route <;> simp

theorem Route.of_retrying (route : Route rank past cycle) (here : cycle.state = .retrying) :
    past = [.begun, .rolledBack, .retried] ∧ cycle.retries = 1 := by
  cases route <;> cases here
  exact ⟨rfl, rfl⟩

theorem Route.retries_le (route : Route rank past cycle) : cycle.retries ≤ 1 := by
  cases route with
  | applied | validating | accepted | rolledBack => exact Nat.zero_le _
  | retrying | recovered | divergent => exact Nat.le_refl _

theorem Route.rank_eq (route : Route rank past cycle) : cycle.rank = rank := by
  cases route <;> rfl

theorem route_split {calls : List Call} {before after : List Entry}
    (split : service.account (start rank) calls = before ++ ⟨cycle, call, reply, next⟩ :: after) :
    Route rank (milestones before) cycle ∧ Turn cycle call next reply := by
  obtain ⟨front, made, _, _, rfl, noted⟩ := Service.account_split split
  obtain ⟨rfl, rfl, rfl, rfl⟩ := Service.Entry.mk.inj noted
  exact ⟨route rank front, turn _ call⟩

theorem route_mem {calls : List Call}
    (member : ⟨cycle, call, reply, next⟩ ∈ service.account (start rank) calls) :
    (∃ past, Route rank past cycle) ∧ Turn cycle call next reply := by
  obtain ⟨before, after, split⟩ := List.append_of_mem member
  obtain ⟨route, turned⟩ := route_split split
  exact ⟨⟨_, route⟩, turned⟩

theorem Turn.refused_iff (turned : Turn cycle call next reply) :
    (∃ cause, reply = .error (.invariant cycle.rank cause)) ↔ fits cycle.state call = false := by
  cases turned with
  | refuse unfit cause => exact ⟨fun _ => unfit, fun _ => ⟨cause, rfl⟩⟩
  | commit here => rcases here with here | here <;> simp [here, fits]
  | begin here | rollBack here | retry here | diverge here => simp [here, fits]

structure Sparing (rank : Nat) (entries : List Entry) : Prop where
  retries : ∀ entry ∈ entries, entry.before.retries ≤ 1 ∧ entry.later.retries ≤ 1
  once : ∀ milestone, (milestones entries).count milestone ≤ 1
  decided : ¬ (.committed ∈ milestones entries ∧ .diverged ∈ milestones entries)
  diverges : ∀ before entry after own other retries, entries = before ++ entry :: after →
    entry.reply = .error (.divergence own other retries) →
      milestones before = [.begun, .rolledBack, .retried] ∧ retries = 1
  commits : ∀ entry ∈ entries, entry.reply = .ok (some .commit) → entry.call = .judge .consistent
  refuses : ∀ entry ∈ entries,
    (∃ cause, entry.reply = .error (.invariant rank cause)) ↔
      fits entry.before.state entry.call = false
  unchanged : ∀ entry ∈ entries, ∀ owner cause, entry.reply = .error (.invariant owner cause) →
    entry.later = entry.before
  settled : ∀ entry ∈ entries,
    entry.before.state = .committed ∨ entry.before.state = .divergent →
      ∃ cause, entry.reply = .error (.invariant rank cause)

/-- Whatever is called on a step, it is retried once at the most and decided once at the most. -/
theorem retried_once (rank : Nat) (calls : List Call) :
    Sparing rank (service.account (start rank) calls) := by
  have refuses : ∀ entry ∈ service.account (start rank) calls,
      (∃ cause, entry.reply = .error (.invariant rank cause)) ↔
        fits entry.before.state entry.call = false := by
    rintro ⟨cycle, call, reply, next⟩ member
    obtain ⟨⟨past, front⟩, turned⟩ := route_mem member
    rw [← turned.refused_iff, front.rank_eq]
  constructor
  case retries =>
    rintro ⟨cycle, call, reply, next⟩ member
    obtain ⟨⟨past, before⟩, turned⟩ := route_mem member
    exact ⟨before.retries_le, (before.turn turned).retries_le⟩
  case once => exact (route rank calls).once
  case decided => exact (route rank calls).decided
  case diverges =>
    rintro before ⟨cycle, call, reply, next⟩ after own other retries split rfl
    obtain ⟨front, turned⟩ := route_split split
    cases turned with
    | diverge here => exact front.of_retrying here
  case commits =>
    rintro ⟨cycle, call, reply, next⟩ member rfl
    obtain ⟨_, turned⟩ := route_mem member
    cases turned with
    | commit here => rfl
  case refuses => exact refuses
  case unchanged =>
    rintro ⟨cycle, call, reply, next⟩ member owner cause rfl
    obtain ⟨_, turned⟩ := route_mem member
    cases turned with
    | refuse => rfl
  case settled =>
    intro entry member decided
    refine (refuses entry member).mpr ?_
    rcases decided with here | here <;> rw [here] <;> cases entry.call <;> rfl

/-- Two mismatches with a retry between them, and a verdict that comes too late. -/
example (rank : Nat) (own other : Fingerprint) :
    milestones (service.account (start rank) [.beginValidation, .judge (.mismatch own other),
      .beginRetry, .judge (.mismatch own other), .judge .consistent]) =
      [.begun, .rolledBack, .retried, .diverged] := rfl

end PipelineTraining.StepCycle
