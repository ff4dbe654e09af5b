import PipelineTraining.Proofs.Engine.Atomicity
import PipelineTraining.Proofs.Engine.Drain

/-!
What a rank records of its work. Inside the window one record is kept for every operation
that is executed, and at the end of an attempt, well or ill, all that was kept is handed to
the sink; outside of the window nothing is. `Bookkeeping` lists all that a turn can do about it.
-/

namespace PipelineTraining

variable {α : Type}

namespace Sink

variable {sink : Sink}

def fed (sink : Sink) (batches : List (List TimingRecord)) : Sink :=
  batches.foldl (fun sink batch => (sink.accept batch).1) sink

def Unfailing (sink : Sink) : Prop :=
  ∀ records, (sink.accept records).2 = .ok ()

theorem fed_append (sink : Sink) (batches more : List (List TimingRecord)) :
    sink.fed (batches ++ more) = (sink.fed batches).fed more :=
  List.foldl_append

theorem fits_of_unfailing {kept : List TimingRecord} {room : Nat}
    (unfailing : (lines kept (some room)).Unfailing) (records : List TimingRecord) :
    (text (kept ++ records)).utf8ByteSize ≤ room := by
  by_contra long
  have refused := unfailing records
  rw [accept, if_neg long] at refused
  cases refused

theorem Unfailing.accept_nil (unfailing : sink.Unfailing) : (sink.accept []).1 = sink := by
  cases sink with
  | silent => rfl
  | memory kept => simp [accept]
  | summary totals => rfl
  | lines kept room =>
      cases room with
      | none => simp [accept]
      | some room =>
          have fits := fits_of_unfailing unfailing []
          rw [List.append_nil] at fits
          simp [accept, fits]

theorem Unfailing.accept_append (unfailing : sink.Unfailing) (records more : List TimingRecord) :
    (sink.accept (records ++ more)).1 = ((sink.accept records).1.accept more).1 := by
  cases sink with
  | silent => rfl
  | memory kept => simp [accept]
  | summary totals => simp [accept, Summary.addAll]
  | lines kept room =>
      cases room with
      | none => simp [accept]
      | some room =>
          have fits := fits_of_unfailing unfailing
          simp [accept, fits]

/-- Batch by batch or all at once is the same to a sink that never fails. -/
theorem Unfailing.fed (unfailing : sink.Unfailing) (batches : List (List TimingRecord)) :
    sink.fed batches = (sink.accept batches.flatten).1 := by
  induction batches using List.reverseRecOn with
  | nil => exact unfailing.accept_nil.symm
  | append_singleton batches batch ih =>
      rw [fed_append, ih, List.flatten_append, unfailing.accept_append, List.flatten_singleton]
      rfl

end Sink

def TimingRecord.subject (record : TimingRecord) : Nat × Nat × Operation :=
  (record.iteration, record.rank, record.operation)

namespace Recorder

def batch? (recorder : Recorder) : Option (List TimingRecord) :=
  if recorder.buffer.isEmpty then none else some recorder.buffer

theorem record_eq (recorder : Recorder) (rank : Nat) (operation : Operation) (start finish : Nat) :
    recorder.record rank operation start finish = { recorder with
      buffer := recorder.buffer ++ if recorder.isActive rank then
        [⟨recorder.iteration, rank, operation, start, finish⟩] else [] } := by
  unfold record
  split
  · rfl
  · rw [List.append_nil]

theorem flatten_batch? (recorder : Recorder) :
    recorder.batch?.toList.flatten = recorder.buffer := by
  obtain ⟨window, iteration, buffer⟩ := recorder
  cases buffer with
  | nil => rfl
  | cons record rest => exact List.flatten_singleton

end Recorder

theorem Worker.flushed_recorder (worker : Worker) :
    worker.flushed.recorder = { worker.recorder with buffer := [] } := by
  unfold flushed Recorder.flush
  obtain ⟨window, iteration, buffer⟩ := worker.recorder
  cases buffer <;> rfl

theorem Worker.flushed_sink (worker : Worker) :
    worker.flushed.sink = worker.sink.fed worker.recorder.batch?.toList := by
  unfold flushed Recorder.flush
  obtain ⟨window, iteration, buffer⟩ := worker.recorder
  cases buffer <;> rfl

namespace Run

/-- The operation that a turn executes: the one in hand, or a sync that passes as it is taken up.
The attempt goes on without it; one that breaks off over an operation has not executed it. -/
def executes? (run next : Run α) : Option Operation :=
  match next.phase with
  | .choosing .. => run.inHand?.or run.picks?
  | _ => none

def handed? (run next : Run α) : Option (List TimingRecord) :=
  if next.worker.recorder.buffer.isEmpty then run.worker.recorder.batch? else none

/-- A rank that looked for a stage without a place. It hands nothing over. -/
def BrokenOff (run : Run α) : Prop :=
  run.phase = .ended (.error .unplaced)

variable {run next : Run α} {trial : Trial α} {guard : Option Guard}

theorem executes?_of_idle (idle : next.phase.trial? = none) : run.executes? next = none := by
  unfold executes?
  split
  · next phase =>
    rw [phase] at idle
    cases idle
  · rfl

theorem executes?_of_busy (shown : next.phase.trial? = some trial) (held : trial.hand.isSome) :
    run.executes? next = none := by
  unfold executes?
  split
  · next phase =>
    rw [phase] at shown
    obtain rfl := Option.some.inj shown
    cases held
  · rfl

theorem handed?_of_kept
    (kept : run.worker.recorder.buffer <+: next.worker.recorder.buffer) :
    run.handed? next = none := by
  unfold handed? Recorder.batch?
  split
  · next drained =>
    rw [List.isEmpty_iff.mp drained, List.prefix_nil] at kept
    rw [kept]
    rfl
  · rfl

theorem worker_of_become (same : ∃ phase, next = run.become phase) :
    next.worker = run.worker := by
  obtain ⟨phase, rfl⟩ := same
  rfl

theorem recorder_abort (run : Run α) (guard : Option Guard) (fault : Fault) :
    (run.abort guard fault).worker.recorder = run.worker.flushed.recorder := by
  cases guard <;> rfl

theorem sink_abort (run : Run α) (guard : Option Guard) (fault : Fault) :
    (run.abort guard fault).worker.sink = run.worker.flushed.sink := by
  cases guard <;> rfl

theorem worker_of_called {worker : Worker} {inputs : Option (List α)}
    (called : run = .ofIteration worker inputs ∨ run = .ofStep worker inputs) :
    run.worker = { worker with iteration := worker.iteration + 1 } := by
  have kept : (ofIteration worker inputs).worker =
      { worker with iteration := worker.iteration + 1 } :=
    worker_of_become (beginAttempt_eq_become _ none)
  rcases called with rfl | rfl
  · exact kept
  · unfold ofStep
    dsimp only
    split <;> exact kept

end Run

def Answered (operation : Operation) (exchange : Option (Exchange α)) : Prop :=
  ∀ made ∈ exchange, made.request.IsFor operation ∧ made.fails = false ∧ made.strays = false

theorem Served.answered {layout : Layout} {rank : Nat} {limiter after : Limiter}
    {attempt served : Attempt α} {operation : Operation} {exchange : Option (Exchange α)}
    (serves : Served layout rank limiter attempt operation exchange after served) :
    Answered operation exchange := by
  cases serves <;> rintro made ⟨⟩
  case send | receive => exact ⟨⟨_, rfl⟩, rfl, rfl⟩
  all_goals exact ⟨rfl, rfl, rfl⟩

inductive Bookkeeping (run : Run α) (exchange : Option (Exchange α)) (next : Run α) : Prop
  | opens (idle : run.phase.trial? = none) (begun : next.phase.trial?.isSome = true)
      (nothing : run.executes? next = none)
      (recorder : next.worker.recorder = run.worker.recorder.beginIteration run.iteration)
      (sink : next.worker.sink = run.worker.sink)
  | keeps (same : next.phase.trial?.isSome = run.phase.trial?.isSome ∨
        run.worker.plan.layout.places = false ∧ next.BrokenOff)
      (nothing : run.executes? next = none)
      (recorder : next.worker.recorder = run.worker.recorder)
      (sink : next.worker.sink = run.worker.sink)
  | records {operation : Operation} (underway : run.phase.trial?.isSome = true)
      (onward : next.phase.trial?.isSome = true)
      (executed : run.executes? next = some operation)
      (answered : Answered operation exchange)
      (recorder : next.worker.recorder =
        run.worker.recorder.record run.worker.rank operation 0 0)
      (sink : next.worker.sink = run.worker.sink)
  | closes (ended : next.phase.trial? = none) (nothing : run.executes? next = none)
      (recorder : next.worker.recorder = run.worker.flushed.recorder)
      (sink : next.worker.sink = run.worker.flushed.sink)

namespace Stride

variable {run next : Run α} {exchange : Option (Exchange α)} {trial : Trial α}

theorem bookkeeping_idle (stride : Stride run exchange next) (idle : run.phase.trial? = none) :
    Bookkeeping run exchange next := by
  have keeps : (∃ phase, next = run.become phase) → next.phase.trial? = none →
      Bookkeeping run exchange next := by
    rintro ⟨phase, rfl⟩ resting
    exact .keeps (Or.inl (congrArg Option.isSome (resting.trans idle.symm)))
      (Run.executes?_of_idle resting) rfl rfl
  obtain ⟨made, rfl, interlude⟩ := stride.interlude rfl idle
  generalize phase : run.phase = here at interlude
  cases interlude with
  | snapshot answer =>
      cases answer with
      | error source => exact keeps ⟨_, rfl⟩ rfl
      | ok handle =>
          exact keeps (run.beginAttempt_eq_become _) (run.resting_beginAttempt _).idle
  | clear =>
      refine .opens idle rfl ?_ rfl rfl
      simp only [Run.executes?, Run.cleared, Run.inHand?, Run.picks?, Run.choice?, phase]
      rfl
  | @restore _ after answer =>
      cases answer with
      | error source => cases after <;> exact keeps ⟨_, rfl⟩ rfl
      | ok => exact keeps ⟨_, rfl⟩ rfl
  | discard answer =>
      exact keeps (run.discarded_eq_become _ answer) (run.resting_discarded _ answer).idle

theorem bookkeeping_free (stride : Stride run exchange next) (shown : run.phase.trial? = some trial)
    (free : trial.hand = none) : Bookkeeping run exchange next := by
  have underway : run.phase.trial?.isSome = true := by
    rw [shown]
    rfl
  have empty : run.inHand? = none := by
    rw [Run.inHand?, shown]
    exact free
  have aborts : ∀ fault, Bookkeeping run exchange (run.abort trial.guard fault) := fun fault =>
    have resting := (Run.resting_abort run trial.guard fault).idle
    .closes resting (Run.executes?_of_idle resting) (Run.recorder_abort ..) (Run.sink_abort ..)
  obtain ⟨rfl, looked⟩ := Run.looked shown free stride
  cases looked with
  | finish =>
      have resting := Run.trial?_finish run trial.guard trial.attempt
      have flushed := Run.worker_of_become (run.finish_eq_become trial.guard trial.attempt)
      exact .closes resting (Run.executes?_of_idle resting) (congrArg Worker.recorder flushed)
        (congrArg Worker.sink flushed)
  | stuck => exact aborts _
  | defer picks =>
      refine .keeps (Or.inl underway.symm) ?_ rfl rfl
      simp only [Run.executes?, Run.become, empty, picks, Option.none_or]
  | start picking _ _ starts =>
      cases starts with
      | take _ known =>
          refine .keeps (Or.inl ?_) (Run.executes?_of_busy known rfl) rfl rfl
          rw [underway, known]
          rfl
      | pass syncs =>
          subst syncs
          refine .records underway rfl ?_ (by rintro made ⟨⟩) rfl rfl
          simp only [Run.executes?, Run.completed, empty, picking, Option.none_or]
      | refuse => exact aborts _

theorem bookkeeping_busy (stride : Stride run exchange next) (shown : run.phase.trial? = some trial)
    {operation : Operation} (held : trial.hand = some operation) :
    Bookkeeping run exchange next := by
  have underway : run.phase.trial?.isSome = true := by
    rw [shown]
    rfl
  cases Run.tried shown stride with
  | finish free | defer free | take free | pass free =>
      rw [held] at free
      cases free
  | wait sync _ known =>
      refine .keeps (Or.inl ?_) (Run.executes?_of_busy known ?_) rfl rfl
      · exact congrArg Option.isSome (known.trans shown.symm)
      · rw [held]
        rfl
  | serve holds serves =>
      refine .records underway rfl ?_ serves.answered rfl rfl
      simp only [Run.executes?, Run.completed, Run.inHand?, shown, Option.bind_some, holds,
        Option.some_or]
  | @abort _ fault =>
      have resting := (Run.resting_abort run trial.guard fault).idle
      exact .closes resting (Run.executes?_of_idle resting) (Run.recorder_abort ..)
        (Run.sink_abort ..)
  | collapse _ unplaced => exact .keeps (Or.inr ⟨unplaced, rfl⟩) (Run.executes?_of_idle rfl) rfl rfl

theorem bookkeeping (stride : Stride run exchange next) : Bookkeeping run exchange next := by
  cases shown : run.phase.trial? with
  | none => exact stride.bookkeeping_idle shown
  | some trial =>
      cases held : trial.hand with
      | none => exact stride.bookkeeping_free shown held
      | some operation => exact stride.bookkeeping_busy shown held

/-- An operation that is executed was answered well, if anything was asked for it. -/
theorem answered {operation : Operation} (stride : Stride run exchange next)
    (executes : run.executes? next = some operation) : Answered operation exchange := by
  cases stride.bookkeeping with
  | records _ _ executed answered =>
      obtain rfl := Option.some.inj (executed.symm.trans executes)
      exact answered
  | opens _ _ nothing | keeps _ nothing | closes _ nothing =>
      rw [nothing] at executes
      cases executes

end Stride

structure Career.Entry (α : Type) where
  run : Run α
  exchange : Option (Exchange α)
  next : Run α

inductive Career (worker : Worker) : List (Career.Entry α) → Run α → Prop
  | call {run : Run α} {inputs : Option (List α)}
      (called : run = .ofIteration worker inputs ∨ run = .ofStep worker inputs) :
      Career worker [] run
  | turn {log : List (Career.Entry α)} {run next : Run α} {exchange : Option (Exchange α)}
      (past : Career worker log run) (stride : Stride run exchange next) :
      Career worker (log ++ [⟨run, exchange, next⟩]) next
  | again {log : List (Career.Entry α)} {run next : Run α} {inputs : Option (List α)}
      {result : Except Fault (StepReport α)} (past : Career worker log run)
      (ended : run.turn = .over result)
      (called : next = .ofIteration run.worker inputs ∨ next = .ofStep run.worker inputs) :
      Career worker log next

namespace Career

variable {worker : Worker} {window : Window} {rank : Nat} {log : List (Entry α)}
  {run next : Run α} {exchange : Option (Exchange α)}

def batches (log : List (Entry α)) : List (List TimingRecord) :=
  log.filterMap fun entry => entry.run.handed? entry.next

/-- The operations executed inside the window, each with its iteration and the rank. -/
def executed (window : Window) (rank : Nat) (log : List (Entry α)) :
    List (Nat × Nat × Operation) :=
  log.filterMap fun entry =>
    if window.contains entry.run.iteration rank then
      (entry.run.executes? entry.next).map fun operation => (entry.run.iteration, rank, operation)
    else none

theorem batches_snoc : batches (log ++ [⟨run, exchange, next⟩]) =
    batches log ++ (run.handed? next).toList := by
  unfold batches
  cases found : run.handed? next <;> simp [found]

theorem executed_snoc_none (nothing : run.executes? next = none) :
    executed window rank (log ++ [⟨run, exchange, next⟩]) = executed window rank log := by
  simp [executed, nothing]

theorem executed_snoc_some {operation : Operation}
    (executes : run.executes? next = some operation) :
    executed window rank (log ++ [⟨run, exchange, next⟩]) = executed window rank log ++
      if window.contains run.iteration rank then [(run.iteration, rank, operation)] else [] := by
  by_cases inside : window.contains run.iteration rank = true <;>
    simp [executed, executes, inside]

theorem iteration_of_mem {entry : Nat × Nat × Operation}
    (member : entry ∈ executed window rank log) :
    window.contains entry.1 rank = true ∧ entry.2.1 = rank := by
  obtain ⟨turn, _, found⟩ := List.mem_filterMap.mp member
  split at found
  · next inside =>
    obtain ⟨operation, _, rfl⟩ := Option.map_eq_some_iff.mp found
    exact ⟨inside, rfl⟩
  · cases found

structure Booked (worker : Worker) (window : Window) (log : List (Entry α))
    (run : Run α) : Prop where
  rank : run.worker.rank = worker.rank
  plan : run.worker.plan = worker.plan
  framed : run.worker.recorder.window = window
  begun : run.phase.trial?.isSome = true → run.worker.recorder.iteration = run.iteration
  sink : run.worker.sink = worker.sink.fed (batches log)
  account : ((batches log).flatten ++ run.worker.recorder.buffer).map TimingRecord.subject =
    executed window worker.rank log
  empty : run.phase.trial? = none → run.worker.recorder.buffer = [] ∨
    worker.plan.layout.places = false ∧ ∃ entry ∈ log, entry.next.BrokenOff

namespace Booked

theorem still (booked : Booked worker window log run) (kin : Kin run next)
    (nothing : run.executes? next = none)
    (sink : next.worker.sink = run.worker.sink)
    (buffer : next.worker.recorder.buffer = run.worker.recorder.buffer)
    (framed : next.worker.recorder.window = run.worker.recorder.window)
    (begun : next.phase.trial?.isSome = true →
      next.worker.recorder.iteration = next.iteration)
    (empty : next.phase.trial? = none → next.worker.recorder.buffer = [] ∨
      worker.plan.layout.places = false ∧
        ∃ entry ∈ log ++ [⟨run, exchange, next⟩], entry.next.BrokenOff) :
    Booked worker window (log ++ [⟨run, exchange, next⟩]) next := by
  have kept : run.handed? next = none := Run.handed?_of_kept (buffer ▸ List.prefix_rfl)
  refine ⟨kin.rank.trans booked.rank, kin.plan.trans booked.plan, framed.trans booked.framed, begun,
    ?_, ?_, empty⟩
  · rw [sink, booked.sink, batches_snoc, kept, Option.toList_none, List.append_nil]
  · rw [batches_snoc, kept, Option.toList_none, List.append_nil, buffer, booked.account,
      executed_snoc_none nothing]

theorem note {operation : Operation} (booked : Booked worker window log run) (kin : Kin run next)
    (underway : run.phase.trial?.isSome = true) (onward : next.phase.trial?.isSome = true)
    (executes : run.executes? next = some operation)
    (recorder : next.worker.recorder = run.worker.recorder.record run.worker.rank operation 0 0)
    (sink : next.worker.sink = run.worker.sink) :
    Booked worker window (log ++ [⟨run, exchange, next⟩]) next := by
  -- Inside an attempt the recorder stands at the iteration of the run.
  have active : run.worker.recorder.isActive run.worker.rank =
      window.contains run.iteration worker.rank := by
    rw [Recorder.isActive, booked.framed, booked.begun underway, booked.rank]
  rw [Recorder.record_eq, active, booked.begun underway, booked.rank] at recorder
  have kept : run.handed? next = none := by
    refine Run.handed?_of_kept ?_
    rw [recorder]
    exact List.prefix_append ..
  refine ⟨kin.rank.trans booked.rank, kin.plan.trans booked.plan, ?_, ?_, ?_, ?_, ?_⟩
  · rw [recorder]
    exact booked.framed
  · intro _
    rw [recorder, kin.iteration]
  · rw [sink, booked.sink, batches_snoc, kept, Option.toList_none, List.append_nil]
  · rw [batches_snoc, kept, Option.toList_none, List.append_nil, recorder, ← List.append_assoc,
      List.map_append, booked.account, executed_snoc_some executes]
    split <;> rfl
  · intro resting
    rw [resting] at onward
    cases onward

theorem close (booked : Booked worker window log run) (kin : Kin run next)
    (ended : next.phase.trial? = none) (nothing : run.executes? next = none)
    (recorder : next.worker.recorder = run.worker.flushed.recorder)
    (sink : next.worker.sink = run.worker.flushed.sink) :
    Booked worker window (log ++ [⟨run, exchange, next⟩]) next := by
  rw [Worker.flushed_recorder] at recorder
  have handed : run.handed? next = run.worker.recorder.batch? := by
    rw [Run.handed?, recorder]
    rfl
  refine ⟨kin.rank.trans booked.rank, kin.plan.trans booked.plan, ?_, ?_, ?_, ?_, ?_⟩
  · rw [recorder]
    exact booked.framed
  · intro onward
    rw [ended] at onward
    cases onward
  · rw [sink, Worker.flushed_sink, booked.sink, batches_snoc, handed, Sink.fed_append]
  · rw [batches_snoc, handed, recorder, List.flatten_append, Recorder.flatten_batch?,
      List.append_nil, booked.account, executed_snoc_none nothing]
  · intro _
    rw [recorder]
    exact Or.inl rfl

theorem turn (booked : Booked worker window log run) (stride : Stride run exchange next) :
    Booked worker window (log ++ [⟨run, exchange, next⟩]) next := by
  have kin := stride.kin
  cases stride.bookkeeping with
  | opens _ begun nothing recorder sink =>
      refine booked.still kin nothing sink (by rw [recorder]; rfl) (by rw [recorder]; rfl) ?_ ?_
      · intro _
        rw [recorder, kin.iteration]
        rfl
      · intro resting
        rw [resting] at begun
        cases begun
  | keeps same nothing recorder sink =>
      refine booked.still kin nothing sink (by rw [recorder]) (by rw [recorder]) ?_ ?_
      · intro onward
        rcases same with same | ⟨_, broken⟩
        · rw [recorder, kin.iteration]
          exact booked.begun (same.symm.trans onward)
        · rw [broken] at onward
          cases onward
      · intro resting
        -- Only a rank that breaks off leaves an attempt with records in its buffer.
        rcases same with same | ⟨unplaced, broken⟩
        · have idle : run.phase.trial? = none := by
            simpa [resting] using same.symm
          rw [recorder]
          exact (booked.empty idle).imp_right fun ⟨unplaced, entry, member, broken⟩ =>
            ⟨unplaced, entry, List.mem_append_left _ member, broken⟩
        · have member : ⟨run, exchange, next⟩ ∈ log ++ [⟨run, exchange, next⟩] :=
            List.mem_append_right _ List.mem_cons_self
          exact Or.inr ⟨booked.plan ▸ unplaced, _, member, broken⟩
  | records underway onward executes _ recorder sink =>
      exact booked.note kin underway onward executes recorder sink
  | closes ended nothing recorder sink => exact booked.close kin ended nothing recorder sink

theorem again {inputs : Option (List α)} (booked : Booked worker window log run)
    (idle : run.phase.trial? = none)
    (called : next = .ofIteration run.worker inputs ∨ next = .ofStep run.worker inputs) :
    Booked worker window log next := by
  obtain ⟨rank, plan, framed, _, sink, account, empty⟩ := booked
  have kept := Run.worker_of_called called
  constructor <;> rw [kept]
  · exact rank
  · exact plan
  · exact framed
  · intro onward
    rw [Run.trial?_of_called called] at onward
    cases onward
  · exact sink
  · exact account
  · exact fun _ => empty idle

end Booked

theorem booked (fresh : worker.recorder = .make window) (career : Career worker log run) :
    Booked worker window log run := by
  -- By induction on the turns of all calls. A call finds the books as the last attempt left them.
  induction career with
  | call called =>
      have kept := Run.worker_of_called called
      constructor <;> rw [kept]
      · exact congrArg Recorder.window fresh
      · intro onward
        rw [Run.trial?_of_called called] at onward
        cases onward
      · rfl
      · rw [fresh]
        rfl
      · intro _
        rw [fresh]
        exact Or.inl rfl
  | turn _ stride ih => exact ih.turn stride
  | again _ ended called ih => exact ih.again (by rw [Run.phase_of_over ended]; rfl) called

theorem answered (career : Career worker log run) : ∀ entry ∈ log, ∀ operation,
    entry.run.executes? entry.next = some operation → Answered operation entry.exchange := by
  induction career with
  | call => simp
  | turn _ stride ih =>
      intro entry member operation executes
      rcases List.mem_append.mp member with old | new
      · exact ih entry old operation executes
      · obtain rfl := List.mem_singleton.mp new
        exact stride.answered executes
  | again _ _ _ ih => exact ih

structure Profiled (worker : Worker) (window : Window) (log : List (Entry α)) (run : Run α) :
    Prop where
  handed : run.worker.sink = worker.sink.fed (batches log)
  joined : worker.sink.Unfailing →
    run.worker.sink = (worker.sink.accept (batches log).flatten).1
  account : ((batches log).flatten ++ run.worker.recorder.buffer).map TimingRecord.subject =
    executed window worker.rank log
  succeeded : ∀ entry ∈ log, ∀ operation,
    entry.run.executes? entry.next = some operation → Answered operation entry.exchange
  inside : ∀ record ∈ (batches log).flatten ++ run.worker.recorder.buffer,
    record.rank = worker.rank ∧ window.contains record.iteration worker.rank = true
  empty : run.phase.trial? = none → run.worker.recorder.buffer = [] ∨
    worker.plan.layout.places = false ∧ ∃ entry ∈ log, entry.next.BrokenOff

/-- Every record tells of an operation that was executed inside the window, and every operation
executed there has its record, in order. At the end of an attempt all of them are with the sink,
unless it broke off at a stage without a place. -/
theorem profiled (fresh : worker.recorder = .make window) (career : Career worker log run) :
    Profiled worker window log run := by
  obtain ⟨_, _, _, _, sink, account, empty⟩ := career.booked fresh
  refine ⟨sink, fun unfailing => sink.trans (unfailing.fed _), account, career.answered, ?_, empty⟩
  intro record member
  have entered := List.mem_map_of_mem (f := TimingRecord.subject) member
  rw [account] at entered
  exact (iteration_of_mem entered).symm

def drive (answer : (request : Request α) → request.Answer) :
    Nat → List (Entry α) → Run α → List (Entry α) × Run α
  | 0, log, run => (log, run)
  | turns + 1, log, run =>
      match run.turn with
      | .over _ => (log, run)
      | .own next => drive answer turns (log ++ [⟨run, none, next⟩]) next
      | .ask request resume =>
          let reply := answer request
          drive answer turns (log ++ [⟨run, some ⟨request, reply⟩, resume reply⟩]) (resume reply)

theorem driven (answer : (request : Request α) → request.Answer) (turns : Nat)
    (past : Career worker log run) :
    Career worker (drive answer turns log run).1 (drive answer turns log run).2 := by
  induction turns generalizing log run with
  | zero => exact past
  | succ turns ih =>
      unfold drive
      cases turn : run.turn with
      | own next => exact ih (past.turn (.own turn))
      | ask request resume => exact ih (past.turn (.ask turn (answer request)))
      | _ => exact past

/-- The rank of one stage, with iteration 4 timed. -/
def timed : Worker :=
  { Run.soloist with recorder := .make ⟨4, 4, some (.ofList [0])⟩, sink := .memory [] }

/-- A step whose optimizer fails and that is rolled back. -/
def relapse : List (Entry Nat) × Run Nat :=
  drive (Run.unoptimized []) 20 [] (.ofStep timed (some [5]))

/-- The iteration behind it, which fails as well, outside of the window. -/
def relapses : List (Entry Nat) × Run Nat :=
  drive (Run.unoptimized []) 20 relapse.1 (.ofIteration relapse.2.worker (some [6]))

theorem profiled_relapses :
    relapses.2.worker.sink.records.map TimingRecord.subject =
        [(4, 0, .forward ⟨0, 0⟩ 0), (4, 0, .backward ⟨0, 0⟩ 0)] ∧
      relapses.2.worker.recorder.buffer = [] := by
  have first : Career timed relapse.1 relapse.2 := (call (Or.inr rfl)).driven _ _
  have second : Career timed relapses.1 relapses.2 := (first.again rfl (Or.inl rfl)).driven _ _
  obtain ⟨_, sink, account, _, _, empty⟩ := profiled rfl second
  have drained : relapses.2.worker.recorder.buffer = [] := by
    refine (empty rfl).resolve_right fun ⟨unplaced, _⟩ => ?_
    cases unplaced
  refine ⟨?_, drained⟩
  rw [sink fun _ => rfl]
  rw [drained, List.append_nil] at account
  exact account

end Career
end PipelineTraining
