/-
Module: NookOs.Jobs.Endings
Purpose: The three reapers that end a run nobody reports on any more, in any
  interleaving with each other and with the outcome writes, and exactly when
  each run they end gets the ending its recorded conclusion calls for.
Trusted boundary: none
Main exports: conclusionFor, Endings, Endings.step, EndsRight, Settled, endings_right_iff
-/
import NookOs.Lib.Run
import NookOs.Lib.Table
import NookOs.Jobs.Lifecycle

namespace NookOs.Jobs

open Lib

/-!
The dark-node reaper is one UPDATE over the whole table.  The stall scan reads
its candidates and ends each with a guarded UPDATE.  The disconnect sweep lists
the jobs in flight on the node and then, job by job, reads the recorded
conclusion, loads the row for `transition`'s check, and updates by id.  Any
number of replicas may be at any point of a scan or a sweep.
-/

/-- How a run ends that no completion signal will end: with the target of the
transition, and whether its card is to be handed back. -/
def conclusionFor (recordedOutcome : Option Conclusion) : JobState × Bool :=
  match recordedOutcome with
  | some _ => (.completed, false)
  | none => (.failed, true)

/-- An agent is working the run: the states a disconnect strands. -/
def isInFlight : JobState → Bool
  | .claimed | .running => true
  | _ => false

namespace Repo

/-- `SELECT id … WHERE executor_node_id = $1 AND state IN ('claimed',
'running')`, on one row. -/
def inFlightOnNode (node : NodeId) (job : LoopJob) : Bool :=
  job.executorNodeId = some node && isInFlight job.state

end Repo

/-- A job as the reapers find it: its row and newest transcript entry, the
state it was found in, and how many times its handback has run since. -/
structure Run where
  row : LoopJob
  lastEntryAt : Option Instant
  found : JobState
  handedBack : Nat
deriving DecidableEq

/-- A job no reaper has got to. -/
def Run.start (row : LoopJob) (lastEntryAt : Option Instant) : Run :=
  { row, lastEntryAt, found := row.state, handedBack := 0 }

/-- What a call of `build_handback::on_run_concluded` adds to the count: it
stands down for a run that recorded its conclusion. -/
def onRunConcluded (row : LoopJob) : Nat :=
  if recordedOutcome row = none then 1 else 0

/-- A write that ended the run, and the handback that follows where the reaper
calls for it. -/
def Run.ended (run : Run) (row : LoopJob) (handback : Bool) : Run :=
  { run with
    row
    handedBack := run.handedBack + if handback then onRunConcluded row else 0 }

/-- A guarded UPDATE on the run's row that neither ends nor announces it. -/
def Run.write (run : Run) (update : LoopJob → Option LoopJob) : Run :=
  { run with row := (update run.row).getD run.row }

/-- The dark-node reaper on one row.  Its UPDATE goes round `transition`, and
the handback is called for every row that came back. -/
def Run.reapStaleExecutors (now : Instant) (graceSecs : Int)
    (lastSeenAt : NodeId → Option Instant) (run : Run) : Run :=
  match Repo.reapStaleExecutors now graceSecs lastSeenAt run.row with
  | none => run
  | some row => run.ended row true

/-- The stall scan's ending of one candidate. -/
def Run.endStalledJob (now : Instant) (stallSecs : Int) (candidate : StalledJob)
    (run : Run) : Run :=
  match Repo.endStalledJob now stallSecs run.lastEntryAt candidate run.row with
  | none => run
  | some row => run.ended row (conclusionFor candidate.recordedOutcome).2

/-- The UPDATE of a `transition` call, and what it owes a finished job. -/
def Run.transition (now : Instant) (target : JobState) (run : Run) : Run :=
  run.ended (Repo.transition now target run.row) (isTerminal target)

/-- Where a disconnect sweep stands with the job at the head of its list. -/
inductive Phase where
  | next
  | read (recorded : Option Conclusion)
  | checked (call : CheckedTransition)
deriving DecidableEq

/-- The state the sweep is about to write, once its check has passed. -/
def Phase.target : Phase → Option JobState
  | .checked call => some call.target
  | .next | .read _ => none

/-- A `fail_stranded_for_node` call in progress. -/
structure Sweep where
  node : NodeId
  stranded : List JobId
  phase : Phase
deriving DecidableEq

/-- Go on to the job after the one in hand. -/
def Sweep.advance (sweep : Sweep) : Sweep :=
  { sweep with stranded := sweep.stranded.tail, phase := .next }

/-- The jobs, and every scan and sweep in progress. -/
structure Endings where
  jobs : List Run
  candidates : List StalledJob
  sweeps : List Sweep
deriving DecidableEq

/-- The jobs before any reaper has run. -/
def Endings.start (jobs : List (LoopJob × Option Instant)) : Endings :=
  { jobs := jobs.map fun job => Run.start job.1 job.2
    candidates := []
    sweeps := [] }

/-- One step of one reaper, or of a run that still has something to say. -/
inductive EndingStep where
  | reapStaleExecutors (now : Instant) (graceSecs : Int)
      (lastSeenAt : NodeId → Option Instant)
  | stalledCandidates (now : Instant) (stallSecs : Int)
  | endStalledJob (candidate : Nat) (now : Instant) (stallSecs : Int)
  | failStrandedForNode (node : NodeId)
  | readRecorded (sweep : Nat)
  | loadStranded (sweep : Nat)
  | concludeStranded (sweep : Nat) (now : Instant)
  | finishStranded (sweep : Nat)
  | setBuildOutcome (id : JobId) (now : Instant) (outcome : BuildOutcome)
  | setReviewVerdict (id : JobId) (now : Instant) (verdict : ReviewVerdict)
  | appendTranscript (id : JobId) (now : Instant)

/-- A job's id, the key of the table. -/
def Run.id (run : Run) : JobId := run.row.id

/-- A statement on one job. -/
def Endings.onJob (system : Endings) (id : JobId) (change : Run → Run) :
    List Run :=
  Table.update Run.id id change system.jobs

/-- The sweep's first look at the job in hand. -/
def Sweep.readRecorded (jobs : List Run) (sweep : Sweep) : Option Sweep :=
  match sweep.stranded, sweep.phase with
  | id :: _, .next =>
      match Table.find Run.id jobs id with
      | none => some sweep.advance
      | some run => some { sweep with phase := .read (recordedOutcome run.row) }
  | _, _ => none

/-- The load and check of the sweep's `transition` call.  A refusal is logged
and the sweep goes on. -/
def Sweep.load (jobs : List Run) (sweep : Sweep) : Option Sweep :=
  match sweep.stranded, sweep.phase with
  | id :: _, .read recorded =>
      match Table.find Run.id jobs id with
      | none => some sweep.advance
      | some run =>
          match checkTransition run.row (conclusionFor recorded).1 with
          | .unchanged | .illegal => some sweep.advance
          | .proceed call => some { sweep with phase := .checked call }
  | _, _ => none

/-- The interleaving semantics of the reapers. -/
def Endings.step (system : Endings) : EndingStep → Option Endings
  | .reapStaleExecutors now graceSecs lastSeenAt =>
      some
        { system with
          jobs := system.jobs.map
            (Run.reapStaleExecutors now graceSecs lastSeenAt) }
  | .stalledCandidates now stallSecs =>
      some
        { system with
          candidates := system.candidates ++ system.jobs.filterMap fun run =>
            Repo.stalledCandidates now stallSecs run.lastEntryAt run.row }
  | .endStalledJob index now stallSecs =>
      (system.candidates[index]?).map fun candidate =>
        { system with
          jobs := system.onJob candidate.id
            (Run.endStalledJob now stallSecs candidate)
          candidates := system.candidates.eraseIdx index }
  | .failStrandedForNode node =>
      some
        { system with
          sweeps := system.sweeps ++
            [{ node
               stranded := (system.jobs.filter fun run =>
                 Repo.inFlightOnNode node run.row).map Run.id
               phase := .next }] }
  | .readRecorded index =>
      (system.sweeps[index]?).bind fun sweep =>
        (sweep.readRecorded system.jobs).map fun next =>
          { system with sweeps := system.sweeps.set index next }
  | .loadStranded index =>
      (system.sweeps[index]?).bind fun sweep =>
        (sweep.load system.jobs).map fun next =>
          { system with sweeps := system.sweeps.set index next }
  | .concludeStranded index now =>
      (system.sweeps[index]?).bind fun sweep =>
        match sweep.stranded, sweep.phase with
        | id :: _, .checked call =>
            some
              { system with
                jobs := system.onJob id (Run.transition now call.target)
                sweeps := system.sweeps.set index sweep.advance }
        | _, _ => none
  | .finishStranded index =>
      (system.sweeps[index]?).bind fun sweep =>
        match sweep.stranded with
        | [] => some { system with sweeps := system.sweeps.eraseIdx index }
        | _ :: _ => none
  | .setBuildOutcome id now outcome =>
      some
        { system with
          jobs := system.onJob id fun run =>
            run.write (Repo.setBuildOutcome now outcome) }
  | .setReviewVerdict id now verdict =>
      some
        { system with
          jobs := system.onJob id fun run =>
            run.write (Repo.setReviewVerdict now verdict) }
  | .appendTranscript id now =>
      some
        { system with
          jobs := system.onJob id fun run => { run with lastEntryAt := some now } }

/-- The ending of one job is right: found in flight, it is still as it was
found, or completed with a conclusion and no handback, or failed without one
and handed back once.  Found in any other state, it was left alone. -/
def Run.EndsRight (run : Run) : Prop :=
  (run.row.state = run.found ∧ run.handedBack = 0) ∨
  (isInFlight run.found = true ∧
    ((run.row.state = .completed ∧ Repo.concluded run.row = true ∧
        run.handedBack = 0) ∨
      (run.row.state = .failed ∧ Repo.concluded run.row = false ∧
        run.handedBack = 1)))

instance (run : Run) : Decidable run.EndsRight :=
  inferInstanceAs (Decidable (_ ∨ _))

/-- After a step every job is ended right or not at all, and a sweep that
finished has left nothing in flight on its node. -/
def EndsRight (before : Endings) (label : EndingStep) (after : Endings) : Prop :=
  (∀ run ∈ after.jobs, run.EndsRight) ∧
  match label with
  | .finishStranded index =>
      ∀ sweep ∈ before.sweeps[index]?, ∀ run ∈ after.jobs,
        Repo.inFlightOnNode sweep.node run.row = false
  | _ => True

/-- The sweep's UPDATE to a target settles a row: the run is in flight and has
a conclusion exactly if it is to be completed, or it is completed already. -/
def settles (target : JobState) (row : LoopJob) : Bool :=
  (isInFlight row.state && Repo.concluded row == (target = .completed)) ||
    (row.state = .completed && target = .completed)

/-- The condition on one step, read off the state before it.  The dark-node
reaper meets no run that has recorded its conclusion; the sweep's UPDATE
settles the row it lands on; and no run is left behind `claimed` with its
conclusion recorded, where the lifecycle graph has no way to complete it. -/
def Settled (before : Endings) (label : EndingStep) (_ : Endings) : Prop :=
  match label with
  | .reapStaleExecutors now graceSecs lastSeenAt =>
      ∀ run ∈ before.jobs,
        Repo.reapStaleExecutors now graceSecs lastSeenAt run.row ≠ none →
        Repo.concluded run.row = false
  | .concludeStranded index _ =>
      ∀ sweep ∈ before.sweeps[index]?, ∀ target ∈ sweep.phase.target,
        ∀ run ∈ before.jobs, sweep.stranded.head? = some run.id →
          settles target run.row = true
  | .finishStranded index =>
      ∀ sweep ∈ before.sweeps[index]?, ∀ run ∈ before.jobs,
        run.row.executorNodeId = some sweep.node → run.row.state = .claimed →
        Repo.concluded run.row = false
  | _ => True

instance : ∀ (before : Endings) (label : EndingStep) (after : Endings),
    Decidable (EndsRight before label after)
  | before, .finishStranded index, after =>
      inferInstanceAs (Decidable ((∀ run ∈ after.jobs, run.EndsRight) ∧
        ∀ sweep ∈ before.sweeps[index]?, ∀ run ∈ after.jobs,
          Repo.inFlightOnNode sweep.node run.row = false))
  | _, .reapStaleExecutors _ _ _, after | _, .stalledCandidates _ _, after
  | _, .endStalledJob _ _ _, after | _, .failStrandedForNode _, after
  | _, .readRecorded _, after | _, .loadStranded _, after
  | _, .concludeStranded _ _, after | _, .setBuildOutcome _ _ _, after
  | _, .setReviewVerdict _ _ _, after | _, .appendTranscript _ _, after =>
      inferInstanceAs (Decidable ((∀ run ∈ after.jobs, run.EndsRight) ∧ True))

instance : ∀ (before : Endings) (label : EndingStep) (after : Endings),
    Decidable (Settled before label after)
  | before, .reapStaleExecutors now graceSecs lastSeenAt, _ =>
      inferInstanceAs (Decidable (∀ run ∈ before.jobs,
        Repo.reapStaleExecutors now graceSecs lastSeenAt run.row ≠ none →
        Repo.concluded run.row = false))
  | before, .concludeStranded index _, _ =>
      inferInstanceAs (Decidable (∀ sweep ∈ before.sweeps[index]?,
        ∀ target ∈ sweep.phase.target, ∀ run ∈ before.jobs,
          sweep.stranded.head? = some run.id → settles target run.row = true))
  | before, .finishStranded index, _ =>
      inferInstanceAs (Decidable (∀ sweep ∈ before.sweeps[index]?,
        ∀ run ∈ before.jobs, run.row.executorNodeId = some sweep.node →
          run.row.state = .claimed → Repo.concluded run.row = false))
  | _, .stalledCandidates _ _, _ | _, .endStalledJob _ _ _, _
  | _, .failStrandedForNode _, _ | _, .readRecorded _, _ | _, .loadStranded _, _
  | _, .setBuildOutcome _ _ _, _ | _, .setReviewVerdict _ _ _, _
  | _, .appendTranscript _ _, _ => isTrue trivial

/-- How any step changes one job: it may give it an ending, and it never takes
back a recorded conclusion. -/
structure Run.Follows (before after : Run) : Prop where
  key : after.id = before.id
  node : after.row.executorNodeId = before.row.executorNodeId
  found : after.found = before.found
  state : after.row.state = before.row.state ∨ isTerminal after.row.state = true
  concluded : Repo.concluded before.row = true → Repo.concluded after.row = true

theorem Run.Follows.refl (run : Run) : run.Follows run :=
  ⟨rfl, rfl, rfl, .inl rfl, fun recorded => recorded⟩

/-- A run that is still in flight is in the state it was in. -/
theorem Run.Follows.state_of_isInFlight {before after : Run} (follows : before.Follows after)
    (inFlight : isInFlight after.row.state = true) :
    after.row.state = before.row.state := by
  rcases follows.state with same | ended
  · exact same
  · cases state : after.row.state <;> simp_all [isInFlight, isTerminal]

/-- An ending writes the state, and nothing else the reapers look at. -/
theorem Run.follows_transition (now : Instant) {target : JobState} (run : Run)
    (ends : isTerminal target = true) :
    run.Follows (run.transition now target) :=
  ⟨rfl, rfl, rfl, .inr ends, fun recorded => recorded⟩

variable {now : Instant}

/-- What a match of the dark-node reaper's UPDATE says of the row. -/
theorem reapStaleExecutors_some {graceSecs : Int}
    {lastSeenAt : NodeId → Option Instant} {job row : LoopJob}
    (written : Repo.reapStaleExecutors now graceSecs lastSeenAt job = some row) :
    isInFlight job.state = true ∧
      row = { job with state := .failed, updatedAt := now } := by
  unfold Repo.reapStaleExecutors at written
  split at written
  · contradiction
  · rw [Option.ite_none_right_eq_some, Option.some.injEq] at written
    obtain ⟨⟨live, _⟩, rfl⟩ := written
    refine ⟨?_, rfl⟩
    rcases List.mem_pair.mp live with claimed | running
    · rw [claimed]
      rfl
    · rw [running]
      rfl

/-- What a match of the stall scan's UPDATE says of the row. -/
theorem endStalledJob_some {stallSecs : Int} {lastEntryAt : Option Instant} {candidate : StalledJob}
    {job row : LoopJob}
    (written : Repo.endStalledJob now stallSecs lastEntryAt candidate job = some row) :
    isInFlight job.state = true ∧
      Repo.concluded job = candidate.recordedOutcome.isSome ∧
      row = { job with state := Repo.stalledEnding candidate, updatedAt := now } := by
  rw [Repo.endStalledJob, Option.ite_none_right_eq_some,
    Option.some.injEq] at written
  obtain ⟨⟨live, _, agrees⟩, rfl⟩ := written
  refine ⟨?_, agrees, rfl⟩
  rcases List.mem_pair.mp live with claimed | running
  · rw [claimed]
    rfl
  · rw [running]
    rfl

/-- What a match of the outcome writes says of the row. -/
theorem setBuildOutcome_some {outcome : BuildOutcome} {job row : LoopJob}
    (written : Repo.setBuildOutcome now outcome job = some row) :
    isTerminal job.state = false ∧ Repo.concluded row = true ∧
      row = { job with buildOutcome := some outcome, updatedAt := now } := by
  rw [Repo.setBuildOutcome, Option.ite_none_right_eq_some,
    Option.some.injEq] at written
  obtain ⟨⟨build, _, live⟩, rfl⟩ := written
  refine ⟨?_, by simp [Repo.concluded, build], rfl⟩
  simp only [List.mem_cons, List.not_mem_nil, or_false] at live
  rcases live with state | state | state <;> simp [state, isTerminal]

theorem setReviewVerdict_some {verdict : ReviewVerdict} {job row : LoopJob}
    (written : Repo.setReviewVerdict now verdict job = some row) :
    isTerminal job.state = false ∧ Repo.concluded row = true ∧
      row = { job with reviewVerdict := some verdict, updatedAt := now } := by
  rw [Repo.setReviewVerdict, Option.ite_none_right_eq_some,
    Option.some.injEq] at written
  obtain ⟨⟨review, live⟩, rfl⟩ := written
  refine ⟨?_, by simp [Repo.concluded, review], rfl⟩
  simp only [List.mem_cons, List.not_mem_nil, or_false] at live
  rcases live with state | state | state <;> simp [state, isTerminal]

theorem Run.follows_reapStaleExecutors (now : Instant) (graceSecs : Int)
    (lastSeenAt : NodeId → Option Instant) (run : Run) :
    run.Follows (run.reapStaleExecutors now graceSecs lastSeenAt) := by
  unfold Run.reapStaleExecutors
  split
  · exact .refl run
  · rename_i row written
    obtain ⟨_, rfl⟩ := reapStaleExecutors_some written
    exact ⟨rfl, rfl, rfl, .inr rfl, fun recorded => recorded⟩

theorem Run.follows_endStalledJob (now : Instant) (stallSecs : Int)
    (candidate : StalledJob) (run : Run) :
    run.Follows (run.endStalledJob now stallSecs candidate) := by
  unfold Run.endStalledJob
  split
  · exact .refl run
  · rename_i row written
    obtain ⟨_, _, rfl⟩ := endStalledJob_some written
    refine ⟨rfl, rfl, rfl, .inr ?_, fun recorded => recorded⟩
    simp only [Run.ended, Repo.stalledEnding]
    split <;> rfl

/-- A write that keeps the state, the node and the id, and records a
conclusion, is a step of the run. -/
theorem Run.follows_write {update : LoopJob → Option LoopJob} (run : Run)
    (records : ∀ row, update run.row = some row →
      row.id = run.row.id ∧ row.executorNodeId = run.row.executorNodeId ∧
        row.state = run.row.state ∧ Repo.concluded row = true) :
    run.Follows (run.write update) := by
  unfold Run.write
  cases written : update run.row with
  | none => exact .refl run
  | some row =>
      obtain ⟨sameId, sameNode, sameState, concluded⟩ := records row written
      exact ⟨sameId, sameNode, rfl, .inl sameState, fun _ => concluded⟩

/-- A statement on one job changes that job, or no job. -/
theorem Endings.onJob_eq_map (system : Endings) (id : JobId) (change : Run → Run) :
    system.onJob id change =
      system.jobs.map fun run => if run.id = id then change run else run := rfl

variable {before after : Endings} {label : EndingStep}

/-- Every step of every party changes each job on its own, and as `Follows`
allows. -/
theorem step_follows (ends : ∀ index now, label = .concludeStranded index now →
      ∀ sweep ∈ before.sweeps[index]?, ∀ target ∈ sweep.phase.target,
        isTerminal target = true)
    (taken : before.step label = some after) :
    ∃ change : Run → Run, after.jobs = before.jobs.map change ∧
      ∀ run : Run, run.Follows (change run) := by
  have onJob : ∀ (id : JobId) (change : Run → Run),
      (∀ run : Run, run.Follows (change run)) →
      ∃ changes : Run → Run, before.onJob id change = before.jobs.map changes ∧
        ∀ run : Run, run.Follows (changes run) := by
    intro id change follows
    refine ⟨_, before.onJob_eq_map id change, fun (run : Run) => ?_⟩
    split
    · exact follows run
    · exact .refl run
  have kept : ∃ change : Run → Run, before.jobs = before.jobs.map change ∧
      ∀ run : Run, run.Follows (change run) :=
    ⟨_, (List.map_id _).symm, fun run => .refl run⟩
  cases label with
  | reapStaleExecutors now graceSecs lastSeenAt =>
      cases taken
      exact ⟨_, rfl, Run.follows_reapStaleExecutors now graceSecs lastSeenAt⟩
  | stalledCandidates now stallSecs =>
      cases taken
      exact kept
  | endStalledJob index now stallSecs =>
      obtain ⟨candidate, _, rfl⟩ := Option.map_eq_some_iff.mp taken
      exact onJob _ _ (Run.follows_endStalledJob now stallSecs candidate)
  | failStrandedForNode node =>
      cases taken
      exact kept
  | readRecorded | loadStranded =>
      obtain ⟨sweep, _, rest⟩ := Option.bind_eq_some_iff.mp taken
      obtain ⟨next, _, rfl⟩ := Option.map_eq_some_iff.mp rest
      exact kept
  | concludeStranded index now =>
      obtain ⟨sweep, present, rest⟩ := Option.bind_eq_some_iff.mp taken
      split at rest
      · rename_i id others call stranded phase
        cases rest
        have terminal := ends index now rfl sweep present call.target
          (by rw [phase]; rfl)
        exact onJob _ _ fun run => run.follows_transition now terminal
      · contradiction
  | finishStranded index =>
      obtain ⟨sweep, _, rest⟩ := Option.bind_eq_some_iff.mp taken
      split at rest
      · cases rest
        exact kept
      · contradiction
  | setBuildOutcome id now outcome =>
      cases taken
      refine onJob _ _ fun run => run.follows_write fun row written => ?_
      obtain ⟨_, concluded, rfl⟩ := setBuildOutcome_some written
      exact ⟨rfl, rfl, rfl, concluded⟩
  | setReviewVerdict id now verdict =>
      cases taken
      refine onJob _ _ fun run => run.follows_write fun row written => ?_
      obtain ⟨_, concluded, rfl⟩ := setReviewVerdict_some written
      exact ⟨rfl, rfl, rfl, concluded⟩
  | appendTranscript id now =>
      cases taken
      exact onJob _ _ fun run => ⟨rfl, rfl, rfl, .inl rfl, fun recorded => recorded⟩

/-- What a sweep in progress may rely on. -/
structure Sweep.Sound (jobs : List Run) (sweep : Sweep) : Prop where
  /-- What is in flight on the node is still to be looked at, or was passed
  over for its missing edge. -/
  covered : ∀ run ∈ jobs, Repo.inFlightOnNode sweep.node run.row = true →
    run.id ∈ sweep.stranded ∨
      (run.row.state = .claimed ∧ Repo.concluded run.row = true)
  listed : ∀ run ∈ jobs, run.id ∈ sweep.stranded → isInFlight run.found = true
  read : ∀ recorded, sweep.phase = .read recorded → recorded.isSome = true →
    ∀ run ∈ jobs, sweep.stranded.head? = some run.id →
      Repo.concluded run.row = true
  checked : ∀ call, sweep.phase = .checked call →
    call.target = .failed ∨
      (call.target = .completed ∧
        ∀ run ∈ jobs, sweep.stranded.head? = some run.id →
          Repo.concluded run.row = true)

/-- A sweep stays sound while others change the jobs. -/
theorem Sweep.Sound.map {jobs : List Run} {sweep : Sweep} {change : Run → Run}
    (sound : sweep.Sound jobs) (follows : ∀ run : Run, run.Follows (change run)) :
    sweep.Sound (jobs.map change) where
  covered := by
    intro after member inFlight
    obtain ⟨run, inJobs, rfl⟩ := List.mem_map.mp member
    have follow := follows run
    rw [Repo.inFlightOnNode, Bool.and_eq_true] at inFlight
    have sameState := follow.state_of_isInFlight inFlight.2
    have before : Repo.inFlightOnNode sweep.node run.row = true := by
      rw [Repo.inFlightOnNode, Bool.and_eq_true, ← follow.node, ← sameState]
      exact inFlight
    rw [follow.key, sameState]
    rcases sound.covered run inJobs before with pending | ⟨claimed, concluded⟩
    · exact .inl pending
    · exact .inr ⟨claimed, follow.concluded concluded⟩
  listed := by
    intro after member pending
    obtain ⟨run, inJobs, rfl⟩ := List.mem_map.mp member
    rw [(follows run).key] at pending
    rw [(follows run).found]
    exact sound.listed run inJobs pending
  read := by
    intro recorded phase present after member head
    obtain ⟨run, inJobs, rfl⟩ := List.mem_map.mp member
    rw [(follows run).key] at head
    exact (follows run).concluded
      (sound.read recorded phase present run inJobs head)
  checked := by
    intro call phase
    rcases sound.checked call phase with failed | ⟨completed, concluded⟩
    · exact .inl failed
    · refine .inr ⟨completed, ?_⟩
      intro after member head
      obtain ⟨run, inJobs, rfl⟩ := List.mem_map.mp member
      rw [(follows run).key] at head
      exact (follows run).concluded (concluded run inJobs head)

/-- A sweep may go on to its next job once the one in hand is in flight no
longer, or is a claimed run with its conclusion recorded. -/
theorem Sweep.Sound.advance {jobs : List Run} {sweep : Sweep}
    (sound : sweep.Sound jobs)
    (settled : ∀ run ∈ jobs, sweep.stranded.head? = some run.id →
      isInFlight run.row.state = true →
      run.row.state = .claimed ∧ Repo.concluded run.row = true) :
    sweep.advance.Sound jobs where
  covered := by
    intro run member inFlight
    rcases sound.covered run member inFlight with pending | passed
    · cases stranded : sweep.stranded with
      | nil => simp [stranded] at pending
      | cons id others =>
          rw [stranded, List.mem_cons] at pending
          rcases pending with rfl | later
          · rw [Repo.inFlightOnNode, Bool.and_eq_true] at inFlight
            exact .inr (settled run member (by rw [stranded]; rfl) inFlight.2)
          · left
            simpa [Sweep.advance, stranded] using later
    · exact .inr passed
  listed := fun run member pending =>
    sound.listed run member (List.mem_of_mem_tail pending)
  read := nofun
  checked := nofun

/-- What every run of the reapers keeps, as long as each job ends right. -/
structure Endings.Sound (system : Endings) : Prop where
  keyed : Table.Keyed Run.id system.jobs
  right : ∀ run ∈ system.jobs, run.EndsRight
  sweeps : ∀ sweep ∈ system.sweeps, sweep.Sound system.jobs

theorem Endings.sound_start {jobs : List (LoopJob × Option Instant)}
    (unique : (jobs.map fun job => job.1.id).Nodup) :
    (Endings.start jobs).Sound where
  keyed := by
    unfold Table.Keyed
    simpa only [Endings.start, List.map_map, Function.comp_def, Run.id,
      Run.start] using unique
  right := by
    intro run member
    obtain ⟨job, _, rfl⟩ := List.mem_map.mp member
    exact .inl ⟨rfl, rfl⟩
  sweeps := fun sweep member => by cases member

variable {run : Run}

/-- A job that is ended right and was found in flight is in flight still
unless it has ended. -/
theorem Run.EndsRight.state_of_isInFlight (right : run.EndsRight)
    (inFlight : isInFlight run.row.state = true) :
    isInFlight run.found = true ∧ run.row.state = run.found ∧
      run.handedBack = 0 := by
  rcases right with ⟨same, none⟩ | ⟨_, ⟨ended, _⟩ | ⟨ended, _⟩⟩
  · exact ⟨same ▸ inFlight, same, none⟩
  · rw [ended] at inFlight
    cases inFlight
  · rw [ended] at inFlight
    cases inFlight

variable {system : Endings}

/-- The sweep that starts lists what is in flight on its node. -/
theorem Endings.Sound.failStrandedForNode (sound : system.Sound) (node : NodeId) :
    Sweep.Sound system.jobs
      { node
        stranded := (system.jobs.filter fun run =>
          Repo.inFlightOnNode node run.row).map Run.id
        phase := .next } where
  covered := fun run member inFlight =>
    .inl (List.mem_map_of_mem (List.mem_filter.mpr ⟨member, inFlight⟩))
  listed := by
    intro run member pending
    obtain ⟨other, inFlight, sameId⟩ := List.mem_map.mp pending
    obtain ⟨inJobs, onNode⟩ := List.mem_filter.mp inFlight
    have same : other = run := by
      have found := sound.keyed.find_of_mem inJobs
      rw [sameId, sound.keyed.find_of_mem member] at found
      exact (Option.some.inj found).symm
    subst same
    rw [Repo.inFlightOnNode, Bool.and_eq_true] at onNode
    exact ((sound.right other member).state_of_isInFlight onNode.2).1
  read := nofun
  checked := nofun

/-- With unique ids, the job in hand is the one the lookup finds. -/
theorem Endings.Sound.found_of_head (sound : system.Sound) {id : JobId} {others : List JobId}
    (member : run ∈ system.jobs) (head : (id :: others).head? = some run.id) :
    Table.find Run.id system.jobs id = some run := by
  rw [Option.some.inj head]
  exact sound.keyed.find_of_mem member

theorem Endings.Sound.readRecorded (sound : system.Sound) {sweep next : Sweep}
    (mine : sweep.Sound system.jobs) (read : sweep.readRecorded system.jobs = some next) :
    next.Sound system.jobs := by
  unfold Sweep.readRecorded at read
  split at read
  · rename_i id others stranded phase
    split at read
    · rename_i absent
      cases read
      apply mine.advance
      intro run member head
      rw [stranded] at head
      cases absent.symm.trans (sound.found_of_head member head)
    · rename_i run present
      cases read
      refine ⟨mine.covered, mine.listed, ?_, nofun⟩
      intro recorded phase isRecorded other member head
      cases phase
      have same := sound.found_of_head member (stranded ▸ head)
      cases present.symm.trans same
      rw [Repo.concluded_eq_isSome_recordedOutcome]
      exact isRecorded
  · contradiction

/-- What the check of `transition` lets through. -/
theorem checkTransition_proceed {job : LoopJob} {target : JobState} {call : CheckedTransition}
    (checked : checkTransition job target = .proceed call) :
    call.target = target := by
  unfold checkTransition at checked
  split at checked
  · contradiction
  · split at checked
    · cases checked
      rfl
    · contradiction

/-- The check never turns away a run in flight whose ending is `failed`, and of
those to be completed only one that is still `claimed`. -/
theorem checkTransition_refuses {job : LoopJob} {recorded : Option Conclusion}
    (inFlight : isInFlight job.state = true)
    (refused : ∀ call, checkTransition job (conclusionFor recorded).1 ≠ .proceed call) :
    job.state = .claimed ∧ recorded.isSome = true := by
  unfold checkTransition at refused
  cases recorded <;> cases state : job.state <;>
    simp_all [conclusionFor, isInFlight, legalTransition]

theorem Endings.Sound.load (sound : system.Sound) {sweep next : Sweep}
    (mine : sweep.Sound system.jobs) (loaded : sweep.load system.jobs = some next) :
    next.Sound system.jobs := by
  unfold Sweep.load at loaded
  split at loaded
  · rename_i id others recorded stranded phase
    split at loaded
    · rename_i absent
      cases loaded
      apply mine.advance
      intro run member head
      rw [stranded] at head
      cases absent.symm.trans (sound.found_of_head member head)
    · rename_i run present
      have inHand : ∀ other ∈ system.jobs,
          sweep.stranded.head? = some other.id → other = run := by
        intro other member head
        rw [stranded] at head
        exact Option.some.inj
          ((sound.found_of_head member head).symm.trans present)
      have passedOver :
          (∀ call, checkTransition run.row (conclusionFor recorded).1 ≠
            .proceed call) → sweep.advance.Sound system.jobs := by
        intro refused
        apply mine.advance
        intro other member head inFlight
        have same := inHand other member head
        subst same
        obtain ⟨claimed, isRecorded⟩ := checkTransition_refuses inFlight refused
        exact ⟨claimed, mine.read recorded phase isRecorded _ member head⟩
      split at loaded
      · rename_i unchanged
        cases loaded
        exact passedOver fun call => by rw [unchanged]; nofun
      · rename_i illegal
        cases loaded
        exact passedOver fun call => by rw [illegal]; nofun
      · rename_i call proceeds
        cases loaded
        refine ⟨mine.covered, mine.listed, nofun, ?_⟩
        intro passed same
        cases same
        rw [checkTransition_proceed proceeds]
        cases recorded with
        | none => exact .inl rfl
        | some conclusion => exact .inr ⟨rfl, mine.read _ phase rfl⟩
  · contradiction

/-- What a disconnect sweep's UPDATE writes is always an ending. -/
theorem Sweep.Sound.terminal {jobs : List Run} {sweep : Sweep}
    (sound : sweep.Sound jobs) : ∀ target ∈ sweep.phase.target,
      isTerminal target = true := by
  intro target writes
  cases phase : sweep.phase with
  | next | read => simp [phase, Phase.target] at writes
  | checked call =>
      simp only [phase, Phase.target, Option.mem_some_iff] at writes
      subst writes
      rcases sound.checked call phase with failed | ⟨completed, _⟩
      · rw [failed]
        rfl
      · rw [completed]
        rfl

theorem Endings.Sound.step_follows (sound : before.Sound) (taken : before.step label = some after) :
    ∃ change : Run → Run, after.jobs = before.jobs.map change ∧
      ∀ run : Run, run.Follows (change run) :=
  Jobs.step_follows
    (fun _ _ _ sweep present =>
      (sound.sweeps sweep (List.mem_of_getElem? present)).terminal) taken

/-- A sweep that comes out of a step was sound for the jobs before it, unless
it is the one whose job the step concluded. -/
theorem Endings.Sound.step_sweeps (sound : before.Sound) (taken : before.step label = some after)
    (others : ∀ index now, label ≠ .concludeStranded index now) :
    ∀ sweep ∈ after.sweeps, sweep.Sound before.jobs := by
  intro sweep member
  cases label with
  | reapStaleExecutors | stalledCandidates =>
      cases taken
      exact sound.sweeps sweep member
  | endStalledJob index now stallSecs =>
      obtain ⟨candidate, _, rfl⟩ := Option.map_eq_some_iff.mp taken
      exact sound.sweeps sweep member
  | failStrandedForNode node =>
      cases taken
      rcases List.mem_append.mp member with earlier | started
      · exact sound.sweeps sweep earlier
      · rw [List.mem_singleton] at started
        subst started
        exact sound.failStrandedForNode node
  | readRecorded index =>
      obtain ⟨current, present, rest⟩ := Option.bind_eq_some_iff.mp taken
      obtain ⟨next, read, rfl⟩ := Option.map_eq_some_iff.mp rest
      rcases List.mem_or_eq_of_mem_set member with earlier | rfl
      · exact sound.sweeps sweep earlier
      · exact sound.readRecorded
          (sound.sweeps current (List.mem_of_getElem? present)) read
  | loadStranded index =>
      obtain ⟨current, present, rest⟩ := Option.bind_eq_some_iff.mp taken
      obtain ⟨next, loaded, rfl⟩ := Option.map_eq_some_iff.mp rest
      rcases List.mem_or_eq_of_mem_set member with earlier | rfl
      · exact sound.sweeps sweep earlier
      · exact sound.load
          (sound.sweeps current (List.mem_of_getElem? present)) loaded
  | concludeStranded index now => exact absurd rfl (others index now)
  | finishStranded index =>
      obtain ⟨current, _, rest⟩ := Option.bind_eq_some_iff.mp taken
      split at rest
      · cases rest
        exact sound.sweeps sweep (List.mem_of_mem_eraseIdx member)
      · contradiction
  | setBuildOutcome | setReviewVerdict | appendTranscript =>
      cases taken
      exact sound.sweeps sweep member

/-- A step of any party keeps what the sweeps rely on. -/
theorem Endings.Sound.step (sound : before.Sound) (taken : before.step label = some after)
    (right : EndsRight before label after) : after.Sound where
  keyed := by
    obtain ⟨change, changed, follows⟩ := sound.step_follows taken
    have sameIds : after.jobs.map Run.id = before.jobs.map Run.id := by
      rw [changed, List.map_map]
      exact List.map_congr_left fun run _ => (follows run).key
    unfold Table.Keyed
    rw [sameIds]
    exact sound.keyed
  right := right.1
  sweeps := by
    intro sweep member
    obtain ⟨change, changed, follows⟩ := sound.step_follows taken
    by_cases concludes : ∃ index now, label = .concludeStranded index now
    · obtain ⟨index, now, rfl⟩ := concludes
      obtain ⟨current, present, rest⟩ := Option.bind_eq_some_iff.mp taken
      have mine := sound.sweeps current (List.mem_of_getElem? present)
      split at rest
      · rename_i id others call stranded phase
        cases rest
        rw [changed]
        rcases List.mem_or_eq_of_mem_set member with earlier | rfl
        · exact (sound.sweeps sweep earlier).map follows
        · apply (mine.map follows).advance
          intro run inJobs head inFlight
          -- The row in hand carries the ending that was just written.
          rw [← changed] at inJobs
          obtain ⟨earlier, _, rfl⟩ := List.mem_map.mp inJobs
          rw [stranded] at head
          have ended : isTerminal call.target = true :=
            mine.terminal _ (by rw [phase]; rfl)
          split at inFlight
          · cases target : call.target <;>
              simp_all [Run.transition, Run.ended, Repo.transition, isInFlight,
                isTerminal]
          · rename_i other
            rw [if_neg other] at head
            exact absurd (Option.some.inj head).symm other
      · contradiction
    · have earlier := sound.step_sweeps taken
        (fun index now same => concludes ⟨index, now, same⟩) sweep member
      rw [changed]
      exact earlier.map follows

/-- The handback stands down exactly for a run that recorded its conclusion. -/
theorem onRunConcluded_eq (row : LoopJob) :
    onRunConcluded row = if Repo.concluded row then 0 else 1 := by
  rw [onRunConcluded, Repo.concluded_eq_isSome_recordedOutcome]
  cases recordedOutcome row <;> rfl

/-- Writing an ending over a run in flight is right exactly when the ending is
the one its conclusion calls for and the handback is left to an unconcluded
run. -/
theorem Run.ended_right_iff {row : LoopJob} {handback : Bool}
    (right : run.EndsRight) (inFlight : isInFlight run.row.state = true)
    (ending : row.state = .failed ∧ handback = true ∨ row.state = .completed) :
    (run.ended row handback).EndsRight ↔
      Repo.concluded row = decide (row.state = .completed) := by
  obtain ⟨found, same, none⟩ := right.state_of_isInFlight inFlight
  have notFound : row.state ≠ run.found := by
    intro back
    rw [← back] at found
    rcases ending with ⟨failed, _⟩ | completed
    · rw [failed] at found
      cases found
    · rw [completed] at found
      cases found
  unfold Run.EndsRight Run.ended
  simp only [notFound, false_and, found, true_and, false_or, none, Nat.zero_add,
    onRunConcluded_eq]
  rcases ending with ⟨failed, rfl⟩ | completed
  · cases concluded : Repo.concluded row <;> simp [failed]
  · cases concluded : Repo.concluded row <;> simp [completed]

theorem Run.reapStaleExecutors_right_iff {graceSecs : Int} {lastSeenAt : NodeId → Option Instant}
    (right : run.EndsRight) :
    (run.reapStaleExecutors now graceSecs lastSeenAt).EndsRight ↔
      (Repo.reapStaleExecutors now graceSecs lastSeenAt run.row ≠ none →
        Repo.concluded run.row = false) := by
  unfold Run.reapStaleExecutors
  cases written : Repo.reapStaleExecutors now graceSecs lastSeenAt run.row with
  | none => simp [right]
  | some row =>
      obtain ⟨inFlight, rfl⟩ := reapStaleExecutors_some written
      simp only [ne_eq, reduceCtorEq, not_false_eq_true, forall_const]
      exact Run.ended_right_iff right inFlight (.inl ⟨rfl, rfl⟩)

/-- The stall scan re-asserts the conclusion it chose the ending by. -/
theorem Run.EndsRight.endStalledJob {stallSecs : Int}
    {candidate : StalledJob} (right : run.EndsRight) :
    (run.endStalledJob now stallSecs candidate).EndsRight := by
  unfold Run.endStalledJob
  cases written : Repo.endStalledJob now stallSecs run.lastEntryAt candidate
      run.row with
  | none => exact right
  | some row =>
      obtain ⟨inFlight, agrees, rfl⟩ := endStalledJob_some written
      apply (Run.ended_right_iff right inFlight ?_).mpr
      · cases recorded : candidate.recordedOutcome <;>
          simp_all [Repo.stalledEnding, Repo.concluded]
      · cases recorded : candidate.recordedOutcome <;>
          simp [Repo.stalledEnding, recorded, conclusionFor]

/-- The sweep's UPDATE is right exactly when it settles the row. -/
theorem Run.transition_right_iff {target : JobState} (right : run.EndsRight)
    (found : isInFlight run.found = true)
    (checked : target = .failed ∨ (target = .completed ∧ Repo.concluded run.row = true)) :
    (run.transition now target).EndsRight ↔ settles target run.row = true := by
  by_cases inFlight : isInFlight run.row.state = true
  · have terminal : isTerminal target = true := by
      rcases checked with rfl | ⟨rfl, _⟩ <;> rfl
    have notCompleted : run.row.state ≠ .completed := by
      intro completed
      rw [completed] at inFlight
      cases inFlight
    have ending : target = .failed ∧ true = true ∨ target = .completed := by
      rcases checked with failed | ⟨completed, _⟩
      · exact .inl ⟨failed, rfl⟩
      · exact .inr completed
    rw [Run.transition, terminal]
    have decided : (run.ended (Repo.transition now target run.row) true).EndsRight ↔
        Repo.concluded run.row = decide (target = .completed) :=
      Run.ended_right_iff right inFlight ending
    rw [decided]
    simp [settles, inFlight, notCompleted]
  · -- The row has been ended since it was listed.
    have moved : run.row.state ≠ run.found := fun same => inFlight (same ▸ found)
    have ended : (run.row.state = .completed ∧ Repo.concluded run.row = true ∧
        run.handedBack = 0) ∨ (run.row.state = .failed ∧
          Repo.concluded run.row = false ∧ run.handedBack = 1) := by
      rcases right with ⟨same, _⟩ | ⟨_, ended⟩
      · exact absurd same moved
      · exact ended
    have kept : Repo.concluded (Repo.transition now target run.row) =
        Repo.concluded run.row := rfl
    have written : (Repo.transition now target run.row).state = target := rfl
    have notFound : target ≠ run.found := by
      intro back
      rw [← back] at found
      rcases checked with rfl | ⟨rfl, _⟩ <;> cases found
    unfold Run.EndsRight Run.transition Run.ended
    simp only [written, kept, notFound, false_and, found, true_and, false_or,
      onRunConcluded_eq]
    rcases ended with ⟨completed, concluded, none⟩ | ⟨failed, open_, once⟩
    · rcases checked with rfl | ⟨rfl, _⟩
      · simp [settles, completed, concluded, isInFlight]
      · simp [settles, completed, concluded, none]
    · rcases checked with rfl | ⟨rfl, concluded⟩
      · simp [settles, failed, open_, once, isInFlight, isTerminal]
      · rw [open_] at concluded
        contradiction

/-- An outcome write leaves a run that is ended right ended right: it only
matches a run that has not ended. -/
theorem Run.EndsRight.write {update : LoopJob → Option LoopJob} (right : run.EndsRight)
    (live : ∀ row, update run.row = some row →
      isTerminal run.row.state = false ∧ row.state = run.row.state) :
    (run.write update).EndsRight := by
  unfold Run.write
  cases written : update run.row with
  | none => exact right
  | some row =>
      obtain ⟨notEnded, sameState⟩ := live row written
      rcases right with ⟨same, none⟩ | ⟨_, ⟨ended, _⟩ | ⟨ended, _⟩⟩
      · exact .inl ⟨sameState.trans same, none⟩
      · rw [ended] at notEnded
        cases notEnded
      · rw [ended] at notEnded
        cases notEnded

/-- Each job is ended right after a statement on one of them, exactly when that
one is. -/
theorem Endings.Sound.onJob_right_iff (sound : system.Sound) {id : JobId} {change : Run → Run}
    {condition : Run → Prop}
    (exactly : ∀ run ∈ system.jobs, run.id = id → ((change run).EndsRight ↔ condition run)) :
    (∀ run ∈ system.onJob id change, run.EndsRight) ↔
      ∀ run ∈ system.jobs, run.id = id → condition run := by
  rw [system.onJob_eq_map, List.forall_mem_map]
  constructor
  · intro right run member same
    have changed := right run member
    rw [if_pos same] at changed
    exact (exactly run member same).mp changed
  · intro holds run member
    split
    · rename_i same
      exact (exactly run member same).mpr (holds run member same)
    · exact sound.right run member

/-- A statement on one job that keeps every ending right keeps them all. -/
theorem Endings.Sound.onJob_right (sound : system.Sound) {id : JobId} {change : Run → Run}
    (keeps : ∀ run : Run, run.EndsRight → (change run).EndsRight) :
    ∀ run ∈ system.onJob id change, run.EndsRight := by
  rw [system.onJob_eq_map, List.forall_mem_map]
  intro run member
  split
  · exact keeps run (sound.right run member)
  · exact sound.right run member

/-- A finished sweep has left behind, of what is on its node, only claimed
runs whose conclusion is recorded. -/
theorem Sweep.Sound.finished_iff {jobs : List Run} {sweep : Sweep}
    (sound : sweep.Sound jobs) (finished : sweep.stranded = []) :
    (∀ run ∈ jobs, Repo.inFlightOnNode sweep.node run.row = false) ↔
      ∀ run ∈ jobs, run.row.executorNodeId = some sweep.node →
        run.row.state = .claimed → Repo.concluded run.row = false := by
  constructor
  · intro clear run member onNode claimed
    have notInFlight := clear run member
    simp [Repo.inFlightOnNode, onNode, claimed, isInFlight] at notInFlight
  · intro open_ run member
    by_contra inFlight
    rw [Bool.not_eq_false] at inFlight
    rcases sound.covered run member inFlight with pending | ⟨claimed, concluded⟩
    · rw [finished] at pending
      cases pending
    · rw [Repo.inFlightOnNode, Bool.and_eq_true, decide_eq_true_eq] at inFlight
      rw [open_ run member inFlight.1 claimed] at concluded
      contradiction

/-- One step leaves every job ended right, and a finished sweep's node clear,
exactly when it meets the condition. -/
theorem Endings.Sound.endsRight_iff
    (sound : before.Sound) (taken : before.step label = some after) :
    EndsRight before label after ↔ Settled before label after := by
  cases label with
  | reapStaleExecutors now graceSecs lastSeenAt =>
      cases taken
      simp only [EndsRight, Settled, and_true, List.forall_mem_map]
      exact forall₂_congr fun run member =>
        Run.reapStaleExecutors_right_iff (sound.right run member)
  | stalledCandidates now stallSecs =>
      cases taken
      simpa only [EndsRight, Settled, and_true, iff_true] using sound.right
  | endStalledJob index now stallSecs =>
      obtain ⟨candidate, _, rfl⟩ := Option.map_eq_some_iff.mp taken
      simpa only [EndsRight, Settled, and_true, iff_true]
        using sound.onJob_right fun run right => right.endStalledJob
  | failStrandedForNode node =>
      cases taken
      simpa only [EndsRight, Settled, and_true, iff_true] using sound.right
  | readRecorded | loadStranded =>
      obtain ⟨sweep, _, rest⟩ := Option.bind_eq_some_iff.mp taken
      obtain ⟨next, _, rfl⟩ := Option.map_eq_some_iff.mp rest
      simpa only [EndsRight, Settled, and_true, iff_true] using sound.right
  | concludeStranded index now =>
      obtain ⟨sweep, present, rest⟩ := Option.bind_eq_some_iff.mp taken
      have mine := sound.sweeps sweep (List.mem_of_getElem? present)
      split at rest
      · rename_i id others call stranded phase
        cases rest
        have exactly :
            (∀ run ∈ before.onJob id (Run.transition now call.target),
              run.EndsRight) ↔
            ∀ run ∈ before.jobs, run.id = id →
              settles call.target run.row = true := by
          apply sound.onJob_right_iff
          intro run member same
          have head : sweep.stranded.head? = some run.id := by
            rw [stranded, same]
            rfl
          apply Run.transition_right_iff (sound.right run member)
          · apply mine.listed run member
            rw [stranded, same]
            exact List.mem_cons_self
          · rcases mine.checked call phase with failed | ⟨completed, concluded⟩
            · exact .inl failed
            · exact .inr ⟨completed, concluded run member head⟩
        simp only [EndsRight, Settled, and_true, present, Option.mem_some_iff,
          forall_eq', stranded, phase, Phase.target, List.head?_cons,
          Option.some.injEq]
        rw [exactly]
        exact forall₂_congr fun run _ => by rw [eq_comm]
      · contradiction
  | finishStranded index =>
      obtain ⟨sweep, present, rest⟩ := Option.bind_eq_some_iff.mp taken
      have mine := sound.sweeps sweep (List.mem_of_getElem? present)
      split at rest
      · rename_i finished
        cases rest
        simp only [EndsRight, Settled, present, Option.mem_some_iff, forall_eq']
        rw [mine.finished_iff finished]
        exact and_iff_right sound.right
      · contradiction
  | setBuildOutcome id now outcome =>
      cases taken
      simp only [EndsRight, Settled, and_true, iff_true]
      refine sound.onJob_right fun run right => right.write fun row written => ?_
      obtain ⟨live, _, rfl⟩ := setBuildOutcome_some written
      exact ⟨live, rfl⟩
  | setReviewVerdict id now verdict =>
      cases taken
      simp only [EndsRight, Settled, and_true, iff_true]
      refine sound.onJob_right fun run right => right.write fun row written => ?_
      obtain ⟨live, _, rfl⟩ := setReviewVerdict_some written
      exact ⟨live, rfl⟩
  | appendTranscript id now =>
      cases taken
      simp only [EndsRight, Settled, and_true, iff_true]
      exact sound.onJob_right fun run right => right

/-- In every interleaving of the reapers and the outcome writes over jobs of
distinct ids, each run is left as it was found or gets the one ending and the
handback its recorded conclusion calls for, and each finished disconnect sweep
leaves its node clear, exactly when every step meets the condition. -/
theorem endings_right_iff {jobs : List (LoopJob × Option Instant)}
    (unique : (jobs.map fun job => job.1.id).Nodup) (labels : List EndingStep) :
    Along Endings.step EndsRight (Endings.start jobs) labels ↔
      Along Endings.step Settled (Endings.start jobs) labels :=
  along_iff_of_invariant Endings.Sound
    (fun _ _ _ sound taken right => sound.step taken right)
    (fun _ _ _ sound taken => sound.endsRight_iff taken)
    (Endings.sound_start unique)

/-- A build run in one of its states on node 5, silent so far. -/
def buildRunOn5 (state : JobState) : LoopJob × Option Instant :=
  ({ Repo.create 0
      { id := 1, tenant := 1, kind := .build, targetTaskId := some 7
        workspaceId := some 3, requestedBy := 2, seed := none
        predecessorJobId := none, reviewPrNumber := none, reviewHeadSha := none
        reviewForced := false, buildFingerprint := none } with
      state, executorNodeId := some 5 }, none)

/-- The node disconnects between a running build's outcome and its completion
signal, with the stall scan at work beside the sweep: the run is completed. -/
theorem endings_right_iff_disconnect :
    Along Endings.step EndsRight (Endings.start [buildRunOn5 .running])
      [.stalledCandidates 9000000 1, .setBuildOutcome 1 9000000 .prOpened,
        .endStalledJob 0 9000001 1, .failStrandedForNode 5, .readRecorded 0,
        .loadStranded 0, .concludeStranded 0 9000002, .finishStranded 0] :=
  (endings_right_iff (by decide) _).mpr (by decide)

/-- A running build records its outcome and its node goes dark: the dark-node
reaper fails it.  A claimed one records its outcome and its node disconnects:
`claimed` has no edge to `completed`, and the finished sweep leaves it there. -/
theorem concluded_run_not_completed :
    ¬ Along Endings.step EndsRight (Endings.start [buildRunOn5 .running])
        [.setBuildOutcome 1 1 .prOpened,
          .reapStaleExecutors 99000000 60 fun _ => some 2] ∧
      ¬ Along Endings.step EndsRight (Endings.start [buildRunOn5 .claimed])
        [.setBuildOutcome 1 1 .prOpened, .failStrandedForNode 5,
          .readRecorded 0, .loadStranded 0, .finishStranded 0] := by
  decide

end NookOs.Jobs
