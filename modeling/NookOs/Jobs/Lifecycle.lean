/-
Module: NookOs.Jobs.Lifecycle
Purpose: One `loop_jobs` row under every writer of its `state`, in any
  interleaving, and exactly when each committed write follows the lifecycle
  graph.
Trusted boundary: none
Main exports: checkTransition, Lifecycle, Lifecycle.step, RowWrite, lawful_iff_notOvertaken
-/
import NookOs.Lib.Run
import NookOs.Jobs.LoopJob

namespace NookOs.Jobs

open Lib

/-!
`services::jobs::transition` loads the row, checks the edge, and updates by id,
in three awaits.  The check and the UPDATE are therefore two steps here, with a
call in flight between them; the repository's own guarded UPDATEs are one step
each, and the stall scan is the read of a candidate and the guarded write that
ends it.
-/

/-- A `transition` call between its legality check and its UPDATE.  It carries
the check it passed, so a call that was refused is never in flight. -/
structure CheckedTransition where
  loaded : JobState
  target : JobState
  moves : loaded ≠ target
  legal : legalTransition loaded target = true
deriving DecidableEq

/-- What the check of `transition` decides from the row it loaded. -/
inductive TransitionCheck where
  | unchanged
  | illegal
  | proceed (call : CheckedTransition)

/-- The load and legality check of `services::jobs::transition`. -/
def checkTransition (job : LoopJob) (target : JobState) : TransitionCheck :=
  if moves : job.state = target then .unchanged
  else if legal : legalTransition job.state target = true then
    .proceed ⟨job.state, target, moves, legal⟩
  else .illegal

/-- One row, its newest transcript entry, and the calls in flight on it. -/
structure Lifecycle where
  row : LoopJob
  lastEntryAt : Option Instant
  inFlight : List CheckedTransition
  candidates : List StalledJob
deriving DecidableEq

/-- No call has read the row and not yet written it. -/
def Lifecycle.Quiescent (system : Lifecycle) : Prop :=
  system.inFlight = [] ∧ system.candidates = []

/-- One step of one party on the row. -/
inductive LifecycleStep where
  | load (target : JobState)
  | update (call : Nat) (now : Instant)
  | claimForExecutor (now : Instant) (node : NodeId)
  | stalledCandidates (now : Instant) (stallSecs : Int)
  | endStalledJob (candidate : Nat) (now : Instant) (stallSecs : Int)
  | reapStaleExecutors (now : Instant) (graceSecs : Int)
      (lastSeenAt : NodeId → Option Instant)
  | cancelQueuedOnFinishedCards (now : Instant) (finished : TaskId → Bool)
  | cancelStarvedQueued (now : Instant) (starveSecs : Int)
  | setQueuedReason (now : Instant) (reason : String)
      (kind : Option QueuedReason)
  | setBuildOutcome (now : Instant) (outcome : BuildOutcome)
  | setReviewVerdict (now : Instant) (verdict : ReviewVerdict)
  | appendTranscript (now : Instant)

/-- A guarded UPDATE on the system's row; an unmatched guard changes nothing. -/
def Lifecycle.write (system : Lifecycle)
    (update : LoopJob → Option LoopJob) : Lifecycle :=
  { system with row := (update system.row).getD system.row }

/-- The load and check of a `transition` call; only a call that passed is in
flight afterwards. -/
def Lifecycle.load (system : Lifecycle) (target : JobState) : Lifecycle :=
  match checkTransition system.row target with
  | .proceed call => { system with inFlight := system.inFlight ++ [call] }
  | .unchanged | .illegal => system

/-- The interleaving semantics of the writers. -/
def Lifecycle.step (system : Lifecycle) : LifecycleStep → Option Lifecycle
  | .load target => some (system.load target)
  | .update call now =>
      (system.inFlight[call]?).map fun checked =>
        { system with
          row := Repo.transition now checked.target system.row
          inFlight := system.inFlight.eraseIdx call }
  | .claimForExecutor now node =>
      some (system.write (Repo.claimForExecutor now node))
  | .stalledCandidates now stallSecs =>
      some
        { system with
          candidates := system.candidates ++
            (Repo.stalledCandidates now stallSecs system.lastEntryAt
              system.row).toList }
  | .endStalledJob candidate now stallSecs =>
      (system.candidates[candidate]?).map fun stalled =>
        { system.write
            (Repo.endStalledJob now stallSecs system.lastEntryAt stalled) with
          candidates := system.candidates.eraseIdx candidate }
  | .reapStaleExecutors now graceSecs lastSeenAt =>
      some (system.write (Repo.reapStaleExecutors now graceSecs lastSeenAt))
  | .cancelQueuedOnFinishedCards now finished =>
      some (system.write (Repo.cancelQueuedOnFinishedCards now finished))
  | .cancelStarvedQueued now starveSecs =>
      some (system.write (Repo.cancelStarvedQueued now starveSecs))
  | .setQueuedReason now reason kind =>
      some (system.write (Repo.setQueuedReason now reason kind))
  | .setBuildOutcome now outcome =>
      some (system.write (Repo.setBuildOutcome now outcome))
  | .setReviewVerdict now verdict =>
      some (system.write (Repo.setReviewVerdict now verdict))
  | .appendTranscript now => some { system with lastEntryAt := some now }

/-- A write of the state is lawful when it follows an edge of the graph or
leaves the state alone; a finished row in particular keeps its state. -/
def LawfulMove (source target : JobState) : Prop :=
  (target = source ∨ legalTransition source target = true) ∧
  (isTerminal source = true → target = source)

instance (source target : JobState) : Decidable (LawfulMove source target) :=
  inferInstanceAs (Decidable ((_ ∨ _) ∧ (_ → _)))

/-- A step of a party is lawful when its write of the row is. -/
def Lawful (before : Lifecycle) (_ : LifecycleStep) (after : Lifecycle) : Prop :=
  LawfulMove before.row.state after.row.state

instance (before : Lifecycle) (label : LifecycleStep) (after : Lifecycle) :
    Decidable (Lawful before label after) :=
  inferInstanceAs (Decidable (LawfulMove _ _))

/-- A row has been overtaken, for a call about to set `target`, when it has
meanwhile ended in another state.  A call that claims is overtaken already by
a row that has moved on from its placement. -/
def overtaken (target current : JobState) : Bool :=
  match target with
  | .claimed => current ≠ .queued && current ≠ .claimed
  | _ => isTerminal current && current ≠ target

/-- The condition on one step, read off the state before it: the UPDATE of a
`transition` call does not land on an overtaken row, and the stall scan does
not end a row that is still `claimed` for having recorded a conclusion. -/
def NotOvertaken (before : Lifecycle) (label : LifecycleStep)
    (_ : Lifecycle) : Prop :=
  match label with
  | .update call _ =>
      ∀ checked ∈ before.inFlight[call]?,
        overtaken checked.target before.row.state = false
  | .endStalledJob candidate now stallSecs =>
      ∀ stalled ∈ before.candidates[candidate]?,
        stalled.recordedOutcome.isSome →
        Repo.endStalledJob now stallSecs before.lastEntryAt stalled before.row
          ≠ none →
        before.row.state ≠ .claimed
  | _ => True

instance : ∀ (before : Lifecycle) (label : LifecycleStep) (after : Lifecycle),
    Decidable (NotOvertaken before label after)
  | before, .update call _, _ =>
      inferInstanceAs (Decidable (∀ checked ∈ before.inFlight[call]?,
        overtaken checked.target before.row.state = false))
  | before, .endStalledJob candidate now stallSecs, _ =>
      inferInstanceAs (Decidable (∀ stalled ∈ before.candidates[candidate]?,
        stalled.recordedOutcome.isSome →
        Repo.endStalledJob now stallSecs before.lastEntryAt stalled before.row
          ≠ none →
        before.row.state ≠ .claimed))
  | _, .load _, _ | _, .claimForExecutor _ _, _ | _, .stalledCandidates _ _, _
  | _, .reapStaleExecutors _ _ _, _ | _, .cancelQueuedOnFinishedCards _ _, _
  | _, .cancelStarvedQueued _ _, _ | _, .setQueuedReason _ _ _, _
  | _, .setBuildOutcome _ _, _ | _, .setReviewVerdict _ _, _
  | _, .appendTranscript _, _ => isTrue trivial

/-- How far a state is from `queued`: the graph has no edge that goes back. -/
def stage : JobState → Nat
  | .queued => 0
  | .claimed => 1
  | .running | .waitingOnHuman => 2
  | .completed | .failed | .canceled => 3

/-- Every edge of the graph goes forward or stays within a stage. -/
theorem stage_le_of_legalTransition {source target : JobState}
    (legal : legalTransition source target = true) :
    stage source ≤ stage target := by
  cases source <;> cases target <;> simp_all [legalTransition, stage, isTerminal]

theorem lawfulMove_refl (state : JobState) : LawfulMove state state :=
  ⟨.inl rfl, fun _ => rfl⟩

/-- An edge is a lawful write: no edge leaves a finished state. -/
theorem lawfulMove_of_legalTransition {source target : JobState}
    (legal : legalTransition source target = true) :
    LawfulMove source target := by
  refine ⟨.inr legal, ?_⟩
  intro finished
  rw [legalTransition_not_terminal legal] at finished
  contradiction

theorem stage_le_of_lawfulMove {source target : JobState}
    (lawful : LawfulMove source target) : stage source ≤ stage target := by
  rcases lawful.1 with same | legal
  · exact Nat.le_of_eq (congrArg stage same.symm)
  · exact stage_le_of_legalTransition legal

/-- The unguarded UPDATE of a checked call is lawful exactly when the row has
not been overtaken, provided the row did not go back behind the state that the
check read. -/
theorem lawfulMove_target_iff (call : CheckedTransition) {current : JobState}
    (forward : stage call.loaded ≤ stage current) :
    LawfulMove current call.target ↔
      overtaken call.target current = false := by
  obtain ⟨loaded, target, moves, legal⟩ := call
  simp only at forward ⊢
  cases loaded <;> cases target <;> simp_all [legalTransition, isTerminal] <;>
    cases current <;>
      simp_all [LawfulMove, overtaken, legalTransition, isTerminal, stage]

/-- A guarded UPDATE that matched nothing wrote nothing. -/
theorem write_row {property : LoopJob → Prop} {system : Lifecycle}
    {update : LoopJob → Option LoopJob} (unmatched : property system.row)
    (matched : ∀ row, update system.row = some row → property row) :
    property (system.write update).row := by
  cases written : update system.row with
  | none =>
      simp only [Lifecycle.write, written, Option.getD_none]
      exact unmatched
  | some row =>
      simp only [Lifecycle.write, written, Option.getD_some]
      exact matched row written

/-- A guarded UPDATE is lawful when its matches are. -/
theorem lawful_write {system : Lifecycle} {update : LoopJob → Option LoopJob}
    (moves : ∀ row, update system.row = some row → LawfulMove system.row.state row.state) :
    LawfulMove system.row.state (system.write update).row.state :=
  write_row (lawfulMove_refl _) moves

variable {job row : LoopJob}

/-- Every guarded UPDATE other than the stall scan's names, in its WHERE
clause, only states with an edge to the one it sets. -/
theorem claimForExecutor_lawful {now : Instant} {node : NodeId}
    (written : Repo.claimForExecutor now node job = some row) :
    LawfulMove job.state row.state := by
  simp only [Repo.claimForExecutor, Option.ite_none_right_eq_some,
    Option.some.injEq] at written
  obtain ⟨queued, rfl⟩ := written
  exact lawfulMove_of_legalTransition (by rw [queued]; rfl)

theorem claimEnding_lawful {now : Instant} {guard : LoopJob → Bool}
    (written : Repo.claimEnding now guard job = some row) :
    LawfulMove job.state row.state := by
  simp only [Repo.claimEnding, Option.ite_none_right_eq_some,
    Option.some.injEq] at written
  obtain ⟨⟨queued, _⟩, rfl⟩ := written
  exact lawfulMove_of_legalTransition (by rw [queued]; rfl)

theorem reapStaleExecutors_lawful {now : Instant} {graceSecs : Int}
    {lastSeenAt : NodeId → Option Instant}
    (written : Repo.reapStaleExecutors now graceSecs lastSeenAt job = some row) :
    LawfulMove job.state row.state := by
  unfold Repo.reapStaleExecutors at written
  cases seen : job.executorNodeId.bind lastSeenAt with
  | none => simp [seen] at written
  | some instant =>
      simp only [seen, Option.ite_none_right_eq_some, Option.some.injEq,
        List.mem_cons, List.not_mem_nil, or_false] at written
      obtain ⟨⟨claimed | running, _⟩, rfl⟩ := written
      · exact lawfulMove_of_legalTransition (by rw [claimed]; rfl)
      · exact lawfulMove_of_legalTransition (by rw [running]; rfl)

/-- The UPDATEs that do not name the column leave the state alone. -/
theorem setQueuedReason_state {now : Instant} {reason : String} {kind : Option QueuedReason}
    (written : Repo.setQueuedReason now reason kind job = some row) :
    row.state = job.state := by
  simp only [Repo.setQueuedReason, Option.ite_none_right_eq_some,
    Option.some.injEq] at written
  rw [← written.2]

theorem setBuildOutcome_state {now : Instant} {outcome : BuildOutcome}
    (written : Repo.setBuildOutcome now outcome job = some row) :
    row.state = job.state := by
  simp only [Repo.setBuildOutcome, Option.ite_none_right_eq_some,
    Option.some.injEq] at written
  rw [← written.2]

theorem setReviewVerdict_state {now : Instant} {verdict : ReviewVerdict}
    (written : Repo.setReviewVerdict now verdict job = some row) :
    row.state = job.state := by
  simp only [Repo.setReviewVerdict, Option.ite_none_right_eq_some,
    Option.some.injEq] at written
  rw [← written.2]

/-- The stall scan's UPDATE is lawful except where it completes a row that is
still `claimed`: the graph has no such edge. -/
theorem endStalledJob_lawful_iff {now : Instant} {stallSecs : Int} {lastEntryAt : Option Instant}
    {stalled : StalledJob}
    (written : Repo.endStalledJob now stallSecs lastEntryAt stalled job = some row) :
    LawfulMove job.state row.state ↔
      (stalled.recordedOutcome.isSome → job.state ≠ .claimed) := by
  simp only [Repo.endStalledJob, Option.ite_none_right_eq_some,
    Option.some.injEq, List.mem_cons, List.not_mem_nil, or_false] at written
  obtain ⟨⟨claimed | running, _⟩, rfl⟩ := written
  · cases recorded : stalled.recordedOutcome.isSome <;>
      simp [Repo.stalledEnding, recorded, claimed, LawfulMove, legalTransition,
        isTerminal]
  · cases recorded : stalled.recordedOutcome.isSome <;>
      simp [Repo.stalledEnding, recorded, running, LawfulMove, legalTransition,
        isTerminal]

/-- The repository's guarded UPDATEs of a job row, other than the claim, with
what each reads. -/
inductive RowWrite where
  | reapStaleExecutors (now : Instant) (graceSecs : Int)
      (lastSeenAt : NodeId → Option Instant)
  | endStalledJob (now : Instant) (stallSecs : Int)
      (lastEntryAt : Option Instant) (candidate : StalledJob)
  | cancelQueuedOnFinishedCards (now : Instant) (finished : TaskId → Bool)
  | cancelStarvedQueued (now : Instant) (starveSecs : Int)
  | setQueuedReason (now : Instant) (reason : String)
      (kind : Option QueuedReason)
  | setBuildOutcome (now : Instant) (outcome : BuildOutcome)
  | setReviewVerdict (now : Instant) (verdict : ReviewVerdict)

/-- The row an UPDATE leaves, where its guard matches. -/
def RowWrite.update : RowWrite → LoopJob → Option LoopJob
  | .reapStaleExecutors now graceSecs lastSeenAt =>
      Repo.reapStaleExecutors now graceSecs lastSeenAt
  | .endStalledJob now stallSecs lastEntryAt candidate =>
      Repo.endStalledJob now stallSecs lastEntryAt candidate
  | .cancelQueuedOnFinishedCards now finished =>
      Repo.cancelQueuedOnFinishedCards now finished
  | .cancelStarvedQueued now starveSecs => Repo.cancelStarvedQueued now starveSecs
  | .setQueuedReason now reason kind => Repo.setQueuedReason now reason kind
  | .setBuildOutcome now outcome => Repo.setBuildOutcome now outcome
  | .setReviewVerdict now verdict => Repo.setReviewVerdict now verdict

/-- A guarded UPDATE leaves the state alone or ends the job. -/
theorem RowWrite.state_cases {write : RowWrite} (written : write.update job = some row) :
    row.state = job.state ∨ isTerminal row.state = true := by
  cases write with
  | reapStaleExecutors now graceSecs lastSeenAt =>
      right
      unfold RowWrite.update Repo.reapStaleExecutors at written
      dsimp only at written
      split at written
      · contradiction
      · rw [Option.ite_none_right_eq_some] at written
        rw [← Option.some.inj written.2]
        rfl
  | endStalledJob now stallSecs lastEntryAt candidate =>
      right
      rw [RowWrite.update, Repo.endStalledJob,
        Option.ite_none_right_eq_some] at written
      rw [← Option.some.inj written.2]
      unfold Repo.stalledEnding
      dsimp only
      split <;> rfl
  | cancelQueuedOnFinishedCards now finished =>
      right
      rw [RowWrite.update, Repo.cancelQueuedOnFinishedCards, Repo.claimEnding,
        Option.ite_none_right_eq_some] at written
      rw [← Option.some.inj written.2]
      rfl
  | cancelStarvedQueued now starveSecs =>
      right
      rw [RowWrite.update, Repo.cancelStarvedQueued, Repo.claimEnding,
        Option.ite_none_right_eq_some] at written
      rw [← Option.some.inj written.2]
      rfl
  | setQueuedReason now reason kind => exact .inl (setQueuedReason_state written)
  | setBuildOutcome now outcome => exact .inl (setBuildOutcome_state written)
  | setReviewVerdict now verdict => exact .inl (setReviewVerdict_state written)

/-- A guarded UPDATE never moves a job to another node. -/
theorem RowWrite.executorNodeId_eq {write : RowWrite} (written : write.update job = some row) :
    row.id = job.id ∧ row.executorNodeId = job.executorNodeId := by
  cases write with
  | reapStaleExecutors now graceSecs lastSeenAt =>
      unfold RowWrite.update Repo.reapStaleExecutors at written
      dsimp only at written
      split at written
      · contradiction
      · rw [Option.ite_none_right_eq_some] at written
        rw [← Option.some.inj written.2]
        exact ⟨rfl, rfl⟩
  | _ =>
      simp only [RowWrite.update, Repo.endStalledJob,
        Repo.cancelQueuedOnFinishedCards, Repo.cancelStarvedQueued,
        Repo.claimEnding, Repo.setQueuedReason, Repo.setBuildOutcome,
        Repo.setReviewVerdict, Option.ite_none_right_eq_some,
        Option.some.injEq] at written
      rw [← written.2]
      exact ⟨rfl, rfl⟩

/-- What a run keeps: no call in flight read a state the row has since gone
back behind. -/
def ForwardOfChecks (system : Lifecycle) : Prop :=
  ∀ call ∈ system.inFlight, stage call.loaded ≤ stage system.row.state

/-- The check reads the row and writes nothing. -/
theorem load_row (system : Lifecycle) (target : JobState) :
    (system.load target).row = system.row := by
  unfold Lifecycle.load
  cases checkTransition system.row target <;> rfl

/-- A call the check lets through carries the state the check read. -/
theorem loaded_of_mem_load {system : Lifecycle} {target : JobState}
    {call : CheckedTransition} (inFlight : call ∈ (system.load target).inFlight) :
    call ∈ system.inFlight ∨ call.loaded = system.row.state := by
  unfold Lifecycle.load at inFlight
  cases checked : checkTransition system.row target with
  | unchanged | illegal => simp_all
  | proceed passed =>
      simp only [checked, List.mem_append, List.mem_singleton] at inFlight
      rcases inFlight with earlier | rfl
      · exact .inl earlier
      · right
        unfold checkTransition at checked
        split at checked
        · contradiction
        · split at checked
          · cases checked
            rfl
          · contradiction

variable {before after : Lifecycle}

/-- A lawful write keeps the row forward of every check. -/
theorem forwardOfChecks_of_lawful {label : LifecycleStep} (forward : ForwardOfChecks before)
    (taken : Lifecycle.step before label = some after)
    (lawful : Lawful before label after) : ForwardOfChecks after := by
  have onward := stage_le_of_lawfulMove lawful
  intro call inFlight
  cases label with
  | load target =>
      simp only [Lifecycle.step, Option.some.injEq] at taken
      subst taken
      rcases loaded_of_mem_load inFlight with earlier | now
      · exact Nat.le_trans (forward call earlier) onward
      · rw [now]
        exact onward
  | update index now =>
      simp only [Lifecycle.step, Option.map_eq_some_iff] at taken
      obtain ⟨checked, _, rfl⟩ := taken
      exact Nat.le_trans
        (forward call (List.mem_of_mem_eraseIdx inFlight)) onward
  | endStalledJob candidate now stallSecs =>
      simp only [Lifecycle.step, Option.map_eq_some_iff] at taken
      obtain ⟨stalled, _, rfl⟩ := taken
      exact Nat.le_trans (forward call inFlight) onward
  | _ =>
      simp only [Lifecycle.step, Option.some.injEq] at taken
      subst taken
      exact Nat.le_trans (forward call inFlight) onward

/-- Every write other than a checked call's UPDATE and the stall scan's is
lawful, whatever else is in flight. -/
theorem lawful_of_guarded {label : LifecycleStep}
    (guarded : match label with | .update .. | .endStalledJob .. => False | _ => True)
    (taken : Lifecycle.step before label = some after) :
    Lawful before label after := by
  cases label with
  | update | endStalledJob => exact guarded.elim
  | load target =>
      cases taken
      rw [Lawful, load_row]
      exact lawfulMove_refl _
  | claimForExecutor now node =>
      cases taken
      exact lawful_write fun _ => claimForExecutor_lawful
  | reapStaleExecutors now graceSecs lastSeenAt =>
      cases taken
      exact lawful_write fun _ => reapStaleExecutors_lawful
  | cancelQueuedOnFinishedCards | cancelStarvedQueued =>
      cases taken
      exact lawful_write fun _ => claimEnding_lawful
  | setQueuedReason now reason kind =>
      cases taken
      refine lawful_write fun row written => ?_
      rw [setQueuedReason_state written]
      exact lawfulMove_refl _
  | setBuildOutcome now outcome =>
      cases taken
      refine lawful_write fun row written => ?_
      rw [setBuildOutcome_state written]
      exact lawfulMove_refl _
  | setReviewVerdict now verdict =>
      cases taken
      refine lawful_write fun row written => ?_
      rw [setReviewVerdict_state written]
      exact lawfulMove_refl _
  | stalledCandidates | appendTranscript =>
      cases taken
      exact lawfulMove_refl _

/-- A step is lawful exactly when it meets the condition. -/
theorem lawful_iff_notOvertaken {label : LifecycleStep} (forward : ForwardOfChecks before)
    (taken : Lifecycle.step before label = some after) :
    Lawful before label after ↔ NotOvertaken before label after := by
  cases label with
  | update index now =>
      simp only [Lifecycle.step, Option.map_eq_some_iff] at taken
      obtain ⟨checked, inFlight, rfl⟩ := taken
      have called := forward checked (List.mem_of_getElem? inFlight)
      simp only [Lawful, NotOvertaken, inFlight, Option.mem_some_iff,
        forall_eq', Repo.transition]
      exact lawfulMove_target_iff checked called
  | endStalledJob candidate now stallSecs =>
      simp only [Lifecycle.step, Option.map_eq_some_iff] at taken
      obtain ⟨stalled, read, rfl⟩ := taken
      simp only [Lawful, NotOvertaken, read, Option.mem_some_iff, forall_eq',
        Lifecycle.write]
      cases written : Repo.endStalledJob now stallSecs before.lastEntryAt
          stalled before.row with
      | none => simp [lawfulMove_refl]
      | some row => simpa using endStalledJob_lawful_iff written
  | _ => exact iff_of_true (lawful_of_guarded trivial taken) trivial

/-- Every committed write of a run is lawful exactly when no step of the run
lands on an overtaken row. -/
theorem lifecycle_lawful_iff (start : Lifecycle) (quiescent : start.Quiescent)
    (steps : List LifecycleStep) :
    Along Lifecycle.step Lawful start steps ↔
      Along Lifecycle.step NotOvertaken start steps := by
  have initial : ForwardOfChecks start := by
    intro call inFlight
    rw [quiescent.1] at inFlight
    contradiction
  exact along_iff_of_invariant ForwardOfChecks
    (fun _ _ _ => forwardOfChecks_of_lawful)
    (fun _ _ _ => lawful_iff_notOvertaken) initial

/-- The columns that no writer of a row touches once it is inserted, with the
others blanked. -/
def LoopJob.fixed (row : LoopJob) : LoopJob :=
  { row with
    state := .queued
    executorNodeId := none
    queuedReason := none
    queuedReasonKind := none
    reviewVerdict := none
    buildOutcome := none
    updatedAt := 0 }

/-- The clock reading of an UPDATE. -/
def RowWrite.now : RowWrite → Instant
  | .reapStaleExecutors now _ _
  | .endStalledJob now _ _ _
  | .cancelQueuedOnFinishedCards now _
  | .cancelStarvedQueued now _
  | .setQueuedReason now _ _
  | .setBuildOutcome now _
  | .setReviewVerdict now _ => now

/-- A guarded UPDATE matches a live job only, stamps it, and leaves its fixed
columns and a recorded outcome alone. -/
theorem RowWrite.update_spec {write : RowWrite} (written : write.update job = some row) :
    isTerminal job.state = false ∧ row.updatedAt = write.now ∧
      row.fixed = job.fixed ∧
      (job.buildOutcome.isSome = true → row.buildOutcome = job.buildOutcome) := by
  cases write with
  | reapStaleExecutors now graceSecs lastSeenAt =>
      unfold RowWrite.update Repo.reapStaleExecutors at written
      dsimp only at written
      split at written
      · contradiction
      · rw [Option.ite_none_right_eq_some] at written
        obtain ⟨⟨live, _⟩, result⟩ := written
        rw [← Option.some.inj result]
        refine ⟨?_, rfl, rfl, fun _ => rfl⟩
        simp only [List.mem_cons, List.not_mem_nil, or_false] at live
        rcases live with state | state <;> rw [state] <;> rfl
  | _ =>
      simp only [RowWrite.update, Repo.endStalledJob,
        Repo.cancelQueuedOnFinishedCards, Repo.cancelStarvedQueued,
        Repo.claimEnding, Repo.setQueuedReason, Repo.setBuildOutcome,
        Repo.setReviewVerdict, Option.ite_none_right_eq_some,
        Option.some.injEq] at written
      obtain ⟨guard, result⟩ := written
      rw [← result]
      simp only [RowWrite.now, LoopJob.fixed, true_and]
      refine ⟨?_, ?_⟩
      · cases state : job.state <;> simp_all [isTerminal]
      · intro recorded
        first
        | rfl
        | simp_all

/-- Nor does it move a job to another tenant. -/
theorem RowWrite.tenantId_eq {write : RowWrite}
    (written : write.update job = some row) : row.tenantId = job.tenantId := by
  have same := congrArg LoopJob.tenantId (RowWrite.update_spec written).2.2.1
  exact same

/-- The label is the UPDATE that records a review's verdict. -/
def LifecycleStep.recordsVerdict : LifecycleStep → Bool
  | .setReviewVerdict _ _ => true
  | _ => false

/-- No step touches a fixed column, and one step alone the verdict. -/
theorem step_frame {label : LifecycleStep} (taken : Lifecycle.step before label = some after) :
    after.row.fixed = before.row.fixed ∧
      (label.recordsVerdict = false →
        after.row.reviewVerdict = before.row.reviewVerdict) := by
  let Kept (row : LoopJob) : Prop :=
    row.fixed = before.row.fixed ∧
      (label.recordsVerdict = false →
        row.reviewVerdict = before.row.reviewVerdict)
  have same : Kept before.row := ⟨rfl, fun _ => rfl⟩
  change Kept after.row
  cases label with
  | load target =>
      cases taken
      rw [load_row]
      exact same
  | update index now =>
      simp only [Lifecycle.step, Option.map_eq_some_iff] at taken
      obtain ⟨checked, _, rfl⟩ := taken
      exact same
  | endStalledJob candidate now stallSecs =>
      simp only [Lifecycle.step, Option.map_eq_some_iff] at taken
      obtain ⟨stalled, _, rfl⟩ := taken
      refine write_row same fun row written => ?_
      simp only [Repo.endStalledJob, Option.ite_none_right_eq_some,
        Option.some.injEq] at written
      rw [← written.2]
      exact same
  | claimForExecutor now node =>
      cases taken
      refine write_row same fun row written => ?_
      simp only [Repo.claimForExecutor, Option.ite_none_right_eq_some,
        Option.some.injEq] at written
      rw [← written.2]
      exact same
  | reapStaleExecutors now graceSecs lastSeenAt =>
      cases taken
      refine write_row same fun row written => ?_
      unfold Repo.reapStaleExecutors at written
      split at written
      · contradiction
      · cases (Option.ite_none_right_eq_some.mp written).2
        exact same
  | cancelQueuedOnFinishedCards now finished =>
      cases taken
      refine write_row same fun row written => ?_
      simp only [Repo.cancelQueuedOnFinishedCards, Repo.claimEnding,
        Option.ite_none_right_eq_some, Option.some.injEq] at written
      rw [← written.2]
      exact same
  | cancelStarvedQueued now starveSecs =>
      cases taken
      refine write_row same fun row written => ?_
      simp only [Repo.cancelStarvedQueued, Repo.claimEnding,
        Option.ite_none_right_eq_some, Option.some.injEq] at written
      rw [← written.2]
      exact same
  | setQueuedReason now reason kind =>
      cases taken
      refine write_row same fun row written => ?_
      simp only [Repo.setQueuedReason, Option.ite_none_right_eq_some,
        Option.some.injEq] at written
      rw [← written.2]
      exact same
  | setBuildOutcome now outcome =>
      cases taken
      refine write_row same fun row written => ?_
      simp only [Repo.setBuildOutcome, Option.ite_none_right_eq_some,
        Option.some.injEq] at written
      rw [← written.2]
      exact same
  | setReviewVerdict now verdict =>
      cases taken
      refine write_row same fun row written => ?_
      simp only [Repo.setReviewVerdict, Option.ite_none_right_eq_some,
        Option.some.injEq] at written
      rw [← written.2]
      exact ⟨rfl, fun other => by simp [LifecycleStep.recordsVerdict] at other⟩
  | stalledCandidates | appendTranscript =>
      cases taken
      exact same

/-- No step takes a recorded verdict back. -/
theorem step_keeps_verdict {label : LifecycleStep}
    (taken : Lifecycle.step before label = some after)
    (recorded : before.row.reviewVerdict ≠ none) :
    after.row.reviewVerdict ≠ none := by
  cases records : label.recordsVerdict with
  | false =>
      rw [(step_frame taken).2 records]
      exact recorded
  | true =>
      cases label with
      | setReviewVerdict now verdict =>
          cases taken
          simp only [Lifecycle.write]
          cases written : Repo.setReviewVerdict now verdict before.row with
          | none => exact recorded
          | some row =>
              simp only [Repo.setReviewVerdict, Option.ite_none_right_eq_some,
                Option.some.injEq] at written
              rw [Option.getD_some, ← written.2]
              simp
      | _ => contradiction

/-- A guarded UPDATE that matched nothing leaves the system as it was. -/
theorem write_of_unmatched {system : Lifecycle}
    {update : LoopJob → Option LoopJob} (unmatched : update system.row = none) :
    system.write update = system := by
  simp only [Lifecycle.write, unmatched, Option.getD_none]

/-- Nobody writes a row that was finished before any call read it: every check
refuses it and every guard excludes it. -/
theorem step_of_finished {label : LifecycleStep} (finished : isTerminal before.row.state = true)
    (quiescent : before.Quiescent) (taken : Lifecycle.step before label = some after) :
    after.row = before.row ∧ after.Quiescent := by
  have notQueued : before.row.state ≠ .queued := by
    intro state
    simp [state, isTerminal] at finished
  have notWorking : before.row.state ∉ [.claimed, .running] := by
    intro state
    simp only [List.mem_cons, List.not_mem_nil, or_false] at state
    rcases state with state | state <;> simp [state, isTerminal] at finished
  have notHeld : before.row.state ∉ [.claimed, .running, .waitingOnHuman] := by
    intro state
    simp only [List.mem_cons, List.not_mem_nil, or_false] at state
    rcases state with state | state | state <;>
      simp [state, isTerminal] at finished
  have untouched : ∀ {update : LoopJob → Option LoopJob},
      update before.row = none → some (before.write update) = some after →
        after.row = before.row ∧ after.Quiescent := by
    intro update unmatched written
    rw [write_of_unmatched unmatched] at written
    cases written
    exact ⟨rfl, quiescent⟩
  cases label with
  | load target =>
      cases taken
      have refused : before.load target = before := by
        unfold Lifecycle.load checkTransition
        by_cases same : before.row.state = target
        · simp [same]
        · have illegal : ¬ legalTransition before.row.state target = true := by
            intro legal
            rw [legalTransition_not_terminal legal] at finished
            contradiction
          simp [same, illegal]
      rw [refused]
      exact ⟨rfl, quiescent⟩
  | update index now =>
      simp [Lifecycle.step, quiescent.1] at taken
  | endStalledJob candidate now stallSecs =>
      simp [Lifecycle.step, quiescent.2] at taken
  | claimForExecutor now node =>
      exact untouched (by simp [Repo.claimForExecutor, notQueued]) taken
  | reapStaleExecutors now graceSecs lastSeenAt =>
      refine untouched ?_ taken
      unfold Repo.reapStaleExecutors
      split
      · rfl
      · exact if_neg fun guard => notWorking guard.1
  | cancelQueuedOnFinishedCards | cancelStarvedQueued | setQueuedReason =>
      exact untouched (if_neg fun guard => notQueued guard.1) taken
  | setBuildOutcome now outcome =>
      exact untouched (if_neg fun guard => notHeld guard.2.2) taken
  | setReviewVerdict now verdict =>
      exact untouched (if_neg fun guard => notHeld guard.2) taken
  | stalledCandidates now stallSecs =>
      cases taken
      have unread : Repo.stalledCandidates now stallSecs before.lastEntryAt
          before.row = none := if_neg fun guard => notWorking guard.1
      rw [unread]
      exact ⟨rfl, quiescent.1, by simp [quiescent.2]⟩
  | appendTranscript now =>
      cases taken
      exact ⟨rfl, quiescent⟩

/-- A row as a person's `build` request inserts it, with no call on it. -/
def Lifecycle.fresh : Lifecycle :=
  { row := Repo.create 0
      { id := 1, tenant := 1, kind := .build, targetTaskId := some 7
        workspaceId := some 3, requestedBy := 2, seed := none
        predecessorJobId := none, reviewPrNumber := none, reviewHeadSha := none
        reviewForced := false, buildFingerprint := none }
    lastEntryAt := none
    inFlight := []
    candidates := [] }

/-- A run is placed, asks a person, is answered, records its conclusion and is
ended by the stall scan: no step is overtaken, so every write is lawful. -/
theorem lifecycle_lawful_iff_placed :
    Along Lifecycle.step Lawful Lifecycle.fresh
      [.claimForExecutor 1 5, .load .running, .update 0 2,
        .load .waitingOnHuman, .update 0 3, .load .running, .update 0 4,
        .setBuildOutcome 5 .prOpened, .stalledCandidates 9000000 1,
        .endStalledJob 0 9000000 1] :=
  (lifecycle_lawful_iff Lifecycle.fresh ⟨rfl, rfl⟩ _).mpr (by decide)

/-- A cancel and an answer's resume both check a paused row; the cancel writes
first, and the resume's UPDATE puts the canceled row back to `running`. -/
theorem cancel_overtaken_by_resume :
    ¬ Along Lifecycle.step Lawful Lifecycle.fresh
      [.claimForExecutor 1 5, .load .running, .update 0 2,
        .load .waitingOnHuman, .update 0 3, .load .running, .load .canceled,
        .update 1 4, .update 0 5] := by
  decide

end NookOs.Jobs
