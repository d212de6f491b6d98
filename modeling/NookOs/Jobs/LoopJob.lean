/-
Module: NookOs.Jobs.LoopJob
Purpose: The `loop_jobs` row, its lifecycle graph, and every guarded UPDATE of
  the job repository as the function on one row that its SQL computes.
Trusted boundary: none
Main exports: LoopJob, NewLoopJob, JobState, legalTransition, Repo.create, Repo.transition
-/
import Mathlib.Tactic.Common

namespace NookOs.Jobs

/-!
Each repository write is one SQL statement, atomic on its row.  A guarded
UPDATE is a partial function on the row: `none` says that the WHERE clause did
not match and no row came back.  The statement's `now()` is an argument, as is
every other table the statement reads (a node's `last_seen_at`, the newest
transcript entry, the column a card sits in).
-/

/-- An instant in microseconds, the resolution of the database's clock. -/
abbrev Instant := Int

/-- A length of time in seconds as the interval arithmetic scales it. -/
def seconds (count : Int) : Int := count * 1000000

abbrev JobId := Nat
abbrev TenantId := Nat
abbrev TaskId := Nat
abbrev WorkspaceId := Nat
abbrev UserId := Nat
abbrev NodeId := Nat

/-- The kinds the `loop_jobs_kind_check` constraint admits. -/
inductive JobKind where
  | spec
  | decompose
  | epicRun
  | build
  | review
  | investigate
deriving DecidableEq

/-- The states the `loop_jobs_state_check` constraint admits. -/
inductive JobState where
  | queued
  | claimed
  | running
  | waitingOnHuman
  | completed
  | failed
  | canceled
deriving DecidableEq

/-- What a build run can conclude. -/
inductive BuildOutcome where
  | prOpened
  | blocked
  | nothingToDo
deriving DecidableEq

/-- What a review run can conclude. -/
inductive ReviewVerdict where
  | approved
  | changesRequested
  | needsHuman
  | skipped
deriving DecidableEq

/-- Who concluded a verdict, when it was not the run's own agent. -/
inductive VerdictSource where
  | conflict
  | queueEjection
  | human
deriving DecidableEq

/-- The typed half of a queued reason: the gate that refused placement. -/
inductive QueuedReason where
  | noPersonIdentity
  | pinnedNodeUnavailable (nodeName : String)
  | atCapacity
  | waitingOnHuman (nodeName : String) (paused : Nat)
  | noRoleLabel (label : String)
  | portsUnavailable (listener env : String)
  | sandboxUnavailable (nodeName detail : String)
  | diskUnavailable (nodeName detail : String)
  | kindWallRefusal (kind : JobKind)
deriving DecidableEq

/-- One row of `loop_jobs`. -/
structure LoopJob where
  id : JobId
  tenantId : TenantId
  kind : JobKind
  targetTaskId : Option TaskId
  workspaceId : Option WorkspaceId
  requestedBy : UserId
  state : JobState
  executorNodeId : Option NodeId
  predecessorJobId : Option JobId
  queuedReason : Option String
  queuedReasonKind : Option QueuedReason
  seed : Option String
  reviewPrNumber : Option Int
  reviewHeadSha : Option String
  reviewVerdict : Option ReviewVerdict
  reviewForced : Bool
  reviewVerdictSource : Option VerdictSource
  buildOutcome : Option BuildOutcome
  buildFingerprint : Option String
  createdAt : Instant
  updatedAt : Instant
deriving DecidableEq

/-- A finished job: its state has no outgoing transition. -/
def isTerminal : JobState → Bool
  | .completed | .failed | .canceled => true
  | _ => false

/-- The states that count as in flight for a work item. -/
def isLive : JobState → Bool
  | .queued | .claimed | .running | .waitingOnHuman => true
  | _ => false

/-- The legal lifecycle graph.  Cancelling is legal out of every live state. -/
def legalTransition (source target : JobState) : Bool :=
  if target = .canceled then !isTerminal source
  else
    match source, target with
    | .queued, .claimed
    | .claimed, .running
    | .claimed, .failed
    | .running, .waitingOnHuman
    | .running, .completed
    | .running, .failed
    | .waitingOnHuman, .running
    | .waitingOnHuman, .completed
    | .waitingOnHuman, .failed => true
    | _, _ => false

/-- The graph has no edge out of a terminal state. -/
theorem legalTransition_not_terminal {source target : JobState}
    (legal : legalTransition source target = true) :
    isTerminal source = false := by
  cases source <;> cases target <;> simp_all [legalTransition, isTerminal]

/-- A conclusion a run recorded, in the column of its kind. -/
inductive Conclusion where
  | build (outcome : BuildOutcome)
  | review (verdict : ReviewVerdict)
deriving DecidableEq

/-- The conclusion of a job in hand: the two kinds record theirs in different
columns, and every other kind has neither. -/
def recordedOutcome (job : LoopJob) : Option Conclusion :=
  match job.kind with
  | .build => job.buildOutcome.map .build
  | .review => job.reviewVerdict.map .review
  | _ => none

/-- A job to enqueue. -/
structure NewLoopJob where
  id : JobId
  tenant : TenantId
  kind : JobKind
  targetTaskId : Option TaskId
  workspaceId : Option WorkspaceId
  requestedBy : UserId
  seed : Option String
  predecessorJobId : Option JobId
  reviewPrNumber : Option Int
  reviewHeadSha : Option String
  reviewForced : Bool
  buildFingerprint : Option String
deriving DecidableEq

namespace Repo

/-- The row the INSERT writes: `queued`, and the table's defaults. -/
def create (now : Instant) (new : NewLoopJob) : LoopJob :=
  { id := new.id
    tenantId := new.tenant
    kind := new.kind
    targetTaskId := new.targetTaskId
    workspaceId := new.workspaceId
    requestedBy := new.requestedBy
    state := .queued
    executorNodeId := none
    predecessorJobId := new.predecessorJobId
    queuedReason := none
    queuedReasonKind := none
    seed := new.seed
    reviewPrNumber := new.reviewPrNumber
    reviewHeadSha := new.reviewHeadSha
    reviewVerdict := none
    reviewForced := new.reviewForced
    reviewVerdictSource := none
    buildOutcome := none
    buildFingerprint := new.buildFingerprint
    createdAt := now
    updatedAt := now }

/-- `recordedOutcome`'s SQL twin. -/
def concluded (job : LoopJob) : Bool :=
  (job.kind = .build && job.buildOutcome.isSome) ||
    (job.kind = .review && job.reviewVerdict.isSome)

/-- The two dialects of the one rule agree. -/
theorem concluded_eq_isSome_recordedOutcome (job : LoopJob) :
    concluded job = (recordedOutcome job).isSome := by
  cases kind : job.kind <;> simp [concluded, recordedOutcome, kind]

/-- The unguarded lifecycle UPDATE: `WHERE id = $1` and nothing else. -/
def transition (now : Instant) (target : JobState) (job : LoopJob) : LoopJob :=
  { job with state := target, updatedAt := now }

/-- Place a job on a node, but only from `queued`. -/
def claimForExecutor (now : Instant) (node : NodeId) (job : LoopJob) :
    Option LoopJob :=
  if job.state = .queued then
    some
      { job with
        executorNodeId := some node
        state := .claimed
        queuedReason := none
        queuedReasonKind := none
        updatedAt := now }
  else none

/-- Explain why a job is still queued, when the sentence is new. -/
def setQueuedReason (now : Instant) (reason : String)
    (kind : Option QueuedReason) (job : LoopJob) : Option LoopJob :=
  if job.state = .queued ∧ job.queuedReason ≠ some reason then
    some
      { job with
        queuedReason := some reason
        queuedReasonKind := kind
        updatedAt := now }
  else none

/-- Record what a live build run concluded, once. -/
def setBuildOutcome (now : Instant) (outcome : BuildOutcome) (job : LoopJob) :
    Option LoopJob :=
  if job.kind = .build ∧ job.buildOutcome = none ∧
      job.state ∈ [.claimed, .running, .waitingOnHuman] then
    some { job with buildOutcome := some outcome, updatedAt := now }
  else none

/-- Record what a live review run concluded. -/
def setReviewVerdict (now : Instant) (verdict : ReviewVerdict) (job : LoopJob) :
    Option LoopJob :=
  if job.kind = .review ∧ job.state ∈ [.claimed, .running, .waitingOnHuman] then
    some { job with reviewVerdict := some verdict, updatedAt := now }
  else none

/-- Fail a job whose executor stopped reporting more than `graceSecs` ago.
`lastSeenAt` is the join on `nodes`. -/
def reapStaleExecutors (now : Instant) (graceSecs : Int)
    (lastSeenAt : NodeId → Option Instant) (job : LoopJob) : Option LoopJob :=
  match job.executorNodeId.bind lastSeenAt with
  | none => none
  | some seen =>
      if job.state ∈ [.claimed, .running] ∧ seen < now - seconds graceSecs then
        some { job with state := .failed, updatedAt := now }
      else none

/-- The silence test both halves of the stall scan share.  `lastEntryAt` is the
newest transcript entry of the job. -/
def silent (now : Instant) (stallSecs : Int) (lastEntryAt : Option Instant)
    (job : LoopJob) : Bool :=
  job.updatedAt < now - seconds stallSecs &&
    lastEntryAt.getD job.updatedAt < now - seconds stallSecs

end Repo

/-- A job the stall scan read as orphaned, with the conclusion it had then. -/
structure StalledJob where
  id : JobId
  tenant : TenantId
  targetTaskId : Option TaskId
  lastProgressAt : Instant
  recordedOutcome : Option Conclusion
deriving DecidableEq

namespace Repo

/-- The stall scan's read of one row. -/
def stalledCandidates (now : Instant) (stallSecs : Int)
    (lastEntryAt : Option Instant) (job : LoopJob) : Option StalledJob :=
  if job.state ∈ [.claimed, .running] ∧ silent now stallSecs lastEntryAt job then
    some
      { id := job.id
        tenant := job.tenantId
        targetTaskId := job.targetTaskId
        lastProgressAt := max (lastEntryAt.getD job.updatedAt) job.updatedAt
        recordedOutcome :=
          if concluded job then
            (job.buildOutcome.map .build).or (job.reviewVerdict.map .review)
          else none }
  else none

/-- The state a stall candidate is ended in. -/
def stalledEnding (candidate : StalledJob) : JobState :=
  if candidate.recordedOutcome.isSome then .completed else .failed

/-- End one candidate, re-asserting both the silence and the half of the
conclusion test that chose its ending. -/
def endStalledJob (now : Instant) (stallSecs : Int)
    (lastEntryAt : Option Instant) (candidate : StalledJob) (job : LoopJob) :
    Option LoopJob :=
  if job.state ∈ [.claimed, .running] ∧ silent now stallSecs lastEntryAt job ∧
      concluded job = candidate.recordedOutcome.isSome then
    some { job with state := stalledEnding candidate, updatedAt := now }
  else none

/-- Cancel one queued row, re-asserting the predicate that made it a
candidate. -/
def claimEnding (now : Instant) (guard : LoopJob → Bool) (job : LoopJob) :
    Option LoopJob :=
  if job.state = .queued ∧ guard job then
    some { job with state := .canceled, updatedAt := now }
  else none

/-- Cancel a queued job whose card sits in a terminal column. -/
def cancelQueuedOnFinishedCards (now : Instant) (finished : TaskId → Bool) :
    LoopJob → Option LoopJob :=
  claimEnding now fun job => job.targetTaskId.any finished

/-- Cancel a queued job whose reason has stood unchanged for too long. -/
def cancelStarvedQueued (now : Instant) (starveSecs : Int) :
    LoopJob → Option LoopJob :=
  claimEnding now fun job =>
    job.queuedReason.isSome && job.updatedAt < now - seconds starveSecs

end Repo

end NookOs.Jobs
