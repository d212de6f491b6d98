/-
Module: NookOs.Tasks.BuildLadder
Purpose: The failure ladder of a card's build runs: the handback of a run that
  concluded nothing, the climb that follows a failure, and what the hook of one
  ending announces.
Trusted boundary: none
Main exports: CardComment, Ladder, Ladder.climb, Ladder.climb_spec, Ladder.onRunConcluded_spec
-/
import NookOs.Jobs.Endings
import NookOs.Jobs.RunHeads
import NookOs.Tasks.Leases

namespace NookOs.Tasks

open Lib
open Jobs (Instant TenantId TaskId UserId NodeId JobId JobState LoopJob NewLoopJob
  RowWrite Card Board unansweredFailure isRepair isTerminal checkTransition
  conclusionFor clash)

/-!
The state is one card with what hangs off it, and the table of jobs.  The hook
of an ending runs before the next event of the card; each call it makes to the
repository may fail, which the event says.
-/

/-- `MAX_FAILURES`. -/
def maxFailures : Nat := 3

/-- `ESCALATION_LABEL`. -/
def escalationLabel : String := "needs-human-review"

/-- `REPAIR_LABEL`. -/
def repairLabel : String := "loop-changes-requested"

/-- `ESCALATION_LABELS`. -/
def escalationLabels : List String := ["blocked", "spec-blocked", "needs-human-review"]

section Texts

/-- The states by the names their column holds. -/
def stateName : JobState → String
  | .queued => "queued"
  | .claimed => "claimed"
  | .running => "running"
  | .waitingOnHuman => "waiting_on_human"
  | .completed => "completed"
  | .failed => "failed"
  | .canceled => "canceled"

/-- A comment on the card, by what was said: the three the loop posts, and
anybody else's. -/
inductive CardComment where
  | handedBack (run : JobId) (state : JobState) (attempt : Option Nat)
      (why : Option String)
  | brief (run : JobId) (failures : Nat) (why : Option String)
  | stopped (runs : List JobId) (why : Option String)
  | other (body : String)
deriving DecidableEq

def stopOf (failures : Nat) : String :=
  toString failures ++ " failures in a row"

/-- A block of quoted text. -/
def quoted (intro : String) (why : Option String) : String :=
  match why with
  | none => ""
  | some line => "\n\n" ++ intro ++ ":\n\n```\n" ++ line ++ "\n```"

/-- `body_md`. -/
def CardComment.body : CardComment → String
  | .handedBack run state attempt why =>
      "Build run " ++ toString run ++ " ended `" ++ stateName state ++
        "` with no outcome recorded — claim released, card back in To-Do" ++
      (match attempt with
        | some n => " (attempt " ++ toString n ++ " of " ++ toString maxFailures ++ ")."
        | none => ". A run that never ran does not count towards the stop.") ++
      (match why with
        | some line => "\n\nLast thing the run said: " ++ line
        | none => "")
  | .brief run failures why =>
      "Build run `" ++ toString run ++ "` failed. That is " ++ toString failures ++
        " in a row for this card, so the loop is asking for a repair pass rather than " ++
        "another attempt at the same thing.\n\n**The next run's brief is this failure.** " ++
        "Find out why the build did not complete before building the card's acceptance " ++
        "criteria again — the same attempt will fail the same way." ++
      quoted "Last transcript line" why ++
      "\n\nOne more failure and this card leaves the loop for a human (" ++
        stopOf maxFailures ++ ")."
  | .stopped runs why =>
      toString runs.length ++ " build runs for this card have failed in a row:\n\n" ++
        "\n".intercalate (runs.reverse.map fun run => "- `" ++ toString run ++ "`") ++
        "\n\nThe loop has stopped picking it up: it is labelled `" ++ escalationLabel ++
        "` and `" ++ repairLabel ++ "` has been removed. Nothing about this card will " ++
        "auto-fire again until a person removes `" ++ escalationLabel ++
        "`, which also starts the count over." ++
      quoted "Last transcript line of the last run" why ++
      "\n\nTo force one run without lifting the label, use `nook builds enqueue`."
  | .other body => body

/-- The comment that announces the stop. -/
def CardComment.isStop : CardComment → Bool
  | .stopped .. => true
  | _ => false

/-- A row of `notifications`. -/
structure Notification where
  level : String
  kind : String
  title : String
  body : String
deriving DecidableEq

/-- White space off both ends. -/
def trim (text : String) : String :=
  let front := text.toList.dropWhile Char.isWhitespace
  String.ofList (front.reverse.dropWhile Char.isWhitespace).reverse

/-- The last line of a transcript that says something. -/
def lastSaid (transcript : List String) : Option String :=
  (transcript.reverse.find? fun line => trim line ≠ "").map trim

/-- The ladder's `last_line`, of a transcript that may not have been read. -/
def lastLine (transcript : Option (List String)) : Option String :=
  (transcript.bind lastSaid).map fun last => String.ofList (last.toList.take 400)

/-- The handback's `last_failure_line`: nothing where the card has just been
told. -/
def lastFailureLine (transcript : Option (List String))
    (comments : List CardComment) : Option String :=
  (transcript.bind lastSaid).bind fun last =>
    if (comments.reverse.take 2).any (trim ·.body = last) then none
    else some (String.ofList (last.toList.take 400))

end Texts

/-- The repository calls of the hook that can fail. -/
inductive LadderCall where
  | load
  | releaseClaim
  | readCard
  | readColumns
  | moveCard
  | countAttempt
  | commentHandedBack
  | countRuns
  | attachEscalation
  | detachRepair
  | commentStopped
  | notify
  | attachRepair
  | commentBrief
deriving DecidableEq

/-- What the hook of an ending meets: the run's transcript, where it can be
read, and the calls that fail. -/
structure Hook where
  transcript : Option (List String)
  fails : LadderCall → Bool

/-- The card, its labels, its comments and the ladder's notifications, and the
jobs.  `stopsBefore` and `noticesBefore` are the stops and the notifications
there were when the streak last lost a run. -/
structure Ladder where
  clock : Instant
  jobs : List LoopJob
  card : TaskItem
  labels : List String
  comments : List CardComment
  notifications : List Notification
  stopsBefore : Nat
  noticesBefore : Nat
deriving DecidableEq

/-- An event of the card's history. -/
inductive LadderEvent where
  | enqueue (now : Instant) (new : NewLoopJob)
  | claimForExecutor (now : Instant) (id : JobId) (node : NodeId)
  | transition (now : Instant) (id : JobId) (target : JobState) (hook : Hook)
  | job (id : JobId) (write : RowWrite) (hook : Hook)
  | task (write : LeaseWrite)
  | attachLabel (name : String)
  | detachLabel (now : Instant) (name : String) (clearFails : Bool)
  | deleteLabel (name : String)
  | clearBuildLadder (now : Instant)
  | comment (body : String)

namespace Ladder

/-- What the queries of the jobs read of the card. -/
def board (ladder : Ladder) : Board := fun id =>
  if id = ladder.card.id then
    some
      { number := ladder.card.number.getD 0
        key := none
        title := ladder.card.title
        description := ladder.card.description
        workspaceId := ladder.card.workspaceId
        prUrl := ladder.card.prUrl
        unblockedAt := ladder.card.unblockedAt
        buildLadderClearedAt := ladder.card.buildLadderClearedAt }
  else none

/-- The rows `build_failure_streak` returns. -/
def isUnanswered (ladder : Ladder) (row : LoopJob) : Bool :=
  row.tenantId = ladder.card.tenantId && row.targetTaskId = some ladder.card.id &&
    unansweredFailure ladder.board ladder.jobs row

/-- `ORDER BY j.updated_at DESC, j.id DESC`. -/
def newerFirst (first second : LoopJob) : Prop :=
  second.updatedAt < first.updatedAt ∨
    (second.updatedAt = first.updatedAt ∧ second.id ≤ first.id)

instance : DecidableRel newerFirst := fun _ _ => inferInstanceAs (Decidable (_ ∨ _))

/-- `build_failure_streak`. -/
def buildFailureStreak (ladder : Ladder) : List JobId :=
  ((ladder.jobs.filter ladder.isUnanswered).insertionSort newerFirst).map (·.id)

/-- `ON CONFLICT DO NOTHING`. -/
def attachLabel (name : String) (ladder : Ladder) : Ladder :=
  if name ∈ ladder.labels then ladder
  else { ladder with labels := ladder.labels ++ [name] }

def detachLabel (name : String) (ladder : Ladder) : Ladder :=
  { ladder with labels := ladder.labels.filter (· ≠ name) }

def comment (said : CardComment) (ladder : Ladder) : Ladder :=
  { ladder with comments := ladder.comments ++ [said] }

def clearBuildLadder (now : Instant) (ladder : Ladder) : Ladder :=
  { ladder with card := Repo.clearBuildLadder now ladder.card }

section Hooks

-- the board's columns and its key, where it has one
variable (columns : List BoardColumn) (key : Option String)

/-- The card's display name. -/
def cardName (task : TaskItem) : String :=
  match task.number, key with
  | some number, some key => key ++ "-" ++ toString number
  | some number, none => "#" ++ toString number
  | none, _ => toString task.id

def notifyStopped (failures : Nat) (ladder : Ladder) : Ladder :=
  let raised :=
    { level := "warning"
      kind := "task.build_ladder"
      title := "Build loop gave up: " ++ cardName key ladder.card
      body := stopOf failures ++ " — the loop will not pick this card up again until `" ++
        escalationLabel ++ "` is removed." }
  { ladder with notifications := ladder.notifications ++ [raised] }

/-- The last rung: the label first, and said once, where the count is exactly
the stop. -/
def stop (hook : Hook) (runs : List JobId) (ladder : Ladder) : Ladder :=
  if hook.fails .attachEscalation then ladder
  else
    let labelled := ladder.attachLabel escalationLabel
    if hook.fails .detachRepair then labelled
    else
      let handed := labelled.detachLabel repairLabel
      if runs.length ≠ maxFailures then handed
      else if hook.fails .commentStopped then handed
      else
        let announced := handed.comment (.stopped runs (lastLine hook.transcript))
        if hook.fails .notify then announced
        else announced.notifyStopped key runs.length

/-- The second rung. -/
def askForRepair (hook : Hook) (job : LoopJob) (failures : Nat) (ladder : Ladder) :
    Ladder :=
  if hook.fails .attachRepair then ladder
  else
    let labelled := ladder.attachLabel repairLabel
    if hook.fails .commentBrief then labelled
    else labelled.comment (.brief job.id failures (lastLine hook.transcript))

/-- `on_run_failed`: climb the ladder, and say nothing of what it cannot do. -/
def climb (hook : Hook) (job : LoopJob) (ladder : Ladder) : Ladder :=
  if hook.fails .countRuns then ladder
  else
    let runs := ladder.buildFailureStreak
    if runs.length < 2 then ladder
    else if maxFailures ≤ runs.length then ladder.stop key hook runs
    else ladder.askForRepair hook job runs.length

/-- The claim released, where the requester holds the card under a lease. -/
def released (now : Instant) (job : LoopJob) (card : TaskItem) : Option TaskItem :=
  if card.tenantId = job.tenantId then Repo.releaseClaimOf now job.requestedBy card
  else none

/-- `give_card_back`: whether it gave the card back, which an error does not. -/
def giveCardBack (now : Instant) (hook : Hook) (job : LoopJob) (ladder : Ladder) :
    Ladder × Bool :=
  if hook.fails .releaseClaim then (ladder, false)
  else
    match released now job ladder.card with
    | none => (ladder, false)
    | some card =>
        let freed := { ladder with card }
        if hook.fails .readCard || hook.fails .readColumns then (freed, false)
        else
          match columnOfType columns card.boardId .unstarted with
          | none => (freed, false)
          | some todo =>
              if hook.fails .moveCard then (freed, false)
              else
                match Repo.updateFields now { columnId := some todo } card with
                | none => (freed, false)
                | some card => ({ ladder with card }, true)

/-- The handback's comment, with the count where the run was an attempt. -/
def tellHandedBack (hook : Hook) (job : LoopJob) (ladder : Ladder) : Ladder :=
  let attempt :=
    if job.state = .failed then some ladder.buildFailureStreak.length else none
  ladder.comment (.handedBack job.id job.state attempt
    (lastFailureLine hook.transcript ladder.comments))

/-- The rest of `hand_back`, once the card is back. -/
def concludeHandBack (hook : Hook) (job : LoopJob) (ladder : Ladder) : Ladder :=
  if job.state = .failed && hook.fails .countAttempt then ladder
  else if hook.fails .commentHandedBack then ladder
  else
    let told := ladder.tellHandedBack hook job
    if job.state = .failed then told.climb key hook job else told

def handBack (now : Instant) (hook : Hook) (job : LoopJob) (ladder : Ladder) : Ladder :=
  let (given, isBack) := ladder.giveCardBack columns now hook job
  if isBack then given.concludeHandBack key hook job else given

/-- `on_run_concluded`, as far as it is about this card. -/
def onRunConcluded (now : Instant) (hook : Hook) (job : LoopJob) (ladder : Ladder) :
    Ladder :=
  if job.kind ≠ .build || job.buildOutcome.isSome ||
      job.targetTaskId ≠ some ladder.card.id then ladder
  else if job.buildFingerprint.any isRepair then
    if job.state = .failed then ladder.climb key hook job else ladder
  else ladder.handBack columns key now hook job

end Hooks

end Ladder

namespace LadderEvent

/-- The clock reading of the statement that counts. -/
def now : LadderEvent → Option Instant
  | .enqueue now _
  | .claimForExecutor now _ _
  | .transition now _ _ _
  | .detachLabel now _ _
  | .clearBuildLadder now => some now
  | .job _ write _ => some write.now
  | _ => none

/-- The job row an event writes. -/
def written (jobs : List LoopJob) : LadderEvent → Option LoopJob
  | .claimForExecutor now id node =>
      (Table.find LoopJob.id jobs id).bind (Jobs.Repo.claimForExecutor now node)
  | .transition now id target _ =>
      (Table.find LoopJob.id jobs id).bind fun job =>
        match checkTransition job target with
        | .proceed _ => some (Jobs.Repo.transition now target job)
        | .unchanged | .illegal => none
  | .job id write _ => (Table.find LoopJob.id jobs id).bind write.update
  | _ => none

/-- The handback an event calls for: a transition into a terminal state, and the
two reapers once they have read the row back. -/
def hook : LadderEvent → Option Hook
  | .transition _ _ target hook => if isTerminal target then some hook else none
  | .job _ (.reapStaleExecutors ..) hook =>
      if hook.fails .load then none else some hook
  | .job _ (.endStalledJob _ _ _ candidate) hook =>
      if hook.fails .load || !(conclusionFor candidate.recordedOutcome).2 then none
      else some hook
  | _ => none

end LadderEvent

namespace Ladder

variable (columns : List BoardColumn) (key : Option String)

/-- The table with the row written over its own. -/
def writeRow (row : LoopJob) (ladder : Ladder) : Ladder :=
  { ladder with jobs := Table.update LoopJob.id row.id (fun _ => row) ladder.jobs }

/-- The handback, where there is one to run. -/
def conclude (hook : Option Hook) (row : LoopJob) (ladder : Ladder) : Ladder :=
  match hook with
  | none => ladder
  | some hook => ladder.onRunConcluded columns key row.updatedAt hook row

/-- The write of a job, and the handback where the event calls for one. -/
def writeJob (event : LadderEvent) (ladder : Ladder) : Ladder :=
  match event.written ladder.jobs with
  | none => ladder
  | some row => (ladder.writeRow row).conclude columns key event.hook row

/-- The event, apart from the clock and the history. -/
def apply (event : LadderEvent) (ladder : Ladder) : Ladder :=
  match event with
  | .enqueue now new =>
      let row := Jobs.Repo.create now new
      -- the target is looked up in the tenant that asks
      if row.targetTaskId = some ladder.card.id ∧ row.tenantId ≠ ladder.card.tenantId then
        ladder
      else if ladder.jobs.any (fun other => other.id = row.id || clash row other) then
        ladder
      else { ladder with jobs := ladder.jobs ++ [row] }
  | .task write => { ladder with card := write.apply columns ladder.card }
  | .attachLabel name => ladder.attachLabel name
  | .detachLabel now name clearFails =>
      let lifted := ladder.detachLabel name
      if name ∈ ladder.labels && name ∈ escalationLabels && !clearFails then
        lifted.clearBuildLadder now
      else lifted
  | .deleteLabel name => ladder.detachLabel name
  | .clearBuildLadder now => ladder.clearBuildLadder now
  | .comment body => ladder.comment (.other body)
  | event => ladder.writeJob columns key event

def stops (ladder : Ladder) : Nat := ladder.comments.countP (·.isStop)

def notices (ladder : Ladder) : Nat := ladder.notifications.length

/-- The history of a step: a streak that lost a run is over. -/
def remember (before after : Ladder) : Ladder :=
  if before.buildFailureStreak.all (· ∈ after.buildFailureStreak) then after
  else
    { after with
      stopsBefore := before.stops
      noticesBefore := before.notices }

/-- One event, at a later instant than the one before. -/
def step (ladder : Ladder) (event : LadderEvent) : Option Ladder :=
  if event.now.all (ladder.clock < ·) then
    let after := ladder.apply columns key event
    some { ladder.remember after with clock := event.now.getD ladder.clock }
  else none

/-- The stop of the streak has been announced once if it was reached, with the
label on the card, and not if it was not. -/
structure AnnouncedOnce (ladder : Ladder) : Prop where
  reached : maxFailures ≤ ladder.buildFailureStreak.length →
    ladder.stops = ladder.stopsBefore + 1 ∧
      ladder.notices = ladder.noticesBefore + 1 ∧ escalationLabel ∈ ladder.labels
  below : ladder.buildFailureStreak.length < maxFailures →
    ladder.stops = ladder.stopsBefore ∧ ladder.notices = ladder.noticesBefore

instance (ladder : Ladder) : Decidable ladder.AnnouncedOnce :=
  decidable_of_iff
    ((maxFailures ≤ ladder.buildFailureStreak.length →
        ladder.stops = ladder.stopsBefore + 1 ∧
          ladder.notices = ladder.noticesBefore + 1 ∧ escalationLabel ∈ ladder.labels) ∧
      (ladder.buildFailureStreak.length < maxFailures →
        ladder.stops = ladder.stopsBefore ∧ ladder.notices = ladder.noticesBefore))
    ⟨fun both => ⟨both.1, both.2⟩, fun held => ⟨held.reached, held.below⟩⟩

/-- A run of the card that has failed and recorded nothing. -/
def failedHere (ladder : Ladder) (row : LoopJob) : Bool :=
  row.tenantId = ladder.card.tenantId && row.targetTaskId = some ladder.card.id &&
    row.kind = .build && row.state = .failed && row.buildOutcome.isNone

/-- The loop still holds the card the run was for, and can give it back. -/
def canGiveBack (hook : Hook) (row : LoopJob) (ladder : Ladder) : Bool :=
  ladder.card.assigneeUserId = some row.requestedBy &&
    ladder.card.claimExpiresAt.isSome &&
    (columnOfType columns ladder.card.boardId .unstarted).isSome &&
    [LadderCall.releaseClaim, .readCard, .readColumns, .moveCard, .countAttempt,
      .commentHandedBack].all (!hook.fails ·)

/-- No call of the last rung fails. -/
def canStop (hook : Hook) : Bool :=
  [LadderCall.countRuns, .attachEscalation, .detachRepair, .commentStopped,
    .notify].all (!hook.fails ·)

/-- The ending climbs the ladder to its last rung. -/
def climbs (hook : Hook) (row : LoopJob) (ladder : Ladder) : Bool :=
  (row.buildFingerprint.any isRepair || ladder.canGiveBack columns hook row) &&
    canStop hook

/-- What an event needs for the stop to be announced once: the failure that
reaches it climbs, and nobody takes the label off a streak at the stop and
leaves the count. -/
def heard (before : Ladder) (event : LadderEvent) : Bool :=
  let failures := before.buildFailureStreak.length
  match event with
  | .detachLabel _ name clearFails =>
      !(name = escalationLabel && name ∈ before.labels && maxFailures ≤ failures &&
        clearFails)
  | .deleteLabel name => !(name = escalationLabel && maxFailures ≤ failures)
  | event =>
      (event.written before.jobs).all fun row =>
        !(before.failedHere row && failures + 1 = maxFailures) ||
          event.hook.any (before.climbs columns · row)

section Streak

variable {ladder before after : Ladder} {row : LoopJob}

/-- A run of the card that recorded an outcome. -/
def answers (ladder : Ladder) (row : LoopJob) : Bool :=
  row.targetTaskId = some ladder.card.id && row.kind = .build && row.buildOutcome.isSome

theorem isUnanswered_iff :
    ladder.isUnanswered row = true ↔
      ladder.failedHere row = true ∧
        (∀ cleared ∈ ladder.card.buildLadderClearedAt, cleared < row.updatedAt) ∧
        ∀ other ∈ ladder.jobs, ladder.answers other = true →
          other.updatedAt ≤ row.updatedAt := by
  by_cases here : row.targetTaskId = some ladder.card.id
  · simp only [isUnanswered, unansweredFailure, failedHere, answers, Jobs.cardOf, here,
      Option.bind_some, board, if_true, Option.any_some, Option.isSome_some,
      Bool.and_eq_true, Bool.not_eq_true', List.any_eq_false, decide_eq_true_eq,
      Option.all_eq_true, Bool.true_and, not_and, not_lt, and_imp, true_and, and_assoc,
      Option.mem_def]
  · simp [isUnanswered, failedHere, here]

theorem length_buildFailureStreak :
    ladder.buildFailureStreak.length = ladder.jobs.countP ladder.isUnanswered := by
  rw [buildFailureStreak, List.length_map, List.length_insertionSort,
    List.countP_eq_length_filter]

theorem mem_buildFailureStreak {id : JobId} :
    id ∈ ladder.buildFailureStreak ↔
      ∃ row ∈ ladder.jobs, ladder.isUnanswered row = true ∧ row.id = id := by
  simp only [buildFailureStreak, List.mem_map, List.mem_insertionSort, List.mem_filter,
    and_assoc]

theorem buildFailureStreak_eq_nil
    (answered : ∀ row ∈ ladder.jobs, ladder.isUnanswered row = false) :
    ladder.buildFailureStreak = [] := by
  apply List.eq_nil_iff_forall_not_mem.mpr
  intro id isIn
  obtain ⟨row, member, unanswered, _⟩ := mem_buildFailureStreak.mp isIn
  rw [answered row member] at unanswered
  cases unanswered

/-- Nothing the streak is counted from has changed, and the history neither. -/
structure SameRuns (before after : Ladder) : Prop where
  jobs : after.jobs = before.jobs
  id : after.card.id = before.card.id
  tenantId : after.card.tenantId = before.card.tenantId
  cleared : after.card.buildLadderClearedAt = before.card.buildLadderClearedAt
  stopsBefore : after.stopsBefore = before.stopsBefore
  noticesBefore : after.noticesBefore = before.noticesBefore

theorem SameRuns.refl (ladder : Ladder) : ladder.SameRuns ladder :=
  ⟨rfl, rfl, rfl, rfl, rfl, rfl⟩

theorem SameRuns.trans {last : Ladder} (first : before.SameRuns after)
    (second : after.SameRuns last) : before.SameRuns last where
  jobs := second.jobs.trans first.jobs
  id := second.id.trans first.id
  tenantId := second.tenantId.trans first.tenantId
  cleared := second.cleared.trans first.cleared
  stopsBefore := second.stopsBefore.trans first.stopsBefore
  noticesBefore := second.noticesBefore.trans first.noticesBefore

theorem SameRuns.isUnanswered (same : before.SameRuns after) :
    after.isUnanswered = before.isUnanswered := by
  funext row
  apply Bool.eq_iff_iff.mpr
  simp only [isUnanswered_iff, failedHere, answers, same.jobs, same.id, same.tenantId,
    same.cleared]

theorem SameRuns.buildFailureStreak (same : before.SameRuns after) :
    after.buildFailureStreak = before.buildFailureStreak := by
  unfold Ladder.buildFailureStreak
  rw [same.isUnanswered, same.jobs]

end Streak

section Announcing

variable {ladder before after last : Ladder}

/-- Nothing was announced. -/
structure Quiet (before after : Ladder) : Prop extends before.SameRuns after where
  stops : after.stops = before.stops
  notices : after.notices = before.notices
  labelled : escalationLabel ∈ before.labels → escalationLabel ∈ after.labels

/-- The stop was announced once. -/
structure Announces (before after : Ladder) : Prop where
  stops : after.stops = before.stops + 1
  notices : after.notices = before.notices + 1
  labelled : escalationLabel ∈ after.labels

theorem Quiet.refl (ladder : Ladder) : ladder.Quiet ladder :=
  ⟨SameRuns.refl ladder, rfl, rfl, id⟩

theorem Quiet.trans (first : before.Quiet after) (second : after.Quiet last) :
    before.Quiet last where
  toSameRuns := first.toSameRuns.trans second.toSameRuns
  stops := second.stops.trans first.stops
  notices := second.notices.trans first.notices
  labelled := second.labelled ∘ first.labelled

/-- Nothing was said, and the history is as it was. -/
structure Silent (before after : Ladder) : Prop where
  stops : after.stops = before.stops
  notices : after.notices = before.notices
  stopsBefore : after.stopsBefore = before.stopsBefore
  noticesBefore : after.noticesBefore = before.noticesBefore

theorem Silent.trans (first : before.Silent after) (second : after.Silent last) :
    before.Silent last where
  stops := second.stops.trans first.stops
  notices := second.notices.trans first.notices
  stopsBefore := second.stopsBefore.trans first.stopsBefore
  noticesBefore := second.noticesBefore.trans first.noticesBefore

theorem Quiet.silent (quiet : before.Quiet after) : before.Silent after :=
  ⟨quiet.stops, quiet.notices, quiet.stopsBefore, quiet.noticesBefore⟩

/-- What is announced after something silent is announced. -/
theorem Silent.announces_iff (first : before.Silent after) :
    before.Announces last ↔ after.Announces last := by
  constructor
  · rintro ⟨stops, notices, labelled⟩
    exact ⟨by rw [first.stops, stops], by rw [first.notices, notices], labelled⟩
  · rintro ⟨stops, notices, labelled⟩
    exact ⟨by rw [← first.stops, stops], by rw [← first.notices, notices], labelled⟩

theorem Quiet.not_announces (quiet : before.Quiet after) : ¬ before.Announces after := by
  intro announced
  have stops := announced.stops
  rw [quiet.stops] at stops
  omega

theorem attachLabel_quiet (name : String) : ladder.Quiet (ladder.attachLabel name) := by
  unfold attachLabel
  split
  · exact Quiet.refl ladder
  · exact ⟨⟨rfl, rfl, rfl, rfl, rfl, rfl⟩, rfl, rfl, List.mem_append_left _⟩

theorem mem_attachLabel (name : String) : name ∈ (ladder.attachLabel name).labels := by
  unfold attachLabel
  split
  case isTrue present => exact present
  case isFalse => exact List.mem_append_right _ (List.mem_singleton_self name)

theorem mem_detachLabel {name other : String} :
    other ∈ (ladder.detachLabel name).labels ↔ other ∈ ladder.labels ∧ other ≠ name := by
  simp [detachLabel]

theorem detachLabel_quiet {name : String} (other : escalationLabel ≠ name) :
    ladder.Quiet (ladder.detachLabel name) :=
  ⟨⟨rfl, rfl, rfl, rfl, rfl, rfl⟩, rfl, rfl,
    fun present => mem_detachLabel.mpr ⟨present, other⟩⟩

theorem comment_quiet {said : CardComment} (noStop : said.isStop = false) :
    ladder.Quiet (ladder.comment said) := by
  refine ⟨⟨rfl, rfl, rfl, rfl, rfl, rfl⟩, ?_, rfl, id⟩
  simp [stops, comment, noStop]

theorem stops_comment (said : CardComment) :
    (ladder.comment said).stops = ladder.stops + if said.isStop then 1 else 0 := by
  rw [stops, comment, List.countP_append, List.countP_singleton]
  rfl

theorem notices_notifyStopped (key : Option String) (failures : Nat) :
    (ladder.notifyStopped key failures).notices = ladder.notices + 1 := by
  rw [notices, notifyStopped, List.length_append]
  rfl

theorem escalationLabel_ne_repairLabel : escalationLabel ≠ repairLabel := by decide

end Announcing

section Rungs

variable {ladder : Ladder} {key : Option String} {hook : Hook} {job : LoopJob}
  {runs : List JobId}

/-- The count is not the stop: the last rung says nothing. -/
theorem stop_quiet (other : runs.length ≠ maxFailures) :
    ladder.Quiet (ladder.stop key hook runs) := by
  have labelled := @attachLabel_quiet ladder escalationLabel
  unfold stop
  split
  · exact Quiet.refl ladder
  · dsimp only
    split
    · exact labelled
    · exact labelled.trans (detachLabel_quiet escalationLabel_ne_repairLabel)

/-- The count is the stop: it is announced where no call fails. -/
theorem stop_spec (atStop : runs.length = maxFailures) :
    ladder.SameRuns (ladder.stop key hook runs) ∧
      (ladder.Announces (ladder.stop key hook runs) ↔
        [LadderCall.attachEscalation, .detachRepair, .commentStopped, .notify].all
          (!hook.fails ·) = true) := by
  have labelled := @attachLabel_quiet ladder escalationLabel
  have handed := labelled.trans (detachLabel_quiet escalationLabel_ne_repairLabel)
  have onCard := mem_detachLabel.mpr
    ⟨@mem_attachLabel ladder escalationLabel, escalationLabel_ne_repairLabel⟩
  unfold stop
  cases attaches : hook.fails .attachEscalation with
  | true => simp [attaches, SameRuns.refl, (Quiet.refl ladder).not_announces]
  | false =>
      cases detaches : hook.fails .detachRepair with
      | true => simp [attaches, detaches, labelled.toSameRuns, labelled.not_announces]
      | false =>
          cases comments : hook.fails .commentStopped with
          | true =>
              simp [attaches, detaches, comments, atStop, handed.toSameRuns,
                handed.not_announces]
          | false =>
              have same := handed.toSameRuns
              cases notifies : hook.fails .notify with
              | true =>
                  simp only [attaches, detaches, comments, notifies, atStop, ne_eq,
                    not_true_eq_false, if_false, if_true, Bool.false_eq_true,
                    List.all_cons, Bool.not_true, Bool.false_and, Bool.and_false,
                    iff_false]
                  refine ⟨⟨same.jobs, same.id, same.tenantId, same.cleared,
                    same.stopsBefore, same.noticesBefore⟩, fun announced => ?_⟩
                  have notices := announced.notices.symm.trans handed.notices
                  omega
              | false =>
                  simp only [attaches, detaches, comments, notifies, atStop, ne_eq,
                    not_true_eq_false, if_false, Bool.false_eq_true, List.all_cons,
                    List.all_nil, Bool.not_false, Bool.and_true, iff_true]
                  refine ⟨⟨same.jobs, same.id, same.tenantId, same.cleared,
                    same.stopsBefore, same.noticesBefore⟩, ?_, ?_, onCard⟩
                  · rw [← handed.stops]
                    exact stops_comment _
                  · rw [← handed.notices]
                    exact notices_notifyStopped key _

theorem askForRepair_quiet {failures : Nat} :
    ladder.Quiet (ladder.askForRepair hook job failures) := by
  have labelled := @attachLabel_quiet ladder repairLabel
  unfold askForRepair
  split
  · exact Quiet.refl ladder
  · dsimp only
    split
    · exact labelled
    · exact labelled.trans (comment_quiet rfl)

/-- A climb to any rung but the stop says nothing of it. -/
theorem climb_quiet (other : ladder.buildFailureStreak.length ≠ maxFailures) :
    ladder.Quiet (ladder.climb key hook job) := by
  unfold climb
  split
  · exact Quiet.refl ladder
  · dsimp only
    split
    · exact Quiet.refl ladder
    · split
      · exact stop_quiet other
      · exact askForRepair_quiet

/-- The climb to the stop announces it where no call fails. -/
theorem climb_spec (atStop : ladder.buildFailureStreak.length = maxFailures) :
    ladder.SameRuns (ladder.climb key hook job) ∧
      (ladder.Announces (ladder.climb key hook job) ↔ canStop hook = true) := by
  unfold climb
  cases counts : hook.fails .countRuns with
  | true =>
      simp [canStop, counts, SameRuns.refl, (Quiet.refl ladder).not_announces]
  | false =>
      have notFewer : ¬ ladder.buildFailureStreak.length < 2 := by
        rw [atStop]
        decide
      have spec := @stop_spec ladder key hook ladder.buildFailureStreak atStop
      dsimp only
      rw [if_neg Bool.false_ne_true, if_neg notFewer, if_pos atStop.ge, canStop,
        List.all_cons, counts, Bool.not_false, Bool.true_and]
      exact spec

end Rungs

section HandBack

variable {ladder : Ladder} {columns : List BoardColumn} {key : Option String}
  {hook : Hook} {job : LoopJob} {now : Instant}

/-- Giving the card back announces nothing. -/
theorem giveCardBack_quiet :
    ladder.Quiet (ladder.giveCardBack columns now hook job).1 := by
  have cardOnly : ∀ card : TaskItem, card.id = ladder.card.id →
      card.tenantId = ladder.card.tenantId →
      card.buildLadderClearedAt = ladder.card.buildLadderClearedAt →
        ladder.Quiet { ladder with card } := fun card id tenant cleared =>
    ⟨⟨rfl, id, tenant, cleared, rfl, rfl⟩, rfl, rfl, fun present => present⟩
  unfold giveCardBack
  split
  · exact Quiet.refl ladder
  · split
    · exact Quiet.refl ladder
    · rename_i card isReleased
      simp only [released, Option.ite_none_right_eq_some, Repo.releaseClaimOf,
        Option.some.injEq] at isReleased
      obtain ⟨_, _, rfl⟩ := isReleased
      dsimp only
      split
      · exact cardOnly _ rfl rfl rfl
      · split
        · exact cardOnly _ rfl rfl rfl
        · split
          · exact cardOnly _ rfl rfl rfl
          · exact cardOnly _ rfl rfl rfl

/-- The card comes back exactly where the requester holds it under a lease, the
board has a column for it, and no call fails. -/
theorem giveCardBack_isBack (sameTenant : ladder.card.tenantId = job.tenantId) :
    (ladder.giveCardBack columns now hook job).2 =
      (ladder.card.assigneeUserId = some job.requestedBy &&
        ladder.card.claimExpiresAt.isSome &&
        (columnOfType columns ladder.card.boardId .unstarted).isSome &&
        [LadderCall.releaseClaim, .readCard, .readColumns, .moveCard].all
          (!hook.fails ·)) := by
  unfold giveCardBack released Repo.releaseClaimOf
  rw [if_pos sameTenant]
  by_cases held : ladder.card.assigneeUserId = some job.requestedBy ∧
      ladder.card.claimExpiresAt.isSome = true
  · rw [if_pos held]
    have sameBoard : (Repo.releaseAssignment now ladder.card).boardId =
        ladder.card.boardId := rfl
    cases releases : hook.fails .releaseClaim <;> cases reads : hook.fails .readCard <;>
      cases resolves : hook.fails .readColumns <;> cases moves : hook.fails .moveCard <;>
      cases found : columnOfType columns ladder.card.boardId .unstarted <;>
      simp [held, sameBoard, found, Repo.updateFields, Repo.unmoved, releases, reads,
        resolves, moves]
  · rw [if_neg held]
    have notHeld : (decide (ladder.card.assigneeUserId = some job.requestedBy) &&
        ladder.card.claimExpiresAt.isSome) = false := by
      simpa using held
    rw [notHeld]
    split <;> rfl

/-- What is left of `canGiveBack` once the card is back. -/
theorem canGiveBack_eq (sameTenant : ladder.card.tenantId = job.tenantId) :
    ladder.canGiveBack columns hook job =
      ((ladder.giveCardBack columns now hook job).2 &&
        [LadderCall.countAttempt, .commentHandedBack].all (!hook.fails ·)) := by
  rw [giveCardBack_isBack sameTenant]
  simp [canGiveBack, Bool.and_assoc]

theorem tellHandedBack_quiet : ladder.Quiet (ladder.tellHandedBack hook job) :=
  comment_quiet rfl

/-- The rest of a handback announces nothing, unless the run failed and its
failure is the one that reaches the stop. -/
theorem concludeHandBack_quiet
    (notStop : job.state = .failed → ladder.buildFailureStreak.length ≠ maxFailures) :
    ladder.Quiet (ladder.concludeHandBack key hook job) := by
  have told := @tellHandedBack_quiet ladder hook job
  unfold concludeHandBack
  split
  · exact Quiet.refl ladder
  · split
    · exact Quiet.refl ladder
    · dsimp only
      split
      case isFalse => exact told
      case isTrue failed =>
        apply told.trans
        apply climb_quiet
        rw [told.buildFailureStreak]
        exact notStop failed

theorem concludeHandBack_spec (failed : job.state = .failed)
    (atStop : ladder.buildFailureStreak.length = maxFailures) :
    ladder.SameRuns (ladder.concludeHandBack key hook job) ∧
      (ladder.Announces (ladder.concludeHandBack key hook job) ↔
        ([LadderCall.countAttempt, .commentHandedBack].all (!hook.fails ·) &&
          canStop hook) = true) := by
  have told := @tellHandedBack_quiet ladder hook job
  have climbs := @climb_spec (ladder.tellHandedBack hook job) key hook job
    (told.buildFailureStreak ▸ atStop)
  unfold concludeHandBack
  cases counts : hook.fails .countAttempt with
  | true =>
      simp [failed, counts, SameRuns.refl, (Quiet.refl ladder).not_announces]
  | false =>
      cases comments : hook.fails .commentHandedBack with
      | true =>
          simp [failed, counts, comments, SameRuns.refl,
            (Quiet.refl ladder).not_announces]
      | false =>
          simp only [failed, counts, comments, decide_true, Bool.and_false,
            Bool.false_eq_true, if_false, if_true, List.all_cons, List.all_nil,
            Bool.not_false, Bool.and_true, Bool.true_and]
          exact ⟨told.toSameRuns.trans climbs.1, told.silent.announces_iff.trans climbs.2⟩

/-- The hook of an ending that is not the failure reaching the stop announces
nothing. -/
theorem onRunConcluded_quiet
    (tenant : job.targetTaskId = some ladder.card.id →
      job.tenantId = ladder.card.tenantId)
    (notStop : ladder.failedHere job = true →
      ladder.buildFailureStreak.length ≠ maxFailures) :
    ladder.Quiet (ladder.onRunConcluded columns key now hook job) := by
  unfold onRunConcluded
  split
  · exact Quiet.refl ladder
  · rename_i concerns
    simp only [Bool.or_eq_true, decide_eq_true_eq, not_or, Bool.not_eq_true,
      Decidable.not_not] at concerns
    obtain ⟨⟨isBuild, noOutcome⟩, here⟩ := concerns
    have notStopped : job.state = .failed →
        ladder.buildFailureStreak.length ≠ maxFailures := by
      intro failed
      apply notStop
      simp [failedHere, tenant here, here, isBuild, failed,
        Option.isSome_eq_false_iff.mp noOutcome]
    split
    · split
      · rename_i failed
        exact climb_quiet (notStopped failed)
      · exact Quiet.refl ladder
    · have given := @giveCardBack_quiet ladder columns hook job now
      unfold handBack
      dsimp only
      split
      · apply given.trans
        apply concludeHandBack_quiet
        rw [given.buildFailureStreak]
        exact notStopped
      · exact given

/-- The hook of the failure that reaches the stop announces it exactly where it
climbs. -/
theorem onRunConcluded_spec (failed : ladder.failedHere job = true)
    (atStop : ladder.buildFailureStreak.length = maxFailures) :
    ladder.SameRuns (ladder.onRunConcluded columns key now hook job) ∧
      (ladder.Announces (ladder.onRunConcluded columns key now hook job) ↔
        ladder.climbs columns hook job = true) := by
  simp only [failedHere, Bool.and_eq_true, decide_eq_true_eq,
    Option.isNone_iff_eq_none] at failed
  obtain ⟨⟨⟨⟨tenant, here⟩, isBuild⟩, state⟩, noOutcome⟩ := failed
  have concerns : (job.kind ≠ .build || job.buildOutcome.isSome ||
      job.targetTaskId ≠ some ladder.card.id) = false := by
    simp [isBuild, noOutcome, here]
  unfold onRunConcluded climbs
  rw [concerns, if_neg Bool.false_ne_true]
  cases repair : job.buildFingerprint.any isRepair with
  | true =>
      rw [if_pos rfl, if_pos state, Bool.true_or, Bool.true_and]
      exact climb_spec atStop
  | false =>
      have given := @giveCardBack_quiet ladder columns hook job now
      have rest := @concludeHandBack_spec _ key hook job state
        (given.buildFailureStreak ▸ atStop)
      rw [if_neg Bool.false_ne_true, Bool.false_or,
        @canGiveBack_eq ladder columns hook job now tenant.symm]
      unfold handBack
      dsimp only
      cases back : (ladder.giveCardBack columns now hook job).2 with
      | true =>
          rw [if_pos rfl, given.silent.announces_iff, Bool.true_and]
          exact ⟨given.toSameRuns.trans rest.1, rest.2⟩
      | false =>
          rw [if_neg Bool.false_ne_true, Bool.false_and, Bool.false_and]
          exact ⟨given.toSameRuns, iff_of_false given.not_announces Bool.false_ne_true⟩

end HandBack

end Ladder

end NookOs.Tasks
