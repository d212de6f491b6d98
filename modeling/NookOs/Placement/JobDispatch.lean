/-
Module: NookOs.Placement.JobDispatch
Purpose: The calls that raise jobs and the consumer that settles their work
  items, over the job table and the database queue, and a condition under which
  no queued job is left without an item.
Trusted boundary: none
Main exports: JobDispatch, JobDispatch.step, NoneForgotten, HandedOn, no_queued_job_forgotten
-/
import Mathlib.Tactic.IntervalCases
import Mathlib.Tactic.Ring
import NookOs.Lib.Run
import NookOs.Lib.Table
import NookOs.Lib.InFlight
import NookOs.Queue.Database
import NookOs.Jobs.Lifecycle
import NookOs.Placement.Capacity
import NookOs.Placement.BuildPorts

namespace NookOs.Placement

open Lib Jobs
open Queue hiding Instant TenantId

/-!
`create`, `seed_investigate`, `raise_run` and `rerun` insert the job's row and
then enqueue its item; the consumer acks an item and then enqueues another for a
job it could not place.  A process may die, or a call fail, between any two
steps.  A dispatch pass places whatever it chooses, so what it does to the jobs
is a step of the environment's.
-/

/-- `serde_json` on a job id. -/
structure JobIdJson where
  toVec : JobId → List UInt8
  fromSlice : List UInt8 → Option JobId
  roundTrip : ∀ id, fromSlice (toVec id) = some id

/-- The work type of a job's item. -/
def workType : WorkType := "loop.job"

/-- Items claimed per receive. -/
def batchSize : Nat := 10

/-- How long a claimed item stays invisible. -/
def visibility : Duration := 30000000

/-- How long a job that could not be placed waits. -/
def retryDelay : Duration := 30000000

/-- A call that has inserted its job's row and not enqueued its item. -/
structure Creating where
  job : JobId
  tenant : TenantId
deriving DecidableEq

/-- Where a `handle_batch` stands. -/
inductive BatchStage where
  /-- Before the passes of the tenants of these items. -/
  | sweep (unswept : List WorkEnvelope)
  /-- About to settle the next item. -/
  | next
  /-- The next item's job was read, and its item is to be acked. -/
  | ack (stillQueued : Bool)
  /-- The next item was acked, and another is to be enqueued. -/
  | rearm
deriving DecidableEq

/-- A `handle_batch` in progress: the items it has still to settle, and the
tenants it ran a pass for and those whose pass failed. -/
structure Batch where
  left : List WorkEnvelope
  swept : List TenantId
  failed : List TenantId
  stage : BatchStage
deriving DecidableEq

/-- The job table, the queue and the calls in progress. -/
structure JobDispatch where
  jobs : List LoopJob
  queue : DbQueue
  creating : List Creating
  batches : List Batch

/-- Nothing has been raised yet. -/
def JobDispatch.empty : JobDispatch :=
  { jobs := [], queue := .empty, creating := [], batches := [] }

/-- No call is in progress. -/
def JobDispatch.Quiescent (system : JobDispatch) : Prop :=
  system.creating = [] ∧ system.batches = []

/-- An UPDATE of one job. -/
inductive JobUpdate where
  | claimForExecutor (now : Instant) (node : NodeId)
  | setQueuedReason (now : Instant) (reason : String) (kind : Option QueuedReason)
  | transition (now : Instant) (call : CheckedTransition)
  | write (update : RowWrite)

/-- The row an UPDATE leaves, where its guard matches. -/
def JobUpdate.update : JobUpdate → LoopJob → Option LoopJob
  | .claimForExecutor now node => Jobs.Repo.claimForExecutor now node
  | .setQueuedReason now reason kind => Jobs.Repo.setQueuedReason now reason kind
  | .transition now call => fun job => some (Jobs.Repo.transition now call.target job)
  | .write update => update.update

/-- One step of one party. -/
inductive JobDispatchStep where
  | create (now : Instant) (new : NewLoopJob)
  | enqueueCreated (call : Nat) (now : Instant) (lands : Bool)
  | receive (now : Instant) (order : List WorkRow)
  | sweepItem (batch : Nat) (enabled succeeds : Bool)
  | settleItem (batch : Nat) (now : Instant) (reads lands : Bool)
  | ackItem (batch : Nat) (now : Instant) (lands : Bool)
  | rearmItem (batch : Nat) (now : Instant) (lands : Bool)
  | fail (batch : Nat)
  | update (id : JobId) (update : JobUpdate)

/-- A call on the queue; one that does not land leaves it as it is. -/
def queueCall (queue : DbQueue) (request : Call) (lands : Bool) : Option DbQueue :=
  if lands then queue.step request else some queue

/-- The item done with, the batch goes on to the one after it. -/
def Batch.settled (batch : Batch) : Batch :=
  { batch with left := batch.left.tail, stage := .next }

/-- One item of the first loop: a pass for its tenant, once a batch. -/
def Batch.sweepItem (enabled succeeds : Bool) (batch : Batch) : Option Batch :=
  match batch.stage with
  | .sweep [] => some { batch with stage := .next }
  | .sweep (item :: unswept) =>
      if !enabled || batch.swept.contains item.tenantId then
        some { batch with stage := .sweep unswept }
      else
        some
          { batch with
            stage := .sweep unswept
            swept := item.tenantId :: batch.swept
            failed :=
              if succeeds then batch.failed else item.tenantId :: batch.failed }
  | .next | .ack _ | .rearm => none

namespace JobDispatch

variable (json : JobIdJson)

/-- The state of the item's job, as its tenant sees it. -/
def readsQueued (tenant : TenantId) (id : JobId) (jobs : List LoopJob) : Bool :=
  ((Table.find LoopJob.id jobs id).filter fun job => job.tenantId = tenant).any
    fun job => job.state = .queued

/-- The first half of `settle`: the item is given back, or its job is read. -/
def settleItem (index : Nat) (now : Instant) (reads lands : Bool)
    (system : JobDispatch) (batch : Batch) : Option JobDispatch :=
  match batch.left with
  | [] => some { system with batches := system.batches.eraseIdx index }
  | item :: _ =>
      let giveBack (disposition : Nack) :=
        (queueCall system.queue (.nack now item.id disposition) lands).map fun queue =>
          { system with queue, batches := system.batches.set index batch.settled }
      match json.fromSlice item.payload with
      | none => giveBack (.dead "unreadable payload")
      | some id =>
          if batch.failed.contains item.tenantId || !reads then giveBack .requeue
          else
            some
              { system with
                batches := system.batches.set index
                  { batch with
                    stage := .ack (readsQueued item.tenantId id system.jobs) } }

/-- The interleaving semantics of raising and settling. -/
def step (system : JobDispatch) : JobDispatchStep → Option JobDispatch
  | .create now new =>
      if (Table.find LoopJob.id system.jobs new.id).isSome then none
      else
        some
          { system with
            jobs := system.jobs ++ [Jobs.Repo.create now new]
            creating := system.creating ++ [{ job := new.id, tenant := new.tenant }] }
  | .enqueueCreated index now lands =>
      (system.creating[index]?).bind fun call =>
        (queueCall system.queue
            (.enqueue now system.queue.nextId
              (NewWork.new call.tenant workType (json.toVec call.job))) lands).map
          fun queue =>
            { system with queue, creating := system.creating.eraseIdx index }
  | .receive now order =>
      (system.queue.step (.receive now [workType] batchSize visibility order)).map
        fun queue =>
          let items := (DbQueue.receive now batchSize visibility order
            { system.queue with clock := now }).2
          if items.isEmpty then { system with queue }
          else
            { system with
              queue
              batches := system.batches ++
                [{ left := items, swept := [], failed := [], stage := .sweep items }] }
  | .sweepItem index enabled succeeds =>
      (system.batches[index]?).bind fun batch =>
        (batch.sweepItem enabled succeeds).map fun next =>
          { system with batches := system.batches.set index next }
  | .settleItem index now reads lands =>
      (system.batches[index]?).bind fun batch =>
        match batch.stage with
        | .next => settleItem json index now reads lands system batch
        | .sweep _ | .ack _ | .rearm => none
  | .ackItem index now lands =>
      (system.batches[index]?).bind fun batch =>
        match batch.stage, batch.left with
        | .ack stillQueued, item :: _ =>
            (queueCall system.queue (.ack now item.id) lands).map fun queue =>
              { system with
                queue
                batches := system.batches.set index
                  (if stillQueued then { batch with stage := .rearm }
                  else batch.settled) }
        | _, _ => none
  | .rearmItem index now lands =>
      (system.batches[index]?).bind fun batch =>
        match batch.stage, batch.left with
        | .rearm, item :: _ =>
            (queueCall system.queue
                (.enqueue now system.queue.nextId
                  ((NewWork.new item.tenantId workType item.payload).setDelay
                    retryDelay)) lands).map
              fun queue =>
                { system with queue, batches := system.batches.set index batch.settled }
        | _, _ => none
  | .fail index =>
      (system.batches[index]?).map fun _ =>
        { system with batches := system.batches.eraseIdx index }
  | .update id change =>
      some { system with jobs := onJob id change.update system.jobs }

end JobDispatch

section Carried

variable (json : JobIdJson)

/-- The row is an item of the job that will be delivered again. -/
def carries (id : JobId) (row : WorkRow) : Bool :=
  row.workType = workType && row.payload = json.toVec id &&
    row.attempts < row.maxAttempts

/-- The batch has an item of the job still to settle. -/
def Batch.holds (id : JobId) (batch : Batch) : Bool :=
  batch.left.any fun item => item.payload = json.toVec id

/-- The job waits no longer, or an item of it is in the queue, or a call in
progress has one to enqueue or to settle. -/
def Kept (system : JobDispatch) (id : JobId) : Prop :=
  stillQueued system.jobs id = false ∨
    (∃ row ∈ system.queue.workQueue, carries json id row = true) ∨
    (∃ call ∈ system.creating, call.job = id) ∨
    ∃ batch ∈ system.batches, batch.holds json id = true

instance (system : JobDispatch) (id : JobId) : Decidable (Kept json system id) :=
  inferInstanceAs (Decidable (_ ∨ _ ∨ _ ∨ _))

/-- With no call in progress, every queued job has an item in the queue that
will be delivered again. -/
def NoneForgotten (_ : JobDispatch) (_ : JobDispatchStep) (after : JobDispatch) :
    Prop :=
  after.Quiescent → ∀ job ∈ after.jobs, job.state = .queued →
    ∃ row ∈ after.queue.workQueue, carries json job.id row = true

/-- The condition on one step, read off the state before it: a call that stops
without having enqueued an item for its job, or gives back one with no delivery
left, leaves the job to another item or call. -/
def HandedOn (before : JobDispatch) (label : JobDispatchStep) (_ : JobDispatch) :
    Prop :=
  match label with
  | .enqueueCreated index _ lands =>
      lands = false → ∀ call ∈ before.creating[index]?,
        Kept json { before with creating := before.creating.eraseIdx index } call.job
  | .settleItem index _ reads _ =>
      ∀ batch ∈ before.batches[index]?, ∀ item ∈ batch.left.head?,
        batch.failed.contains item.tenantId = true ∨ reads = false →
        ∀ id ∈ json.fromSlice item.payload,
          Kept json
            { before with batches := before.batches.set index batch.settled } id
  | .rearmItem index _ lands =>
      lands = false → ∀ batch ∈ before.batches[index]?, ∀ item ∈ batch.left.head?,
        ∀ id ∈ json.fromSlice item.payload,
          Kept json
            { before with batches := before.batches.set index batch.settled } id
  | .fail index =>
      ∀ batch ∈ before.batches[index]?, ∀ item ∈ batch.left,
        ∀ id ∈ json.fromSlice item.payload,
          Kept json { before with batches := before.batches.eraseIdx index } id
  | _ => True

end Carried

/-- No UPDATE queues a job again, or moves it to another tenant. -/
theorem JobUpdate.advances (change : JobUpdate) : Advances change.update := by
  cases change with
  | claimForExecutor now node => exact advances_claimForExecutor now node
  | setQueuedReason now reason kind => exact advances_setQueuedReason now reason kind
  | transition now call => exact advances_transition now call
  | write update => exact advances_write update

theorem JobUpdate.tenantId_eq {change : JobUpdate} {job row : LoopJob}
    (written : change.update job = some row) : row.tenantId = job.tenantId := by
  cases change with
  | write update => exact RowWrite.tenantId_eq written
  | transition now call =>
      cases written
      rfl
  | _ =>
      simp only [JobUpdate.update, Jobs.Repo.claimForExecutor,
        Jobs.Repo.setQueuedReason, Option.ite_none_right_eq_some,
        Option.some.injEq] at written
      rw [← written.2]

section Custody

variable {json : JobIdJson}

/-- The payload names a job of the tenant. -/
def Names (json : JobIdJson) (jobs : List LoopJob) (tenant : TenantId)
    (payload : List UInt8) : Prop :=
  ∃ job, Table.find LoopJob.id jobs job.id = some job ∧ job.tenantId = tenant ∧
    payload = json.toVec job.id

/-- An item a batch holds is a message of a job, and the row of that message, if
it is still there, is its own. -/
structure ItemSound (json : JobIdJson) (jobs : List LoopJob) (queue : DbQueue)
    (item : WorkEnvelope) : Prop where
  names : Names json jobs item.tenantId item.payload
  issued : item.id < queue.nextId
  own : ∀ row ∈ queue.workQueue, row.id = item.id → row.payload = item.payload

/-- A batch's items are sound, and a job it read as waiting no longer does
not wait. -/
structure BatchSound (json : JobIdJson) (jobs : List LoopJob) (queue : DbQueue)
    (batch : Batch) : Prop where
  items : ∀ item ∈ batch.left, ItemSound json jobs queue item
  read : batch.stage = .ack false → ∀ item ∈ batch.left.head?,
    ∀ id, item.payload = json.toVec id → stillQueued jobs id = false

/-- What a run that meets the condition keeps. -/
structure JobDispatch.Sound (json : JobIdJson) (system : JobDispatch) : Prop where
  keyed : Table.Keyed LoopJob.id system.jobs
  consistent : system.queue.Consistent
  rows : ∀ row ∈ system.queue.workQueue,
    row.workType = workType ∧ Names json system.jobs row.tenantId row.payload
  creating : ∀ call ∈ system.creating, ∃ job,
    Table.find LoopJob.id system.jobs call.job = some job ∧ job.tenantId = call.tenant
  batches : ∀ batch ∈ system.batches, BatchSound json system.jobs system.queue batch
  kept : ∀ id, Kept json system id

/-- A queue that a call has moved on: a row is one that was there, or has a new
id. -/
structure Descends (queue queue' : DbQueue) : Prop where
  consistent : queue'.Consistent
  issued : queue.nextId ≤ queue'.nextId
  origin : ∀ row ∈ queue'.workQueue,
    (∃ before ∈ queue.workQueue, row.SameWork before) ∨ queue.nextId ≤ row.id

/-- A queue that a call other than an enqueue has moved on. -/
structure Thins (queue queue' : DbQueue) : Prop where
  consistent : queue'.Consistent
  issued : queue.nextId ≤ queue'.nextId
  origin : ∀ row ∈ queue'.workQueue,
    ∃ before ∈ queue.workQueue, row.SameWork before

variable {queue : DbQueue}

theorem Thins.refl (consistent : queue.Consistent) :
    Thins queue queue :=
  ⟨consistent, Nat.le_refl _, fun row member => ⟨row, member, .refl row⟩⟩

variable {queue queue' : DbQueue}

theorem Thins.descends (moved : Thins queue queue') :
    Descends queue queue' :=
  ⟨moved.consistent, moved.issued, fun row member => .inl (moved.origin row member)⟩

variable {item : WorkEnvelope}

theorem ItemSound.descends {jobs : List LoopJob} (isSound : ItemSound json jobs queue item)
    (moved : Descends queue queue') : ItemSound json jobs queue' item where
  names := isSound.names
  issued := Nat.lt_of_lt_of_le isSound.issued moved.issued
  own := by
    intro row member sameId
    rcases moved.origin row member with ⟨before, present, same⟩ | new
    · rw [same.2.2.2.1]
      exact isSound.own before present (same.1.symm.trans sameId)
    · exact absurd (sameId ▸ isSound.issued) (Nat.not_lt.mpr new)

variable {batch : Batch}

theorem BatchSound.descends {jobs : List LoopJob} (isSound : BatchSound json jobs queue batch)
    (moved : Descends queue queue') : BatchSound json jobs queue' batch :=
  ⟨fun item member => (isSound.items item member).descends moved, isSound.read⟩

/-- A batch that is done with an item. -/
theorem BatchSound.settled {jobs : List LoopJob} (isSound : BatchSound json jobs queue batch) :
    BatchSound json jobs queue batch.settled :=
  ⟨fun item member => isSound.items item (List.mem_of_mem_tail member), nofun⟩

variable {lands : Bool}

theorem queueCall_consistent {request : Call} (consistent : queue.Consistent)
    (moved : queueCall queue request lands = some queue') : queue'.Consistent := by
  unfold queueCall at moved
  split at moved
  · exact (DbQueue.step_simulated consistent moved).1
  · cases moved
    exact consistent

/-- What a call on the queue that lands does, its clock moved. -/
theorem queue_step_some {request : Call} (moved : queue.step request = some queue') :
    DbQueue.call { queue with clock := request.now } request = some queue' :=
  (Option.ite_none_right_eq_some.mp moved).2

variable {now : Queue.Instant}

/-- A requeue loses no row, and no attempt of one. -/
theorem requeue_keeps {id : MessageId} (consistent : queue.Consistent)
    (moved : queueCall queue (.nack now id .requeue) lands = some queue') :
    Thins queue queue' ∧
      ∀ job, (∃ row ∈ queue.workQueue, carries json job row = true) →
        ∃ row ∈ queue'.workQueue, carries json job row = true := by
  have after := queueCall_consistent consistent moved
  unfold queueCall at moved
  cases lands with
  | false =>
      cases moved
      exact ⟨.refl consistent, fun _ carried => carried⟩
  | true =>
      rw [if_pos rfl] at moved
      cases queue_step_some moved
      constructor
      · have keeps : ∀ stored : WorkRow,
            WorkRow.SameWork { stored with lockedUntil := none } stored :=
          fun _ => ⟨rfl, rfl, rfl, rfl, rfl⟩
        refine ⟨after, Nat.le_refl _, fun row member => ?_⟩
        exact DbQueue.origin_of_mem_rewrite keeps member
      · rintro job ⟨row, member, carried⟩
        refine ⟨_, List.mem_map_of_mem member, ?_⟩
        split
        · exact carried
        · exact carried

/-- An ack loses the rows of its message only. -/
theorem ack_keeps {id : MessageId} (consistent : queue.Consistent)
    (moved : queueCall queue (.ack now id) lands = some queue') :
    Thins queue queue' ∧
      ∀ row ∈ queue.workQueue, row.id ≠ id → row ∈ queue'.workQueue := by
  have after := queueCall_consistent consistent moved
  unfold queueCall at moved
  cases lands with
  | false =>
      cases moved
      exact ⟨.refl consistent, fun _ member _ => member⟩
  | true =>
      rw [if_pos rfl] at moved
      cases queue_step_some moved
      constructor
      · refine ⟨after, Nat.le_refl _, fun row member => ?_⟩
        exact ⟨row, List.mem_of_mem_filter member, .refl row⟩
      · intro row member differs
        exact List.mem_filter.mpr ⟨member, by simpa using differs⟩

/-- An enqueue loses no row, and adds an item that will be delivered. -/
theorem enqueue_keeps {work : NewWork} (consistent : queue.Consistent)
    (moved : queueCall queue (.enqueue now queue.nextId work) lands = some queue') :
    Descends queue queue' ∧
      (∀ row ∈ queue.workQueue, row ∈ queue'.workQueue) ∧
      (∀ row ∈ queue'.workQueue, row ∈ queue.workQueue ∨
        (row.workType = work.workType ∧ row.tenantId = work.tenantId ∧
          row.payload = work.payload)) ∧
      (lands = true → ∃ row ∈ queue'.workQueue, row.workType = work.workType ∧
        row.payload = work.payload ∧ row.attempts < row.maxAttempts) := by
  have after := queueCall_consistent consistent moved
  unfold queueCall at moved
  cases lands with
  | false =>
      cases moved
      exact ⟨(Thins.refl consistent).descends, fun _ member => member, fun _ member => .inl member,
        nofun⟩
  | true =>
      rw [if_pos rfl] at moved
      have called := queue_step_some moved
      unfold DbQueue.call at called
      dsimp only at called
      rw [if_pos rfl] at called
      cases called
      refine ⟨⟨after, Nat.le_succ _, ?_⟩, ?_, ?_, ?_⟩
      · intro row member
        rcases List.mem_append.mp member with earlier | new
        · exact .inl ⟨row, earlier, .refl row⟩
        · rw [List.mem_singleton.mp new]
          exact .inr (Nat.le_refl _)
      · exact fun row member => List.mem_append_left _ member
      · intro row member
        rcases List.mem_append.mp member with earlier | new
        · exact .inl earlier
        · rw [List.mem_singleton.mp new]
          exact .inr ⟨rfl, rfl, rfl⟩
      · intro _
        exact ⟨_, List.mem_append_right _ (List.mem_singleton_self _), rfl, rfl,
          work.attemptable⟩

/-- A receive returns or leaves each item that will be delivered, and returns
messages of rows it finds. -/
theorem receive_keeps {order : List WorkRow} (consistent : queue.Consistent)
    (moved : queue.step (.receive now [workType] batchSize visibility order) = some queue') :
    Thins queue queue' ∧
      (∀ row ∈ queue.workQueue, row.attempts < row.maxAttempts →
        row ∈ queue'.workQueue ∨
          ∃ item ∈ (DbQueue.receive now batchSize visibility order
            { queue with clock := now }).2, item.payload = row.payload) ∧
      ∀ item ∈ (DbQueue.receive now batchSize visibility order
          { queue with clock := now }).2,
        ∃ row ∈ queue.workQueue, item.id = row.id ∧ item.tenantId = row.tenantId ∧
          item.payload = row.payload := by
  have after := (DbQueue.step_simulated consistent moved).1
  have called := queue_step_some moved
  have ticked : DbQueue.Consistent { queue with clock := now } :=
    ⟨consistent.keyed, consistent.deadKeyed, consistent.issued,
      consistent.deadIssued, consistent.disjoint, consistent.withinBound⟩
  unfold DbQueue.call at called
  rcases Option.ite_none_right_eq_some.mp called with ⟨answers, made⟩
  cases made
  refine ⟨⟨after, ?_, ?_⟩, ?_, ?_⟩
  · have issued := DbQueue.receive_nextId now batchSize visibility order
      { queue with clock := now }
    exact Nat.le_of_eq issued.symm
  · intro row member
    have origin := DbQueue.origin_of_mem_receiveRows member
    exact origin
  · intro row member left
    rcases DbQueue.returned_or_stays ticked answers batchSize member left with
      returned | stays
    · exact .inr ⟨_, returned, rfl⟩
    · exact .inl stays
  · intro item returned
    exact DbQueue.origin_of_returned ticked answers batchSize returned

/-- A payload names one job. -/
theorem toVec_inj {first second : JobId}
    (same : json.toVec first = json.toVec second) : first = second := by
  have read := congrArg json.fromSlice same
  rw [json.roundTrip, json.roundTrip] at read
  exact Option.some.inj read

theorem Names.mono {jobs jobs' : List LoopJob} {tenant : TenantId}
    {payload : List UInt8} (names : Names json jobs tenant payload)
    (kept : ∀ id job, Table.find LoopJob.id jobs id = some job →
      ∃ row, Table.find LoopJob.id jobs' id = some row ∧ row.id = job.id ∧
        row.tenantId = job.tenantId) : Names json jobs' tenant payload := by
  rcases names with ⟨job, found, isTenant, isPayload⟩
  rcases kept job.id job found with ⟨row, foundRow, sameId, sameTenant⟩
  refine ⟨row, ?_, sameTenant.trans isTenant, ?_⟩
  · rw [sameId]
    exact foundRow
  · rw [sameId]
    exact isPayload

/-- A change of the jobs that keeps each and queues none keeps what a run
keeps, as far as new jobs are in good hands. -/
theorem JobDispatch.Sound.onJobs {system : JobDispatch} (sound : system.Sound json)
    {jobs : List LoopJob} {creating : List Creating}
    (keyed : Table.Keyed LoopJob.id jobs)
    (kept : ∀ id job, Table.find LoopJob.id system.jobs id = some job →
      ∃ row, Table.find LoopJob.id jobs id = some row ∧ row.id = job.id ∧
        row.tenantId = job.tenantId ∧ (row.state = .queued → job.state = .queued))
    (calls : ∀ call ∈ creating, call ∈ system.creating ∨ ∃ job,
      Table.find LoopJob.id jobs call.job = some job ∧ job.tenantId = call.tenant)
    (keptAfter : ∀ id, Kept json { system with jobs, creating } id) :
    JobDispatch.Sound json { system with jobs, creating } := by
  have names : ∀ {tenant payload}, Names json system.jobs tenant payload →
      Names json jobs tenant payload := by
    intro tenant payload before
    apply before.mono
    intro id job found
    rcases kept id job found with ⟨row, foundRow, sameId, sameTenant, _⟩
    exact ⟨row, foundRow, sameId, sameTenant⟩
  refine ⟨keyed, sound.consistent, ?_, ?_, ?_, keptAfter⟩
  · intro row member
    have before := sound.rows row member
    exact ⟨before.1, names before.2⟩
  · intro call member
    rcases calls call member with earlier | new
    · rcases sound.creating call earlier with ⟨job, found, isTenant⟩
      rcases kept call.job job found with ⟨row, foundRow, _, sameTenant, _⟩
      exact ⟨row, foundRow, sameTenant.trans isTenant⟩
    · exact new
  · intro batch member
    have before := sound.batches batch member
    constructor
    · intro item inLeft
      have itemSound := before.items item inLeft
      exact ⟨names itemSound.names, itemSound.issued, itemSound.own⟩
    · intro isRead item isHead id isPayload
      have notQueued := before.read isRead item isHead id isPayload
      have names := (before.items item (List.mem_of_mem_head? isHead)).names
      rcases names with ⟨job, found, _, payload⟩
      cases toVec_inj (isPayload.symm.trans payload)
      rcases kept job.id job found with ⟨row, foundRow, _, _, noneQueued⟩
      unfold stillQueued at notQueued ⊢
      rw [found] at notQueued
      rw [foundRow]
      by_contra queued
      rw [Bool.not_eq_false, Option.any_some, decide_eq_true_eq] at queued
      rw [Option.any_some, noneQueued queued] at notQueued
      contradiction

/-- A change of the queue and the calls keeps what a run keeps, as far as no job
is let go. -/
theorem JobDispatch.Sound.onQueue {system : JobDispatch} (sound : system.Sound json)
    {creating : List Creating} {batches : List Batch} (consistent : queue.Consistent)
    (origin : ∀ row ∈ queue.workQueue,
      (∃ before ∈ system.queue.workQueue, row.SameWork before) ∨
        (row.workType = workType ∧ Names json system.jobs row.tenantId row.payload))
    (calls : ∀ call ∈ creating, call ∈ system.creating)
    (isSound : ∀ batch ∈ batches, BatchSound json system.jobs queue batch)
    (keptAfter : ∀ id, Kept json { system with queue, creating, batches } id) :
    JobDispatch.Sound json { system with queue, creating, batches } where
  keyed := sound.keyed
  consistent := consistent
  rows := by
    intro row member
    rcases origin row member with ⟨before, present, same⟩ | new
    · have isBefore := sound.rows before present
      rw [same.2.1, same.2.2.1, same.2.2.2.1]
      exact isBefore
    · exact new
  creating := fun call member => sound.creating call (calls call member)
  batches := isSound
  kept := keptAfter

section Steps

variable {system : JobDispatch} {index : Nat}

/-- What a job rests on stays, or was the call at the index. -/
theorem Kept.settled {id : JobId} {next : Batch} (kept : Kept json system id)
    (present : system.batches[index]? = some batch)
    (rows : (∃ row ∈ system.queue.workQueue, carries json id row = true) →
      ∃ row ∈ queue.workQueue, carries json id row = true)
    (held : batch.holds json id = true →
      Kept json { system with queue, batches := system.batches.set index next } id) :
    Kept json { system with queue, batches := system.batches.set index next } id := by
  rcases kept with idle | row | call | holds
  · exact .inl idle
  · exact .inr (.inl (rows row))
  · exact .inr (.inr (.inl call))
  · rcases exists_mem_set next present holds with atIndex | stays
    · exact held atIndex
    · exact .inr (.inr (.inr stays))

/-- A new job is in the hands of its call. -/
theorem JobDispatch.Sound.create (sound : system.Sound json) {now : Jobs.Instant}
    {new : NewLoopJob} (fresh : Table.find LoopJob.id system.jobs new.id = none) :
    JobDispatch.Sound json
      { system with
        jobs := system.jobs ++ [Jobs.Repo.create now new]
        creating := system.creating ++ [{ job := new.id, tenant := new.tenant }] } := by
  have finds : ∀ id job, Table.find LoopJob.id system.jobs id = some job →
      Table.find LoopJob.id (system.jobs ++ [Jobs.Repo.create now new]) id =
        some job := by
    intro id job found
    rw [Table.find_insert, found, Option.some_or]
  apply sound.onJobs
  · exact sound.keyed.insert fresh
  · exact fun id job found => ⟨job, finds id job found, rfl, rfl, fun queued => queued⟩
  · intro call member
    rcases List.mem_append.mp member with earlier | isNew
    · exact .inl earlier
    · rw [List.mem_singleton.mp isNew]
      right
      refine ⟨Jobs.Repo.create now new, ?_, rfl⟩
      rw [Table.find_insert, fresh, Option.none_or]
      exact if_pos rfl
  · intro id
    by_cases isNew : id = new.id
    · right; right; left
      exact ⟨_, List.mem_append_right _ (List.mem_singleton_self _), isNew.symm⟩
    · rcases sound.kept id with idle | row | ⟨call, member, isJob⟩ | holds
      · left
        have other : (Jobs.Repo.create now new).id ≠ id := Ne.symm isNew
        unfold stillQueued at idle ⊢
        dsimp only
        rw [Table.find_insert, if_neg other, Option.or_none]
        exact idle
      · exact .inr (.inl row)
      · exact .inr (.inr (.inl ⟨call, List.mem_append_left _ member, isJob⟩))
      · exact .inr (.inr (.inr holds))

/-- The item of a new job, or a call that stops without it. -/
theorem JobDispatch.Sound.enqueueCreated (sound : system.Sound json) {call : Creating}
    (present : system.creating[index]? = some call)
    (moved : queueCall system.queue
      (.enqueue now system.queue.nextId
        (NewWork.new call.tenant workType (json.toVec call.job))) lands = some queue)
    (handedOn : lands = false →
      Kept json { system with creating := system.creating.eraseIdx index } call.job) :
    JobDispatch.Sound json
      { system with queue, creating := system.creating.eraseIdx index } := by
  rcases enqueue_keeps sound.consistent moved with ⟨descends, stays, origin, adds⟩
  apply sound.onQueue descends.consistent
  · intro row member
    rcases origin row member with earlier | ⟨isType, isTenant, isPayload⟩
    · exact .inl ⟨row, earlier, .refl row⟩
    · rcases sound.creating call (List.mem_of_getElem? present) with
        ⟨job, found, sameTenant⟩
      have sameId := (Table.find_some found).2
      right
      refine ⟨isType, job, ?_, ?_, ?_⟩
      · rw [sameId]
        exact found
      · rw [isTenant]
        exact sameTenant
      · rw [isPayload, sameId]
        rfl
  · exact fun other member => List.mem_of_mem_eraseIdx member
  · exact fun batch member => (sound.batches batch member).descends descends
  · intro id
    have rowsStay : (∃ row ∈ system.queue.workQueue, carries json id row = true) →
        ∃ row ∈ queue.workQueue, carries json id row = true := by
      rintro ⟨row, member, carried⟩
      exact ⟨row, stays row member, carried⟩
    rcases sound.kept id with idle | row | creates | holds
    · exact .inl idle
    · exact .inr (.inl (rowsStay row))
    · rcases exists_mem_eraseIdx present creates with isCall | others
      · subst isCall
        cases lands with
        | true =>
            rcases adds rfl with ⟨row, member, isType, isPayload, left⟩
            right; left
            refine ⟨row, member, ?_⟩
            simp only [carries, isType, isPayload, NewWork.new, left, decide_true,
              Bool.and_self]
        | false =>
            rcases handedOn rfl with idle | row | others | holds
            · exact .inl idle
            · exact .inr (.inl (rowsStay row))
            · exact .inr (.inr (.inl others))
            · exact .inr (.inr (.inr holds))
      · exact .inr (.inr (.inl others))
    · exact .inr (.inr (.inr holds))

/-- What a receive takes, its batch holds. -/
theorem JobDispatch.Sound.receive (sound : system.Sound json)
    {order : List WorkRow} {items : List WorkEnvelope}
    (moved : system.queue.step (.receive now [workType] batchSize visibility order) =
      some queue)
    (isItems : (DbQueue.receive now batchSize visibility order
      { system.queue with clock := now }).2 = items) (batches : List Batch)
    (taken : batches = system.batches ++
      [{ left := items, swept := [], failed := [], stage := .sweep items }] ∨
        (items = [] ∧ batches = system.batches)) :
    JobDispatch.Sound json { system with queue, batches } := by
  rcases receive_keeps sound.consistent moved with ⟨thins, stays, returned⟩
  rw [isItems] at stays returned
  apply sound.onQueue thins.consistent
  · exact fun row member => .inl (thins.origin row member)
  · exact fun _ member => member
  · have earlier : ∀ batch ∈ system.batches,
        BatchSound json system.jobs queue batch :=
      fun batch member => (sound.batches batch member).descends thins.descends
    intro batch member
    rcases taken with rfl | ⟨_, rfl⟩
    · rcases List.mem_append.mp member with before | new
      · exact earlier batch before
      · rw [List.mem_singleton.mp new]
        refine ⟨?_, nofun⟩
        intro item inItems
        rcases returned item inItems with ⟨row, present, sameId, sameTenant, payload⟩
        have isSound : ItemSound json system.jobs system.queue item := by
          refine ⟨?_, ?_, ?_⟩
          · rw [sameTenant, payload]
            exact (sound.rows row present).2
          · rw [sameId]
            exact sound.consistent.issued row present
          · intro other isRow same
            have found := sound.consistent.keyed.find_of_mem present
            rw [← sameId, ← same, sound.consistent.keyed.find_of_mem isRow] at found
            rw [Option.some.inj found, payload]
        exact isSound.descends thins.descends
    · exact earlier batch member
  · intro id
    have batchesStay : ∀ batch ∈ system.batches, batch ∈ batches := by
      intro batch member
      rcases taken with rfl | ⟨_, rfl⟩
      · exact List.mem_append_left _ member
      · exact member
    rcases sound.kept id with idle | ⟨row, member, carried⟩ | call |
      ⟨batch, member, holds⟩
    · exact .inl idle
    · have parts := carried
      simp only [carries, Bool.and_eq_true, decide_eq_true_eq] at parts
      rcases stays row member parts.2 with still | ⟨item, inItems, samePayload⟩
      · exact .inr (.inl ⟨row, still, carried⟩)
      · rcases taken with rfl | ⟨none, _⟩
        · right; right; right
          refine ⟨_, List.mem_append_right _ (List.mem_singleton_self _), ?_⟩
          apply List.any_eq_true.mpr
          exact ⟨item, inItems, decide_eq_true (samePayload.trans parts.1.2)⟩
        · rw [none] at inItems
          contradiction
    · exact .inr (.inr (.inl call))
    · exact .inr (.inr (.inr ⟨batch, batchesStay batch member, holds⟩))

/-- A pass is the environment's, and its batch holds what it held. -/
theorem JobDispatch.Sound.sweepItem (sound : system.Sound json)
    {batch next : Batch} (present : system.batches[index]? = some batch)
    (sameLeft : next.left = batch.left) (notRead : next.stage ≠ .ack false) :
    JobDispatch.Sound json
      { system with batches := system.batches.set index next } := by
  have batchSound := sound.batches batch (List.mem_of_getElem? present)
  apply sound.onQueue sound.consistent
  · exact fun row member => .inl ⟨row, member, .refl row⟩
  · exact fun _ member => member
  · apply forall_mem_set sound.batches
    constructor
    · rw [sameLeft]
      exact batchSound.items
    · exact fun isRead => absurd isRead notRead
  · intro id
    apply (sound.kept id).settled present (fun row => row)
    intro held
    right; right; right
    refine ⟨next, mem_set_self present next, ?_⟩
    unfold Batch.holds at held ⊢
    rw [sameLeft]
    exact held

/-- The payload of a batch's item is read as its job's id. -/
theorem JobDispatch.Sound.reads (sound : system.Sound json) (member : batch ∈ system.batches)
    (inLeft : item ∈ batch.left) :
    ∃ job, Table.find LoopJob.id system.jobs job.id = some job ∧
      job.tenantId = item.tenantId ∧ item.payload = json.toVec job.id ∧
      json.fromSlice item.payload = some job.id := by
  rcases ((sound.batches batch member).items item inLeft).names with
    ⟨job, found, isTenant, isPayload⟩
  refine ⟨job, found, isTenant, isPayload, ?_⟩
  rw [isPayload, json.roundTrip]

/-- The item done with, the batch holds what it held but that item. -/
theorem Batch.holds_settled {rest : List WorkEnvelope} {id : JobId}
    (isLeft : batch.left = item :: rest) (held : batch.holds json id = true) :
    item.payload = json.toVec id ∨ batch.settled.holds json id = true := by
  unfold Batch.holds at held ⊢
  rw [isLeft, List.any_cons, Bool.or_eq_true, decide_eq_true_eq] at held
  rcases held with isItem | others
  · exact .inl isItem
  · right
    unfold Batch.settled
    rw [isLeft]
    exact others

/-- The first half of `settle`. -/
theorem JobDispatch.Sound.settleItem (sound : system.Sound json) {reads lands : Bool}
    {after : JobDispatch} (present : system.batches[index]? = some batch)
    (moved : JobDispatch.settleItem json index now reads lands system batch = some after)
    (handedOn : HandedOn json system (.settleItem index now reads lands) after) :
    after.Sound json := by
  have member := List.mem_of_getElem? present
  have batchSound := sound.batches batch member
  have condition := handedOn batch present
  unfold JobDispatch.settleItem at moved
  cases isLeft : batch.left with
  | nil =>
      rw [isLeft] at moved
      cases moved
      apply sound.onQueue sound.consistent
      · exact fun row member => .inl ⟨row, member, .refl row⟩
      · exact fun _ member => member
      · exact fun other isOther =>
          sound.batches other (List.mem_of_mem_eraseIdx isOther)
      · intro id
        rcases sound.kept id with idle | row | call | holds
        · exact .inl idle
        · exact .inr (.inl row)
        · exact .inr (.inr (.inl call))
        · rcases exists_mem_eraseIdx present holds with atIndex | stays
          · unfold Batch.holds at atIndex
            rw [isLeft] at atIndex
            contradiction
          · exact .inr (.inr (.inr stays))
  | cons item rest =>
      have inLeft : item ∈ batch.left := isLeft ▸ List.mem_cons_self ..
      rcases sound.reads member inLeft with ⟨job, found, isTenant, isPayload, isRead⟩
      rw [isLeft] at moved
      dsimp only at moved
      rw [isRead] at moved
      dsimp only at moved
      split at moved
      · -- The item is given back.
        rename_i gives
        rcases Option.map_eq_some_iff.mp moved with ⟨queue, called, rfl⟩
        rcases requeue_keeps sound.consistent called with ⟨thins, stays⟩
        apply sound.onQueue thins.consistent
        · exact fun row isRow => .inl (thins.origin row isRow)
        · exact fun _ isCall => isCall
        · apply forall_mem_set
          · exact fun other isOther =>
              (sound.batches other isOther).descends thins.descends
          · exact (batchSound.descends thins.descends).settled
        · intro id
          apply (sound.kept id).settled present (stays id)
          intro held
          rcases Batch.holds_settled isLeft held with isItem | others
          · have same : job.id = id := toVec_inj (isPayload.symm.trans isItem)
            subst same
            have left : batch.failed.contains item.tenantId = true ∨ reads = false := by
              simpa using gives
            rcases condition item (by rw [isLeft]; rfl) left job.id isRead with
              idle | row | call | holds
            · exact .inl idle
            · exact .inr (.inl (stays _ row))
            · exact .inr (.inr (.inl call))
            · exact .inr (.inr (.inr holds))
          · exact .inr (.inr (.inr ⟨_, mem_set_self present _, others⟩))
      · -- The job is read.
        cases moved
        apply sound.onQueue sound.consistent
        · exact fun row isRow => .inl ⟨row, isRow, .refl row⟩
        · exact fun _ isCall => isCall
        · apply forall_mem_set sound.batches
          refine ⟨fun other inItems => batchSound.items other (isLeft ▸ inItems), ?_⟩
          intro isAck other isHead id payload
          cases isHead
          have same : job.id = id := toVec_inj (isPayload.symm.trans payload)
          subst same
          have notQueued := BatchStage.ack.inj isAck
          unfold JobDispatch.readsQueued at notQueued
          unfold stillQueued
          rw [found] at notQueued ⊢
          simpa [isTenant] using notQueued
        · intro id
          apply (sound.kept id).settled present fun row => row
          intro held
          unfold Batch.holds at held
          rw [isLeft] at held
          exact .inr (.inr (.inr ⟨_, mem_set_self present _, held⟩))

/-- The ack of an item whose job is kept by another item, or waits no longer. -/
theorem JobDispatch.Sound.ackItem (sound : system.Sound json) {lands stillWaits : Bool}
    {rest : List WorkEnvelope} (present : system.batches[index]? = some batch)
    (atAck : batch.stage = .ack stillWaits) (isLeft : batch.left = item :: rest)
    (moved : queueCall system.queue (.ack now item.id) lands = some queue) :
    JobDispatch.Sound json
      { system with
        queue
        batches := system.batches.set index
          (if stillWaits then { batch with stage := .rearm } else batch.settled) } := by
  have member := List.mem_of_getElem? present
  have batchSound := sound.batches batch member
  have inLeft : item ∈ batch.left := isLeft ▸ List.mem_cons_self ..
  have itemSound := batchSound.items item inLeft
  rcases ack_keeps sound.consistent moved with ⟨thins, stays⟩
  -- The item's own job: it is to be enqueued again, or it waits no longer.
  have own : ∀ id, item.payload = json.toVec id →
      stillQueued system.jobs id = false ∨
        Batch.holds json id
          (if stillWaits then { batch with stage := .rearm } else batch.settled) =
            true := by
    intro id payload
    cases stillWaits with
    | true =>
        right
        apply List.any_eq_true.mpr
        exact ⟨item, inLeft, decide_eq_true payload⟩
    | false =>
        left
        apply batchSound.read atAck item _ id payload
        rw [isLeft]
        rfl
  apply sound.onQueue thins.consistent
  · exact fun row isRow => .inl (thins.origin row isRow)
  · exact fun _ isCall => isCall
  · apply forall_mem_set
    · exact fun other isOther => (sound.batches other isOther).descends thins.descends
    · cases stillWaits with
      | true => exact ⟨(batchSound.descends thins.descends).items, nofun⟩
      | false => exact (batchSound.descends thins.descends).settled
  · intro id
    have handed : item.payload = json.toVec id →
        Kept json
          { system with
            queue
            batches := system.batches.set index
              (if stillWaits then { batch with stage := .rearm }
              else batch.settled) } id := by
      intro payload
      rcases own id payload with idle | holds
      · exact .inl idle
      · exact .inr (.inr (.inr ⟨_, mem_set_self present _, holds⟩))
    rcases sound.kept id with idle | ⟨row, isRow, carried⟩ | call | holds
    · exact .inl idle
    · by_cases isItem : row.id = item.id
      · apply handed
        have payload := itemSound.own row isRow isItem
        simp only [carries, Bool.and_eq_true, decide_eq_true_eq] at carried
        rw [← payload]
        exact carried.1.2
      · exact .inr (.inl ⟨row, stays row isRow isItem, carried⟩)
    · exact .inr (.inr (.inl call))
    · rcases exists_mem_set _ present holds with atIndex | others
      · rcases Batch.holds_settled isLeft atIndex with isItem | later
        · exact handed isItem
        · right; right; right
          refine ⟨_, mem_set_self present _, ?_⟩
          cases stillWaits with
          | true => exact atIndex
          | false => exact later
      · exact .inr (.inr (.inr others))

/-- The next item of a job that could not be placed, or a call that stops without
it. -/
theorem JobDispatch.Sound.rearmItem (sound : system.Sound json) {rest : List WorkEnvelope}
    (present : system.batches[index]? = some batch)
    (isLeft : batch.left = item :: rest)
    (moved : queueCall system.queue
      (.enqueue now system.queue.nextId
        ((NewWork.new item.tenantId workType item.payload).setDelay retryDelay))
      lands = some queue)
    (handedOn : lands = false → ∀ id ∈ json.fromSlice item.payload,
      Kept json
        { system with batches := system.batches.set index batch.settled } id) :
    JobDispatch.Sound json
      { system with queue, batches := system.batches.set index batch.settled } := by
  have member := List.mem_of_getElem? present
  have batchSound := sound.batches batch member
  have inLeft : item ∈ batch.left := isLeft ▸ List.mem_cons_self ..
  rcases sound.reads member inLeft with ⟨job, found, isTenant, isPayload, isRead⟩
  rcases enqueue_keeps sound.consistent moved with ⟨descends, stays, origin, adds⟩
  have rowsStay : ∀ id, (∃ row ∈ system.queue.workQueue, carries json id row = true) →
      ∃ row ∈ queue.workQueue, carries json id row = true := by
    rintro id ⟨row, isRow, carried⟩
    exact ⟨row, stays row isRow, carried⟩
  apply sound.onQueue descends.consistent
  · intro row isRow
    rcases origin row isRow with earlier | ⟨isType, sameTenant, samePayload⟩
    · exact .inl ⟨row, earlier, .refl row⟩
    · right
      refine ⟨isType, job, found, ?_, ?_⟩
      · rw [sameTenant]
        exact isTenant
      · rw [samePayload]
        exact isPayload
  · exact fun _ isCall => isCall
  · apply forall_mem_set
    · exact fun other isOther => (sound.batches other isOther).descends descends
    · exact (batchSound.descends descends).settled
  · intro id
    apply (sound.kept id).settled present (rowsStay id)
    intro held
    rcases Batch.holds_settled isLeft held with isItem | others
    · cases lands with
      | true =>
          rcases adds rfl with ⟨row, isRow, isType, samePayload, left⟩
          right; left
          refine ⟨row, isRow, ?_⟩
          simp only [carries, isType, samePayload, NewWork.new, NewWork.setDelay,
            isItem, left, decide_true, Bool.and_self]
      | false =>
          have same : job.id = id := toVec_inj (isPayload.symm.trans isItem)
          rcases handedOn rfl id (same ▸ isRead) with idle | row | call | holds
          · exact .inl idle
          · exact .inr (.inl (rowsStay id row))
          · exact .inr (.inr (.inl call))
          · exact .inr (.inr (.inr holds))
    · exact .inr (.inr (.inr ⟨_, mem_set_self present _, others⟩))

/-- A batch that stops, its items in other hands. -/
theorem JobDispatch.Sound.fail (sound : system.Sound json)
    (present : system.batches[index]? = some batch)
    (handedOn : ∀ item ∈ batch.left, ∀ id ∈ json.fromSlice item.payload,
      Kept json { system with batches := system.batches.eraseIdx index } id) :
    JobDispatch.Sound json
      { system with batches := system.batches.eraseIdx index } := by
  apply sound.onQueue sound.consistent
  · exact fun row isRow => .inl ⟨row, isRow, .refl row⟩
  · exact fun _ isCall => isCall
  · exact fun other isOther => sound.batches other (List.mem_of_mem_eraseIdx isOther)
  · intro id
    rcases sound.kept id with idle | row | call | holds
    · exact .inl idle
    · exact .inr (.inl row)
    · exact .inr (.inr (.inl call))
    · rcases exists_mem_eraseIdx present holds with atIndex | others
      · rcases List.any_eq_true.mp atIndex with ⟨item, inLeft, payload⟩
        apply handedOn item inLeft id
        rw [of_decide_eq_true payload]
        exact json.roundTrip id
      · exact .inr (.inr (.inr others))

/-- An UPDATE of a job queues none. -/
theorem JobDispatch.Sound.update (sound : system.Sound json) (id : JobId) (change : JobUpdate) :
    JobDispatch.Sound json
      { system with jobs := onJob id change.update system.jobs } := by
  have keepsId : ∀ job : LoopJob, ((change.update job).getD job).id = job.id :=
    fun job => (change.advances.keeps job).1
  apply sound.onJobs
  · exact sound.keyed.update fun job _ => keepsId job
  · intro other job found
    unfold onJob
    rw [Table.find_update fun job _ => keepsId job, found]
    split
    · refine ⟨_, rfl, keepsId job, ?_, ?_⟩
      · dsimp only
        cases written : change.update job with
        | none => rfl
        | some row => exact JobUpdate.tenantId_eq written
      · intro queued
        by_contra notQueued
        exact (change.advances.keeps job).2 notQueued queued
    · exact ⟨job, rfl, rfl, rfl, fun queued => queued⟩
  · exact fun _ isCall => .inl isCall
  · intro other
    rcases sound.kept other with idle | rest
    · left
      by_contra queued
      rw [Bool.not_eq_false] at queued
      rw [stillQueued_onJob change.advances queued] at idle
      contradiction
    · exact .inr rest

/-- A step that meets the condition keeps what a run keeps. -/
theorem JobDispatch.Sound.step {label : JobDispatchStep} {after : JobDispatch}
    (sound : system.Sound json) (taken : system.step json label = some after)
    (handedOn : HandedOn json system label after) : after.Sound json := by
  cases label with
  | create now new =>
      rcases Option.ite_none_left_eq_some.mp taken with ⟨isNew, created⟩
      cases created
      exact sound.create (by simpa using isNew)
  | enqueueCreated index now lands =>
      rcases Option.bind_eq_some_iff.mp taken with ⟨call, present, rest⟩
      rcases Option.map_eq_some_iff.mp rest with ⟨queue, moved, rfl⟩
      exact sound.enqueueCreated present moved fun failed =>
        handedOn failed call present
  | receive now order =>
      rcases Option.map_eq_some_iff.mp taken with ⟨queue, moved, rfl⟩
      dsimp only
      split
      · rename_i none
        exact sound.receive moved rfl _ (.inr ⟨List.isEmpty_iff.mp none, rfl⟩)
      · exact sound.receive moved rfl _ (.inl rfl)
  | sweepItem index enabled succeeds =>
      rcases Option.bind_eq_some_iff.mp taken with ⟨batch, present, rest⟩
      rcases Option.map_eq_some_iff.mp rest with ⟨next, swept, rfl⟩
      unfold Batch.sweepItem at swept
      split at swept
      · cases swept
        exact sound.sweepItem present rfl nofun
      · split at swept
        · cases swept
          exact sound.sweepItem present rfl nofun
        · cases swept
          exact sound.sweepItem present rfl nofun
      · contradiction
      · contradiction
      · contradiction
  | settleItem index now reads lands =>
      rcases Option.bind_eq_some_iff.mp taken with ⟨batch, present, rest⟩
      split at rest
      · exact sound.settleItem present rest handedOn
      · contradiction
      · contradiction
      · contradiction
  | ackItem index now lands =>
      rcases Option.bind_eq_some_iff.mp taken with ⟨batch, present, rest⟩
      split at rest
      · rename_i stillWaits item others atAck isLeft
        rcases Option.map_eq_some_iff.mp rest with ⟨queue, moved, rfl⟩
        exact sound.ackItem present atAck isLeft moved
      · contradiction
  | rearmItem index now lands =>
      rcases Option.bind_eq_some_iff.mp taken with ⟨batch, present, rest⟩
      split at rest
      · rename_i item others atRearm isLeft
        rcases Option.map_eq_some_iff.mp rest with ⟨queue, moved, rfl⟩
        apply sound.rearmItem present isLeft moved
        intro failed
        apply handedOn failed batch present item
        rw [isLeft]
        rfl
      · contradiction
  | fail index =>
      rcases Option.map_eq_some_iff.mp taken with ⟨batch, present, rfl⟩
      exact sound.fail present (handedOn batch present)
  | update id change =>
      cases taken
      exact sound.update id change

/-- With no call in progress, what keeps a queued job is an item. -/
theorem JobDispatch.Sound.none_forgotten (sound : system.Sound json)
    (quiescent : system.Quiescent) :
    ∀ job ∈ system.jobs, job.state = .queued →
      ∃ row ∈ system.queue.workQueue, carries json job.id row = true := by
  rcases quiescent with ⟨noCalls, noBatches⟩
  intro job member queued
  have found := sound.keyed.find_of_mem member
  rcases sound.kept job.id with idle | row | ⟨call, isCall, _⟩ | ⟨batch, isBatch, _⟩
  · unfold stillQueued at idle
    rw [found, Option.any_some, queued] at idle
    contradiction
  · exact row
  · rw [noCalls] at isCall
    contradiction
  · rw [noBatches] at isBatch
    contradiction

end Steps

theorem empty_sound_dispatch : JobDispatch.empty.Sound json :=
  ⟨Table.keyed_nil, DbQueue.empty_consistent, nofun, nofun, nofun, fun _ => .inl rfl⟩

end Custody

/-- Along every run whose calls hand their jobs on, no queued job is left without
an item whenever no call is in progress. -/
theorem no_queued_job_forgotten (json : JobIdJson) (labels : List JobDispatchStep)
    (handedOn : Along (JobDispatch.step json) (HandedOn json) .empty labels) :
    Along (JobDispatch.step json) (NoneForgotten json) .empty labels := by
  apply handedOn.of_invariant (JobDispatch.Sound json)
  · exact fun _ _ _ sound taken condition => sound.step taken condition
  · intro before label after sound taken condition quiescent
    exact (sound.step taken condition).none_forgotten quiescent
  · exact empty_sound_dispatch

namespace UuidJson

/-- A hexadecimal digit in ASCII. -/
def hexByte (digit : Nat) : UInt8 :=
  UInt8.ofNat (if digit < 10 then 48 + digit else 87 + digit)

/-- The last so many hexadecimal digits of a number. -/
def hexDigits : Nat → Nat → List UInt8
  | 0, _ => []
  | count + 1, number => hexDigits count (number / 16) ++ [hexByte (number % 16)]

/-- The text of an id as a JSON string: hyphenated groups of digits in quotes.
An id has 128 bits; a longer number is given more digits. -/
def toVec (id : JobId) : List UInt8 :=
  34 :: (hexDigits (8 + id / 16 ^ 32) (id / 16 ^ 24) ++ 45 ::
    (hexDigits 4 (id / 16 ^ 20) ++ 45 :: (hexDigits 4 (id / 16 ^ 16) ++ 45 ::
      (hexDigits 4 (id / 16 ^ 12) ++ 45 :: hexDigits 12 id)))) ++ [34]

/-- Read one more byte of a number, past a hyphen. -/
def readByte (number : Nat) (byte : UInt8) : Nat :=
  if byte = 45 then number
  else number * 16 + (if byte < 58 then byte.toNat - 48 else byte.toNat - 87)

/-- Read the text of an id. -/
def fromSlice : List UInt8 → Option JobId
  | 34 :: text =>
      if text.getLast? = some 34 then some (text.dropLast.foldl readByte 0) else none
  | _ => none

theorem readByte_hexByte (number : Nat) {digit : Nat} (isDigit : digit < 16) :
    readByte number (hexByte digit) = number * 16 + digit := by
  interval_cases digit <;> rfl

theorem foldl_hexDigits (count number before : Nat) :
    (hexDigits count number).foldl readByte before =
      before * 16 ^ count + number % 16 ^ count := by
  induction count generalizing number with
  | zero => simp [hexDigits, Nat.mod_one]
  | succ count ih =>
      rw [hexDigits, List.foldl_append, ih, List.foldl_cons,
        List.foldl_nil, readByte_hexByte _ (Nat.mod_lt _ (by decide)), Nat.pow_succ',
        Nat.mod_mul]
      ring

theorem foldl_hyphen (text : List UInt8) (before : Nat) :
    (45 :: text).foldl readByte before = text.foldl readByte before := rfl

/-- The digits of the first group are enough for any id. -/
theorem first_group (id : JobId) :
    id / 16 ^ 24 % 16 ^ (8 + id / 16 ^ 32) = id / 16 ^ 24 := by
  apply Nat.mod_eq_of_lt
  have room : id / 16 ^ 32 < 16 ^ (id / 16 ^ 32) := Nat.lt_pow_self (by decide)
  have isBelow : id < 16 ^ 32 * 16 ^ (id / 16 ^ 32) := by
    have bound : id < 16 ^ 32 * (id / 16 ^ 32 + 1) :=
      Nat.lt_mul_div_succ id (by decide)
    exact Nat.lt_of_lt_of_le bound (Nat.mul_le_mul_left _ room)
  rw [Nat.div_lt_iff_lt_mul (by decide), Nat.pow_add, Nat.mul_right_comm]
  exact isBelow

theorem fromSlice_quoted (text : List UInt8) :
    fromSlice (34 :: (text ++ [34])) = some (text.foldl readByte 0) := by
  simp [fromSlice]

theorem roundTrip (id : JobId) : fromSlice (toVec id) = some id := by
  rw [toVec, List.cons_append, fromSlice_quoted]
  simp only [List.foldl_append, foldl_hyphen, foldl_hexDigits, first_group]
  congr 1
  omega

end UuidJson

/-- The texts `serde_json` writes and reads. -/
def uuidJson : JobIdJson :=
  { toVec := UuidJson.toVec, fromSlice := UuidJson.fromSlice
    roundTrip := UuidJson.roundTrip }

instance (system : JobDispatch) : Decidable system.Quiescent :=
  inferInstanceAs (Decidable (_ ∧ _))

instance (json : JobIdJson) (before : JobDispatch) (label : JobDispatchStep)
    (after : JobDispatch) : Decidable (NoneForgotten json before label after) :=
  inferInstanceAs (Decidable (after.Quiescent → ∀ job ∈ after.jobs, _ → _))

instance HandedOn.decidable (json : JobIdJson) :
    ∀ before label after, Decidable (HandedOn json before label after)
  | _, .enqueueCreated _ _ _, _ | _, .settleItem _ _ _ _, _ | _, .rearmItem _ _ _, _
  | _, .fail _, _ => by
      unfold HandedOn
      exact inferInstance
  | _, .create _ _, _ | _, .receive _ _, _ | _, .sweepItem _ _ _, _
  | _, .ackItem _ _ _, _ | _, .update _ _, _ => isTrue trivial

/-- The first item of job 1. -/
def firstItem : WorkRow :=
  { id := 0, tenantId := 1, workType := workType, payload := uuidJson.toVec 1
    attempts := 0, maxAttempts := 20, notBefore := 1, enqueuedAt := 1
    lockedUntil := none }

/-- A job is raised and delivered, nothing can place it, and its item is
acked. -/
def raisedAndAcked : List JobDispatchStep :=
  [.create 0 (newBuild 1), .enqueueCreated 0 1 true, .receive 2 [firstItem],
    .sweepItem 0 true true, .sweepItem 0 true true, .settleItem 0 3 true true,
    .ackItem 0 4 true]

/-- The condition is met where the next item is enqueued. -/
theorem no_queued_job_forgotten_rearmed :
    (run (JobDispatch.step uuidJson) .empty
        (raisedAndAcked ++ [.rearmItem 0 5 true, .settleItem 0 6 true true])).isSome =
      true ∧
    Along (JobDispatch.step uuidJson) (NoneForgotten uuidJson) .empty
      (raisedAndAcked ++ [.rearmItem 0 5 true, .settleItem 0 6 true true]) :=
  ⟨by decide, no_queued_job_forgotten uuidJson _ (by decide)⟩

/-- A call dies between its job's row and the item, and the consumer between the
ack of an item and the next: each leaves a queued job with no item. -/
theorem queued_job_forgotten :
    ¬ Along (JobDispatch.step uuidJson) (NoneForgotten uuidJson) .empty
        [.create 0 (newBuild 1), .enqueueCreated 0 1 false] ∧
      ¬ Along (JobDispatch.step uuidJson) (NoneForgotten uuidJson) .empty
        (raisedAndAcked ++ [.fail 0]) := by
  decide

end NookOs.Placement
