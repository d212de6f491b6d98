/-
Module: NookOs.Queue.Database
Purpose: The database queue backend, every statement of it, and its refinement
  of the at-least-once queue.
Trusted boundary: none
Main exports: DbQueue, DbQueue.step, DbQueue.happened, receive_envelopes, dbQueue_atLeastOnce
-/
import Mathlib.Data.Int.Order.Basic
import NookOs.Lib.AtLeastOnce
import NookOs.Lib.Table
import NookOs.Queue.Work

namespace NookOs.Queue

open Lib

/-!
`work_queue` holds what may still be delivered and `work_queue_dead` what may
not.  A `receive` is one transaction: it selects the visible rows of its types,
oldest first, and then retires or delivers each in turn.  Which of two equally
old rows comes first is the engine's choice, so the call carries the order the
engine answered in.
-/

/-- One row of `work_queue`. -/
structure WorkRow where
  id : MessageId
  tenantId : TenantId
  workType : WorkType
  payload : List UInt8
  attempts : Nat
  maxAttempts : Nat
  notBefore : Instant
  enqueuedAt : Instant
  lockedUntil : Option Instant
deriving DecidableEq

/-- The row as a delivery hands it out, before this delivery is counted. -/
def WorkRow.intoEnvelope (row : WorkRow) : WorkEnvelope :=
  { id := row.id
    tenantId := row.tenantId
    workType := row.workType
    payload := row.payload
    attempts := row.attempts
    maxAttempts := row.maxAttempts
    notBefore := row.notBefore
    enqueuedAt := row.enqueuedAt }

/-- The rows are of one message, with the work its enqueue set. -/
def WorkRow.SameWork (row other : WorkRow) : Prop :=
  row.id = other.id ∧ row.tenantId = other.tenantId ∧
    row.workType = other.workType ∧ row.payload = other.payload ∧
    row.maxAttempts = other.maxAttempts

theorem WorkRow.SameWork.refl (row : WorkRow) : row.SameWork row :=
  ⟨rfl, rfl, rfl, rfl, rfl⟩

theorem WorkRow.SameWork.trans {first second third : WorkRow}
    (one : first.SameWork second) (two : second.SameWork third) :
    first.SameWork third :=
  ⟨one.1.trans two.1, one.2.1.trans two.2.1, one.2.2.1.trans two.2.2.1,
    one.2.2.2.1.trans two.2.2.2.1, one.2.2.2.2.trans two.2.2.2.2⟩

/-- Count a delivery and hide the row until its deadline. -/
def WorkRow.countDelivery (deadline : Instant) (row : WorkRow) : WorkRow :=
  { row with attempts := row.attempts + 1, lockedUntil := some deadline }

/-- One row of `work_queue_dead`. -/
structure DeadRow where
  id : MessageId
  tenantId : TenantId
  workType : WorkType
  payload : List UInt8
  attempts : Nat
  maxAttempts : Nat
  enqueuedAt : Instant
  reason : String
deriving DecidableEq

/-- The two tables, the clock, and the id the next `Uuid::now_v7` returns. -/
structure DbQueue where
  workQueue : List WorkRow
  workQueueDead : List DeadRow
  clock : Instant
  nextId : MessageId
deriving DecidableEq

/-- The tables before any work. -/
def DbQueue.empty : DbQueue := ⟨[], [], 0, 0⟩

/-- A call by some consumer or producer, at the database's `now()`. -/
inductive Call where
  | enqueue (now : Instant) (id : MessageId) (work : NewWork)
  | receive (now : Instant) (types : List WorkType) (limit : Nat)
      (visibility : Duration) (order : List WorkRow)
  | ack (now : Instant) (id : MessageId)
  | nack (now : Instant) (id : MessageId) (disposition : Nack)
  | extendVisibility (now : Instant) (id : MessageId) (visibility : Duration)
deriving DecidableEq

/-- The `now()` of a call. -/
def Call.now : Call → Instant
  | .enqueue now _ _ | .receive now _ _ _ _ | .ack now _ | .nack now _ _
  | .extendVisibility now _ _ => now

namespace DbQueue

/-- Insert the work under a fresh id; work without a delay is visible at once. -/
def enqueue (now : Instant) (id : MessageId) (work : NewWork) (db : DbQueue) :
    DbQueue :=
  { db with
    workQueue := db.workQueue ++
      [{ id
         tenantId := work.tenantId
         workType := work.workType
         payload := work.payload
         attempts := 0
         maxAttempts := work.maxAttempts
         notBefore := (work.delay.map fun delay => now + delay).getD now
         enqueuedAt := now
         lockedUntil := none }]
    nextId := id + 1 }

/-- The `WHERE` clause of the claim. -/
def claimable (now : Instant) (types : List WorkType) (row : WorkRow) : Bool :=
  row.lockedUntil.all (· ≤ now) && row.notBefore ≤ now &&
    (types.isEmpty || row.workType ∈ types)

/-- Move a row to `work_queue_dead`; a no-op if the id is already gone. -/
def deadLetter (id : MessageId) (reason : String) (db : DbQueue) : DbQueue :=
  { db with
    workQueueDead := db.workQueueDead ++
      (Table.find WorkRow.id db.workQueue id).toList.map fun row =>
        { id := row.id
          tenantId := row.tenantId
          workType := row.workType
          payload := row.payload
          attempts := row.attempts
          maxAttempts := row.maxAttempts
          enqueuedAt := row.enqueuedAt
          reason }
    workQueue := Table.delete WorkRow.id id db.workQueue }

/-- `UPDATE work_queue SET … WHERE id = $1`. -/
def rewrite (id : MessageId) (change : WorkRow → WorkRow) (db : DbQueue) :
    DbQueue :=
  { db with workQueue := Table.update WorkRow.id id change db.workQueue }

/-- What a `receive` does with one candidate: retire it when earlier deliveries
used up its attempts, else count the delivery and hide it. -/
def receiveRow (now : Instant) (visibility : Duration) (row : WorkRow)
    (db : DbQueue) : DbQueue × Option WorkEnvelope :=
  if row.attempts ≥ row.maxAttempts then
    (db.deadLetter row.id "max attempts exhausted", none)
  else
    (db.rewrite row.id (WorkRow.countDelivery (now + visibility)),
      some { row.intoEnvelope with attempts := row.attempts + 1 })

/-- The loop of a `receive` over its candidates. -/
def receiveRows (now : Instant) (visibility : Duration) :
    List WorkRow → DbQueue → DbQueue × List WorkEnvelope
  | [], db => (db, [])
  | row :: rows, db =>
      let (afterRow, delivered) := receiveRow now visibility row db
      let (afterRows, rest) := receiveRows now visibility rows afterRow
      (afterRows, delivered.toList ++ rest)

/-- `order` is an answer to the claim's `SELECT … ORDER BY enqueued_at`, before
its `LIMIT`. -/
def Answers (now : Instant) (types : List WorkType) (order : List WorkRow)
    (db : DbQueue) : Prop :=
  order.Perm (db.workQueue.filter (claimable now types)) ∧
    order.Pairwise fun older newer => older.enqueuedAt ≤ newer.enqueuedAt

instance (now : Instant) (types : List WorkType) (order : List WorkRow)
    (db : DbQueue) : Decidable (Answers now types order db) :=
  inferInstanceAs (Decidable (_ ∧ _))

/-- One `receive`, the transaction as a whole. -/
def receive (now : Instant) (limit : Nat) (visibility : Duration)
    (order : List WorkRow) (db : DbQueue) : DbQueue × List WorkEnvelope :=
  receiveRows now visibility (order.take limit) db

/-- Delete a message; acking an id that is gone is a no-op. -/
def ack (id : MessageId) (db : DbQueue) : DbQueue :=
  { db with workQueue := Table.delete WorkRow.id id db.workQueue }

/-- Report a message the consumer could not finish. -/
def nack (id : MessageId) (disposition : Nack) (db : DbQueue) : DbQueue :=
  match disposition with
  | .requeue =>
      db.rewrite id fun stored => { stored with lockedUntil := none }
  | .dead reason => db.deadLetter id reason

/-- Move a message's visibility deadline to `visibility` from now. -/
def extendVisibility (now : Instant) (id : MessageId) (visibility : Duration)
    (db : DbQueue) : DbQueue :=
  db.rewrite id fun stored =>
    { stored with lockedUntil := some (now + visibility) }

/-- What a call writes, where `Uuid::now_v7` answered with its next id and the
engine answered a claim in a legitimate order. -/
def call (db : DbQueue) : Call → Option DbQueue
  | .enqueue now id work =>
      if id = db.nextId then some (db.enqueue now id work) else none
  | .receive now types limit visibility order =>
      if Answers now types order db then
        some (db.receive now limit visibility order).1
      else none
  | .ack _ id => some (db.ack id)
  | .nack _ id disposition => some (db.nack id disposition)
  | .extendVisibility now id visibility =>
      some (db.extendVisibility now id visibility)

/-- One call by any party; the clock never goes back. -/
def step (db : DbQueue) (request : Call) : Option DbQueue :=
  if db.clock ≤ request.now then
    call { db with clock := request.now } request
  else none

end DbQueue

section Refinement

open AtLeastOnce

namespace DbQueue

/-- What a call did to the messages it concerns.  A `receive` has delivered the
envelopes it returns and has exhausted the messages it puts into
`work_queue_dead`; any other call does what its caller asks for. -/
def happened (db : DbQueue) (request : Call) : List (Event MessageId Instant) :=
  match request with
  | .enqueue _ id work => [.enqueue id work.maxAttempts]
  | .receive now _ limit visibility order =>
      let ticked : DbQueue := { db with clock := now }
      let (after, returned) := ticked.receive now limit visibility order
      (returned.map fun item => .deliver item.id now (now + visibility)) ++
        (after.workQueueDead.drop db.workQueueDead.length).map fun dead =>
          .exhaust dead.id
  | .ack _ id => [.ack id]
  | .nack _ id .requeue => [.requeue id]
  | .nack _ id (.dead _) => [.kill id]
  | .extendVisibility now id visibility => [.extend id (now + visibility)]

/-- Where a message with this row in `work_queue`, if any, stands. -/
def standing (row : Option WorkRow) (inDead issued : Bool) : Status Instant :=
  match row with
  | some row => .held row.attempts row.maxAttempts row.lockedUntil
  | none => if inDead then .dead else if issued then .gone else .unknown

/-- Where a message stands, read off the two tables.  An id that was issued and
is in neither has been acknowledged. -/
def status (db : DbQueue) (id : MessageId) : Status Instant :=
  standing (Table.find WorkRow.id db.workQueue id)
    (Table.find DeadRow.id db.workQueueDead id).isSome (id < db.nextId)

/-- What every reachable state of the tables keeps. -/
structure Consistent (db : DbQueue) : Prop where
  keyed : Table.Keyed WorkRow.id db.workQueue
  deadKeyed : Table.Keyed DeadRow.id db.workQueueDead
  issued : ∀ row ∈ db.workQueue, row.id < db.nextId
  deadIssued : ∀ row ∈ db.workQueueDead, row.id < db.nextId
  disjoint : ∀ row ∈ db.workQueue,
    Table.find DeadRow.id db.workQueueDead row.id = none
  withinBound : ∀ row ∈ db.workQueue, row.attempts ≤ row.maxAttempts

theorem empty_consistent : empty.Consistent := by
  constructor <;> simp [empty, Table.Keyed]

variable {row : WorkRow}

section Rewrite

variable {db : DbQueue} {id : MessageId} {change : WorkRow → WorkRow}

theorem rewrite_consistent (consistent : db.Consistent)
    (keeps : ∀ row, (change row).id = row.id)
    (bounded : ∀ row ∈ db.workQueue, row.id = id →
      (change row).attempts ≤ (change row).maxAttempts) :
    (db.rewrite id change).Consistent := by
  have rewritten : ∀ row ∈ (db.rewrite id change).workQueue,
      ∃ stored ∈ db.workQueue, row.id = stored.id ∧
        row.attempts ≤ row.maxAttempts := by
    intro row member
    obtain ⟨stored, inQueue, rfl⟩ := List.mem_map.mp member
    refine ⟨stored, inQueue, ?_⟩
    by_cases hit : stored.id = id
    · simpa only [hit, if_true, keeps, true_and] using bounded stored inQueue hit
    · simpa only [hit, if_false, true_and] using
        consistent.withinBound stored inQueue
  refine ⟨consistent.keyed.update fun row _ => keeps row, consistent.deadKeyed,
    ?_, consistent.deadIssued, ?_, ?_⟩
  · intro row member
    obtain ⟨stored, inQueue, same, _⟩ := rewritten row member
    exact same ▸ consistent.issued stored inQueue
  · intro row member
    obtain ⟨stored, inQueue, same, _⟩ := rewritten row member
    exact same ▸ consistent.disjoint stored inQueue
  · intro row member
    obtain ⟨_, _, _, within⟩ := rewritten row member
    exact within

theorem status_rewrite_of_ne (keeps : ∀ row, (change row).id = row.id)
    {other : MessageId} (differs : other ≠ id) :
    (db.rewrite id change).status other = db.status other := by
  simp only [status, rewrite, Table.find_update fun row _ => keeps row, differs,
    if_false]
  rfl

theorem status_rewrite_self (keeps : ∀ row, (change row).id = row.id)
    (found : Table.find WorkRow.id db.workQueue id = some row) :
    (db.rewrite id change).status id =
      .held (change row).attempts (change row).maxAttempts
        (change row).lockedUntil := by
  simp only [status, rewrite, Table.find_update fun row _ => keeps row, found,
    if_true, Option.map_some, standing]

/-- A rewrite of a row that is not there changes nothing. -/
theorem status_rewrite_missing (keeps : ∀ row, (change row).id = row.id)
    (missing : Table.find WorkRow.id db.workQueue id = none) :
    (db.rewrite id change).status id = db.status id := by
  simp only [status, rewrite, Table.find_update fun row _ => keeps row, missing,
    if_true, Option.map_none]
  rfl

end Rewrite

section Removal

variable {db : DbQueue} {id : MessageId}

theorem ack_consistent (consistent : db.Consistent) :
    (db.ack id).Consistent := by
  have kept : ∀ row ∈ (db.ack id).workQueue, row ∈ db.workQueue :=
    fun row member => List.mem_of_mem_filter member
  exact
    { keyed := consistent.keyed.delete
      deadKeyed := consistent.deadKeyed
      issued := fun row member => consistent.issued row (kept row member)
      deadIssued := consistent.deadIssued
      disjoint := fun row member => consistent.disjoint row (kept row member)
      withinBound := fun row member =>
        consistent.withinBound row (kept row member) }

theorem deadLetter_consistent (consistent : db.Consistent) (reason : String) :
    (db.deadLetter id reason).Consistent := by
  cases found : Table.find WorkRow.id db.workQueue id with
  | none =>
      have same : db.deadLetter id reason = db.ack id := by
        simp [deadLetter, ack, found]
      rw [same]
      exact ack_consistent consistent
  | some row =>
      obtain ⟨member, rfl⟩ := Table.find_some found
      have kept : ∀ other ∈ (db.deadLetter row.id reason).workQueue,
          other ∈ db.workQueue ∧ other.id ≠ row.id := by
        intro other inQueue
        simpa [deadLetter, Table.delete] using inQueue
      refine ⟨consistent.keyed.delete, ?_, ?_, ?_, ?_, ?_⟩
      · simp only [deadLetter, found, Option.toList_some, List.map_singleton]
        exact consistent.deadKeyed.insert (consistent.disjoint row member)
      · intro other inQueue
        exact consistent.issued other (kept other inQueue).1
      · intro dead inDead
        simp only [deadLetter, found, Option.toList_some, List.map_singleton,
          List.mem_append, List.mem_singleton] at inDead
        rcases inDead with earlier | rfl
        · exact consistent.deadIssued dead earlier
        · exact consistent.issued row member
      · intro other inQueue
        obtain ⟨before, differs⟩ := kept other inQueue
        simp only [deadLetter, found, Option.toList_some, List.map_singleton,
          Table.find_insert, consistent.disjoint other before, Option.none_or,
          Ne.symm differs, if_false]
      · intro other inQueue
        exact consistent.withinBound other (kept other inQueue).1

theorem status_ack_of_ne {other : MessageId} (differs : other ≠ id) :
    (db.ack id).status other = db.status other := by
  simp only [status, ack, Table.find_delete, differs, if_false]
  rfl

theorem status_deadLetter_of_ne {reason : String} {other : MessageId} (differs : other ≠ id) :
    (db.deadLetter id reason).status other = db.status other := by
  cases found : Table.find WorkRow.id db.workQueue id with
  | none =>
      simp only [status, deadLetter, Table.find_delete, differs, if_false, found,
        Option.toList_none, List.map_nil, List.append_nil]
  | some row =>
      have sameId := (Table.find_some found).2
      simp only [status, deadLetter, Table.find_delete, differs, if_false, found,
        Option.toList_some, List.map_singleton, Table.find_insert, sameId,
        Ne.symm differs, Option.or_none]

theorem status_of_find (found : Table.find WorkRow.id db.workQueue id = some row) :
    db.status id = .held row.attempts row.maxAttempts row.lockedUntil := by
  simp only [status, found, standing]

/-- A message with a row in `work_queue` leaves it acknowledged. -/
theorem status_ack_self (consistent : db.Consistent)
    (found : Table.find WorkRow.id db.workQueue id = some row) :
    (db.ack id).status id = .gone := by
  obtain ⟨member, rfl⟩ := Table.find_some found
  simp [status, ack, Table.find_delete, consistent.disjoint row member,
    consistent.issued row member, standing]

/-- A message with a row in `work_queue` is dead once it is dead-lettered. -/
theorem status_deadLetter_self {reason : String}
    (found : Table.find WorkRow.id db.workQueue id = some row) :
    (db.deadLetter id reason).status id = .dead := by
  have sameId := (Table.find_some found).2
  simp [status, deadLetter, Table.find_delete, found, Table.find_insert, sameId,
    standing]

/-- A message without a row in `work_queue` is not held, and removing it
changes nothing. -/
theorem status_of_missing (missing : Table.find WorkRow.id db.workQueue id = none) :
    (∀ delivered bound hiddenUntil,
      db.status id ≠ .held delivered bound hiddenUntil) ∧
      (db.ack id).status id = db.status id ∧
      ∀ reason, (db.deadLetter id reason).status id = db.status id := by
  refine ⟨?_, ?_, ?_⟩
  · intro delivered bound hiddenUntil
    simp only [status, missing, standing]
    split
    · simp
    · split <;> simp
  · simp only [status, ack, Table.find_delete, missing, if_true]
    rfl
  · intro reason
    simp only [status, deadLetter, Table.find_delete, missing, if_true,
      Option.toList_none, List.map_nil, List.append_nil]

end Removal

variable {types : List WorkType}

section Simulation

variable {db : DbQueue}

/-- A call that names a message which is not held is ignored by the abstract
queue too, unless it enqueues, delivers or exhausts it. -/
theorem advance_of_not_held {status : Status Instant} {event : Event MessageId Instant}
    (notHeld : ∀ delivered bound hiddenUntil, status ≠ .held delivered bound hiddenUntil)
    (stale : match event with | .requeue _ | .extend _ _ | .kill _ | .ack _ => True | _ => False) :
    advance status event = some status := by
  cases status with
  | held delivered bound hiddenUntil =>
      exact absurd rfl (notHeld delivered bound hiddenUntil)
  | _ => cases event <;> first | rfl | exact False.elim stale

theorem ack_simulated (consistent : db.Consistent) (id : MessageId) :
    AtLeastOnce.step db.status (.ack id) = some (db.ack id).status := by
  refine step_of_advance ?_ fun other => status_ack_of_ne
  cases found : Table.find WorkRow.id db.workQueue id with
  | some row =>
      rw [Event.id, status_of_find found, status_ack_self consistent found]
      rfl
  | none =>
      obtain ⟨notHeld, same, _⟩ := status_of_missing found
      rw [Event.id, same]
      exact advance_of_not_held notHeld trivial

theorem kill_simulated (id : MessageId) (reason : String) :
    AtLeastOnce.step db.status (.kill id) =
      some (db.deadLetter id reason).status := by
  refine step_of_advance ?_ fun other => status_deadLetter_of_ne
  cases found : Table.find WorkRow.id db.workQueue id with
  | some row =>
      rw [Event.id, status_of_find found, status_deadLetter_self found]
      rfl
  | none =>
      obtain ⟨notHeld, _, same⟩ := status_of_missing found
      rw [Event.id, same]
      exact advance_of_not_held notHeld trivial

/-- A rewrite that moves the deadline is the event that moves it. -/
theorem rewrite_simulated {id : MessageId} {change : WorkRow → WorkRow}
    {event : Event MessageId Instant} (aboutId : event.id = id)
    (keeps : ∀ row, (change row).id = row.id)
    (stale : match event with
      | .requeue _ | .extend _ _ => True
      | _ => False)
    (moved : ∀ row,
      advance (.held row.attempts row.maxAttempts row.lockedUntil) event =
        some (.held (change row).attempts (change row).maxAttempts
          (change row).lockedUntil)) :
    AtLeastOnce.step db.status event = some (db.rewrite id change).status := by
  subst aboutId
  refine step_of_advance ?_ fun other => status_rewrite_of_ne keeps
  cases found : Table.find WorkRow.id db.workQueue event.id with
  | some row =>
      rw [status_of_find found, status_rewrite_self keeps found]
      exact moved row
  | none =>
      obtain ⟨notHeld, _⟩ := status_of_missing found
      rw [status_rewrite_missing keeps found]
      refine advance_of_not_held notHeld ?_
      cases event <;> trivial

/-- The event of one candidate of a `receive`. -/
def candidateEvent (now : Instant) (visibility : Duration) (row : WorkRow) :
    Event MessageId Instant :=
  if row.attempts ≥ row.maxAttempts then .exhaust row.id
  else .deliver row.id now (now + visibility)

theorem candidateEvent_id (now : Instant) (visibility : Duration)
    (row : WorkRow) : (candidateEvent now visibility row).id = row.id := by
  unfold candidateEvent
  split <;> rfl

variable {now : Instant}

/-- The candidates of a `receive` are different messages. -/
theorem candidateEvents_apart {visibility : Duration}
    {rows : List WorkRow} (distinct : Table.Keyed WorkRow.id rows) :
    (rows.map (candidateEvent now visibility)).Pairwise fun first second =>
      first.id ≠ second.id := by
  rw [List.pairwise_map]
  simp only [candidateEvent_id]
  exact List.pairwise_map.mp distinct

/-- What a `receive` does with a claimable row it still finds in the table is
the row's event. -/
theorem receiveRow_simulated (consistent : db.Consistent) (visibility : Duration)
    (member : row ∈ db.workQueue) (visible : ∀ hidden ∈ row.lockedUntil, hidden ≤ now) :
    (receiveRow now visibility row db).1.Consistent ∧
      AtLeastOnce.step db.status (candidateEvent now visibility row) =
        some (receiveRow now visibility row db).1.status := by
  have found := consistent.keyed.find_of_mem member
  by_cases exhausted : row.attempts ≥ row.maxAttempts
  · have atBound : row.attempts = row.maxAttempts :=
      Nat.le_antisymm (consistent.withinBound row member) exhausted
    simp only [receiveRow, candidateEvent, exhausted, if_true]
    refine ⟨deadLetter_consistent consistent _,
      step_of_advance ?_ fun other => status_deadLetter_of_ne⟩
    simp only [Event.id]
    rw [status_of_find found, status_deadLetter_self found]
    simp [advance, atBound]
  · have keeps : ∀ stored : WorkRow,
        (stored.countDelivery (now + visibility)).id = stored.id := fun _ => rfl
    simp only [receiveRow, candidateEvent, exhausted, if_false]
    refine ⟨rewrite_consistent consistent keeps ?_,
      step_of_advance ?_ fun other => status_rewrite_of_ne keeps⟩
    · intro stored inQueue sameId
      have same : stored = row := by
        have again := consistent.keyed.find_of_mem inQueue
        rw [sameId, found] at again
        exact (Option.some.inj again).symm
      subst same
      simp only [WorkRow.countDelivery]
      omega
    · simp only [Event.id]
      rw [status_of_find found]
      rw [status_rewrite_self keeps found, advance,
        if_pos ⟨by omega, visible⟩]
      rfl

/-- Handling one candidate leaves the rows of the others alone. -/
theorem mem_receiveRow_of_ne {visibility : Duration} {row other : WorkRow}
    (member : other ∈ db.workQueue) (differs : other.id ≠ row.id) :
    other ∈ (receiveRow now visibility row db).1.workQueue := by
  unfold receiveRow
  split
  · exact List.mem_filter.mpr ⟨member, by simpa using differs⟩
  · refine List.mem_map.mpr ⟨other, member, ?_⟩
    simp [differs]

/-- The loop of a `receive` is the run of its candidates' events. -/
theorem receiveRows_simulated (consistent : db.Consistent) {visibility : Duration}
    {rows : List WorkRow} (distinct : Table.Keyed WorkRow.id rows)
    (claimed : ∀ row ∈ rows, row ∈ db.workQueue ∧ ∀ hidden ∈ row.lockedUntil, hidden ≤ now) :
    (receiveRows now visibility rows db).1.Consistent ∧
      run AtLeastOnce.step db.status (rows.map (candidateEvent now visibility)) =
        some (receiveRows now visibility rows db).1.status := by
  induction rows generalizing db with
  | nil => exact ⟨consistent, rfl⟩
  | cons row rows ih =>
      obtain ⟨inQueue, visible⟩ := claimed row (List.mem_cons_self ..)
      obtain ⟨afterRow, moved⟩ :=
        receiveRow_simulated consistent visibility inQueue visible
      obtain ⟨absent, restDistinct⟩ := List.nodup_cons.mp distinct
      have restClaimed : ∀ other ∈ rows,
          other ∈ (receiveRow now visibility row db).1.workQueue ∧
            ∀ hidden ∈ other.lockedUntil, hidden ≤ now := by
        intro other member
        obtain ⟨stillIn, stillVisible⟩ :=
          claimed other (List.mem_cons_of_mem _ member)
        refine ⟨mem_receiveRow_of_ne stillIn ?_, stillVisible⟩
        intro same
        exact absent (same ▸ List.mem_map_of_mem member)
      obtain ⟨afterRows, rest⟩ :=
        ih afterRow restDistinct restClaimed
      exact ⟨afterRows, run_cons_iff.mpr ⟨_, moved, rest⟩⟩

/-- The envelopes a `receive` returns are the deliveries among its candidates'
events. -/
theorem returned_events {visibility : Duration} (rows : List WorkRow) :
    ((receiveRows now visibility rows db).2.map fun item =>
        Event.deliver item.id now (now + visibility)) =
      (rows.map (candidateEvent now visibility)).filter Event.isDelivery := by
  induction rows generalizing db with
  | nil => rfl
  | cons row rows ih =>
      rw [receiveRows, List.map_cons]
      simp only [List.map_append, ih]
      unfold receiveRow
      rw [candidateEvent]
      by_cases exhausted : row.attempts ≥ row.maxAttempts
      · rw [if_pos exhausted, if_pos exhausted]
        rfl
      · rw [if_neg exhausted, if_neg exhausted]
        rfl

/-- The rows a `receive` puts into `work_queue_dead` are the other events of its
candidates. -/
theorem retired_events {visibility : Duration} {rows : List WorkRow}
    (distinct : Table.Keyed WorkRow.id rows) (claimed : ∀ row ∈ rows, row ∈ db.workQueue) :
    ∃ retired,
      (receiveRows now visibility rows db).1.workQueueDead =
          db.workQueueDead ++ retired ∧
        (retired.map fun dead => Event.exhaust dead.id) =
          (rows.map (candidateEvent now visibility)).filter (! ·.isDelivery) := by
  induction rows generalizing db with
  | nil => exact ⟨[], (List.append_nil _).symm, rfl⟩
  | cons row rows ih =>
      obtain ⟨absent, restDistinct⟩ := List.nodup_cons.mp distinct
      have restClaimed : ∀ other ∈ rows,
          other ∈ (receiveRow now visibility row db).1.workQueue := by
        intro other member
        apply mem_receiveRow_of_ne (claimed other (List.mem_cons_of_mem _ member))
        intro same
        exact absent (same ▸ List.mem_map_of_mem member)
      obtain ⟨retired, after, rest⟩ := ih restDistinct restClaimed
      have here : ∃ dead : List DeadRow,
          (receiveRow now visibility row db).1.workQueueDead =
              db.workQueueDead ++ dead ∧
            (dead.map fun dead => Event.exhaust dead.id) =
              [candidateEvent now visibility row].filter (! ·.isDelivery) := by
        by_cases exhausted : row.attempts ≥ row.maxAttempts
        · simp only [receiveRow, candidateEvent, exhausted, if_true, deadLetter]
          refine ⟨_, rfl, ?_⟩
          cases found : Table.find WorkRow.id db.workQueue row.id with
          | none =>
              have inQueue := claimed row (List.mem_cons_self ..)
              exact absurd rfl (Table.find_none_iff.mp found row inQueue)
          | some stored => simp [(Table.find_some found).2, Event.isDelivery]
        · simp only [receiveRow, candidateEvent, exhausted, if_false]
          exact ⟨[], (List.append_nil _).symm, rfl⟩
      obtain ⟨dead, deadAfter, deadEvents⟩ := here
      refine ⟨dead ++ retired, ?_, ?_⟩
      · rw [receiveRows, ← List.append_assoc, ← deadAfter]
        exact after
      · rw [List.map_append, deadEvents, rest, List.map_cons, ← List.filter_append,
          List.singleton_append]

/-- What a `receive` did is its candidates' events, the deliveries first. -/
theorem happened_receive {limit : Nat} {visibility : Duration} {order : List WorkRow}
    (distinct : Table.Keyed WorkRow.id (order.take limit))
    (claimed : ∀ row ∈ order.take limit, row ∈ db.workQueue) :
    ((order.take limit).map (candidateEvent now visibility)).Perm
      (db.happened (.receive now types limit visibility order)) := by
  let ticked : DbQueue := { db with clock := now }
  have inTicked : ∀ row ∈ order.take limit, row ∈ ticked.workQueue := claimed
  obtain ⟨retired, after, exhausted⟩ :=
    @retired_events ticked now visibility _ distinct inTicked
  simp only [happened, receive, returned_events]
  rw [after, List.drop_left, exhausted]
  exact (List.filter_append_perm _ _).symm

/-- The candidates of an answered `receive` are distinct visible rows. -/
theorem claimed_of_answers (consistent : db.Consistent) {order : List WorkRow}
    (answers : Answers now types order db) (limit : Nat) :
    Table.Keyed WorkRow.id (order.take limit) ∧
      ∀ row ∈ order.take limit,
        row ∈ db.workQueue ∧ ∀ hidden ∈ row.lockedUntil, hidden ≤ now := by
  have keyed : Table.Keyed WorkRow.id order := by
    refine (answers.1.map WorkRow.id).nodup_iff.mpr ?_
    exact consistent.keyed.sublist (List.filter_sublist.map _)
  refine ⟨keyed.sublist ((List.take_sublist ..).map _), ?_⟩
  intro row member
  have selected := answers.1.mem_iff.mp (List.mem_of_mem_take member)
  obtain ⟨inQueue, passes⟩ := List.mem_filter.mp selected
  refine ⟨inQueue, ?_⟩
  intro hidden locked
  simp only [claimable, Bool.and_eq_true] at passes
  rw [locked] at passes
  simpa using passes.1.1

theorem enqueue_simulated (consistent : db.Consistent) (now : Instant) (work : NewWork) :
    (db.enqueue now db.nextId work).Consistent ∧
      AtLeastOnce.step db.status (.enqueue db.nextId work.maxAttempts) =
        some (db.enqueue now db.nextId work).status := by
  have fresh : Table.find WorkRow.id db.workQueue db.nextId = none := by
    refine Table.find_none_iff.mpr fun row member same => ?_
    exact Nat.lt_irrefl _ (same ▸ consistent.issued row member)
  have freshDead : Table.find DeadRow.id db.workQueueDead db.nextId = none := by
    refine Table.find_none_iff.mpr fun row member same => ?_
    exact Nat.lt_irrefl _ (same ▸ consistent.deadIssued row member)
  constructor
  · refine ⟨consistent.keyed.insert fresh, consistent.deadKeyed, ?_, ?_, ?_, ?_⟩
    · intro row member
      simp only [enqueue, List.mem_append, List.mem_singleton] at member
      rcases member with earlier | rfl
      · exact Nat.lt_succ_of_lt (consistent.issued row earlier)
      · exact Nat.lt_succ_self _
    · intro row member
      exact Nat.lt_succ_of_lt (consistent.deadIssued row member)
    · intro row member
      simp only [enqueue, List.mem_append, List.mem_singleton] at member
      rcases member with earlier | rfl
      · exact consistent.disjoint row earlier
      · exact freshDead
    · intro row member
      simp only [enqueue, List.mem_append, List.mem_singleton] at member
      rcases member with earlier | rfl
      · exact consistent.withinBound row earlier
      · exact Nat.zero_le _
  · refine step_of_advance ?_ ?_
    · simp [Event.id, status, enqueue, Table.find_insert, fresh, freshDead,
        standing, advance]
    · intro other differs
      simp only [Event.id] at differs
      have issued : other < db.nextId + 1 ↔ other < db.nextId :=
        Nat.lt_succ_iff_lt_or_eq.trans (or_iff_left differs)
      simp only [status, enqueue, Table.find_insert, Ne.symm differs, if_false,
        Option.or_none, issued]

/-- One call is the run of its events, and keeps the tables consistent. -/
theorem step_simulated {before after : DbQueue} {request : Call} (consistent : before.Consistent)
    (taken : step before request = some after) :
    after.Consistent ∧
      run AtLeastOnce.step before.status (before.happened request) =
        some after.status := by
  obtain ⟨_, called⟩ := Option.ite_none_right_eq_some.mp taken
  -- moving the clock leaves the tables, and so every message, where they were
  have ticked : Consistent { before with clock := request.now } :=
    ⟨consistent.keyed, consistent.deadKeyed, consistent.issued,
      consistent.deadIssued, consistent.disjoint, consistent.withinBound⟩
  have single : ∀ {event : Event MessageId Instant} {queue : DbQueue},
      AtLeastOnce.step before.status event = some queue.status →
        run AtLeastOnce.step before.status [event] = some queue.status :=
    fun moved => run_cons_iff.mpr ⟨_, moved, rfl⟩
  cases request with
  | enqueue now id work =>
      obtain ⟨generated, made⟩ := Option.ite_none_right_eq_some.mp called
      simp only at generated
      subst generated
      cases made
      obtain ⟨kept, moved⟩ := enqueue_simulated ticked now work
      exact ⟨kept, single moved⟩
  | receive now types limit visibility order =>
      obtain ⟨answers, made⟩ := Option.ite_none_right_eq_some.mp called
      cases made
      obtain ⟨distinct, claimed⟩ := claimed_of_answers ticked answers limit
      obtain ⟨kept, moved⟩ := receiveRows_simulated ticked distinct claimed
      have perm : ((order.take limit).map (candidateEvent now visibility)).Perm
          (before.happened (.receive now types limit visibility order)) :=
        happened_receive distinct fun row member => (claimed row member).1
      refine ⟨kept, ?_⟩
      rw [← run_perm perm (candidateEvents_apart distinct)]
      exact moved
  | ack now id =>
      cases called
      exact ⟨ack_consistent ticked, single (ack_simulated ticked id)⟩
  | extendVisibility now id visibility =>
      cases called
      refine ⟨rewrite_consistent ticked (fun _ => rfl) ?_, single ?_⟩
      · intro row member _
        exact ticked.withinBound row member
      · exact rewrite_simulated rfl (fun _ => rfl) trivial fun _ => rfl
  | nack now id disposition =>
      cases disposition with
      | requeue =>
          cases called
          refine ⟨rewrite_consistent ticked (fun _ => rfl) ?_, single ?_⟩
          · intro row member _
            exact ticked.withinBound row member
          · exact rewrite_simulated rfl (fun _ => rfl) trivial fun _ => rfl
      | dead reason =>
          cases called
          exact ⟨deadLetter_consistent ticked reason,
            single (kill_simulated id reason)⟩

end Simulation

section Delivery

variable {db : DbQueue} {now : Instant} {visibility : Duration}

/-- The envelopes a `receive` returns are its candidates that are delivered, in
order, with this delivery counted. -/
theorem receive_envelopes (limit : Nat) (order : List WorkRow) :
    (db.receive now limit visibility order).2 =
      (order.take limit).filterMap fun row =>
        if row.attempts ≥ row.maxAttempts then none
        else some { row.intoEnvelope with attempts := row.attempts + 1 } := by
  unfold receive
  generalize order.take limit = rows
  induction rows generalizing db with
  | nil => rfl
  | cons row rows ih =>
      rw [receiveRows, List.filterMap_cons]
      simp only [ih, receiveRow]
      by_cases exhausted : row.attempts ≥ row.maxAttempts <;>
        simp [exhausted]

/-- A candidate is retired only when it has used up its attempts. -/
theorem retired_of_mem_receiveRow {dead : DeadRow}
    (retired : dead ∈ (receiveRow now visibility row db).1.workQueueDead) :
    dead ∈ db.workQueueDead ∨
      (row.id = dead.id ∧ row.attempts ≥ row.maxAttempts) := by
  unfold receiveRow at retired
  split at retired
  · rename_i exhausted
    simp only [deadLetter, List.mem_append, List.mem_map,
      Option.mem_toList] at retired
    rcases retired with before | ⟨stored, found, rfl⟩
    · exact .inl before
    · exact .inr ⟨(Table.find_some found).2.symm, exhausted⟩
  · exact .inl retired

/-- A message a `receive` retires had used up its attempts. -/
theorem retired_of_mem_receiveRows {rows : List WorkRow} {dead : DeadRow}
    (retired : dead ∈ (receiveRows now visibility rows db).1.workQueueDead) :
    dead ∈ db.workQueueDead ∨
      ∃ row ∈ rows, row.id = dead.id ∧ row.attempts ≥ row.maxAttempts := by
  induction rows generalizing db with
  | nil => exact .inl retired
  | cons row rows ih =>
      rcases ih retired with earlier | ⟨other, member, found⟩
      · rcases retired_of_mem_receiveRow earlier with before | exhausted
        · exact .inl before
        · exact .inr ⟨row, List.mem_cons_self .., exhausted⟩
      · exact .inr ⟨other, List.mem_cons_of_mem _ member, found⟩

theorem receiveRows_nextId (rows : List WorkRow) :
    (receiveRows now visibility rows db).1.nextId = db.nextId := by
  induction rows generalizing db with
  | nil => rfl
  | cons row rows ih =>
      rw [receiveRows]
      dsimp only
      rw [ih]
      unfold receiveRow
      split <;> rfl

/-- A `receive` issues no id. -/
theorem receive_nextId (now : Instant) (limit : Nat) (visibility : Duration)
    (order : List WorkRow) (db : DbQueue) :
    (db.receive now limit visibility order).1.nextId = db.nextId :=
  receiveRows_nextId _

/-- A `receive` leaves a row that is none of its candidates as it is. -/
theorem mem_receiveRows_of_ne {rows : List WorkRow} {other : WorkRow}
    (member : other ∈ db.workQueue) (differs : ∀ row ∈ rows, other.id ≠ row.id) :
    other ∈ (receiveRows now visibility rows db).1.workQueue := by
  induction rows generalizing db with
  | nil => exact member
  | cons row rows ih =>
      apply ih
      · exact mem_receiveRow_of_ne member (differs row (List.mem_cons_self ..))
      · exact fun later inRows => differs later (List.mem_cons_of_mem _ inRows)

/-- Every row a rewrite leaves was there, of the same work. -/
theorem origin_of_mem_rewrite {id : MessageId} {change : WorkRow → WorkRow}
    (keeps : ∀ row, (change row).SameWork row) (member : row ∈ (db.rewrite id change).workQueue) :
    ∃ before ∈ db.workQueue, row.SameWork before := by
  rcases List.mem_map.mp member with ⟨before, present, rfl⟩
  refine ⟨before, present, ?_⟩
  split
  · exact keeps before
  · exact .refl before

theorem origin_of_mem_receiveRow {candidate row : WorkRow}
    (member : row ∈ (receiveRow now visibility candidate db).1.workQueue) :
    ∃ before ∈ db.workQueue, row.SameWork before := by
  unfold receiveRow at member
  split at member
  · exact ⟨row, List.mem_of_mem_filter member, .refl row⟩
  · have keeps : ∀ stored : WorkRow,
        (stored.countDelivery (now + visibility)).SameWork stored :=
      fun _ => ⟨rfl, rfl, rfl, rfl, rfl⟩
    exact origin_of_mem_rewrite keeps member

/-- Every row a `receive` leaves was there, of the same work. -/
theorem origin_of_mem_receiveRows {rows : List WorkRow}
    (member : row ∈ (receiveRows now visibility rows db).1.workQueue) :
    ∃ before ∈ db.workQueue, row.SameWork before := by
  induction rows generalizing db with
  | nil => exact ⟨row, member, .refl row⟩
  | cons candidate rows ih =>
      rcases ih member with ⟨middle, inMiddle, same⟩
      rcases origin_of_mem_receiveRow inMiddle with ⟨before, present, earlier⟩
      exact ⟨before, present, same.trans earlier⟩

/-- A row with an attempt left is returned by the `receive`, or stays as it
is. -/
theorem returned_or_stays (consistent : db.Consistent) {order : List WorkRow}
    (answers : Answers now types order db) (limit : Nat) (member : row ∈ db.workQueue)
    (left : row.attempts < row.maxAttempts) :
    { row.intoEnvelope with attempts := row.attempts + 1 } ∈
        (db.receive now limit visibility order).2 ∨
      row ∈ (db.receive now limit visibility order).1.workQueue := by
  rcases claimed_of_answers consistent answers limit with ⟨_, claimed⟩
  by_cases candidate : row ∈ order.take limit
  · left
    rw [receive_envelopes]
    apply List.mem_filterMap.mpr
    exact ⟨row, candidate, if_neg (Nat.not_le.mpr left)⟩
  · right
    apply mem_receiveRows_of_ne member
    intro other inOrder sameId
    have found := consistent.keyed.find_of_mem member
    rw [sameId, consistent.keyed.find_of_mem (claimed other inOrder).1] at found
    exact candidate (Option.some.inj found ▸ inOrder)

/-- What a `receive` returns is a row's work. -/
theorem origin_of_returned (consistent : db.Consistent) {order : List WorkRow}
    (answers : Answers now types order db) (limit : Nat) {item : WorkEnvelope}
    (returned : item ∈ (db.receive now limit visibility order).2) :
    ∃ row ∈ db.workQueue, item.id = row.id ∧ item.tenantId = row.tenantId ∧
      item.payload = row.payload := by
  rcases claimed_of_answers consistent answers limit with ⟨_, claimed⟩
  rw [receive_envelopes] at returned
  rcases List.mem_filterMap.mp returned with ⟨row, candidate, made⟩
  rw [Option.ite_none_left_eq_some] at made
  rw [← Option.some.inj made.2]
  exact ⟨row, (claimed row candidate).1, rfl, rfl, rfl⟩

end Delivery

/-- A step dead-letters a message only by `nack(Dead)`, or by a `receive` that
found its attempts used up. -/
def RetiresJustly (before : DbQueue) (request : Call) (after : DbQueue) : Prop :=
  ∀ dead ∈ after.workQueueDead,
    dead ∈ before.workQueueDead ∨
    (∃ now reason, request = .nack now dead.id (.dead reason)) ∨
    ∃ now types limit visibility order,
      request = .receive now types limit visibility order ∧
      ∃ row ∈ before.workQueue,
        row.id = dead.id ∧ row.attempts = row.maxAttempts

theorem step_retiresJustly {before after : DbQueue} {request : Call}
    (consistent : before.Consistent) (taken : step before request = some after) :
    RetiresJustly before request after := by
  obtain ⟨_, called⟩ := Option.ite_none_right_eq_some.mp taken
  intro dead member
  cases request with
  | enqueue now id work =>
      obtain ⟨_, made⟩ := Option.ite_none_right_eq_some.mp called
      cases made
      exact .inl member
  | ack | extendVisibility =>
      cases called
      exact .inl member
  | nack now id disposition =>
      cases disposition with
      | requeue =>
          cases called
          exact .inl member
      | dead reason =>
          cases called
          simp only [nack, deadLetter, List.mem_append, List.mem_map,
            Option.mem_toList] at member
          rcases member with earlier | ⟨stored, found, rfl⟩
          · exact .inl earlier
          · have sameId := (Table.find_some found).2
            exact .inr (.inl ⟨now, reason, by rw [sameId]⟩)
  | receive now types limit visibility order =>
      obtain ⟨answers, made⟩ := Option.ite_none_right_eq_some.mp called
      cases made
      have ticked : Consistent { before with clock := now } :=
        ⟨consistent.keyed, consistent.deadKeyed, consistent.issued,
          consistent.deadIssued, consistent.disjoint, consistent.withinBound⟩
      obtain ⟨_, claimed⟩ := claimed_of_answers ticked answers limit
      rcases retired_of_mem_receiveRows member with earlier | ⟨row, candidate, sameId, exhausted⟩
      · exact .inl earlier
      · have inQueue := (claimed row candidate).1
        exact .inr (.inr ⟨now, types, limit, visibility, order, rfl, row, inQueue,
          sameId, Nat.le_antisymm (consistent.withinBound row inQueue) exhausted⟩)

/-- A message is in custody exactly when one of the tables has it. -/
theorem inCustody_iff {db : DbQueue} {id : MessageId} :
    (db.status id).InCustody ↔
      (∃ row ∈ db.workQueue, row.id = id) ∨
        ∃ dead ∈ db.workQueueDead, dead.id = id := by
  cases found : Table.find WorkRow.id db.workQueue id with
  | some row =>
      obtain ⟨member, sameId⟩ := Table.find_some found
      rw [status_of_find found]
      exact iff_of_true trivial (.inl ⟨row, member, sameId⟩)
  | none =>
      have missing := Table.find_none_iff.mp found
      cases foundDead : Table.find DeadRow.id db.workQueueDead id with
      | some dead =>
          obtain ⟨member, sameId⟩ := Table.find_some foundDead
          refine iff_of_true ?_ (.inr ⟨dead, member, sameId⟩)
          simp [status, found, foundDead, standing, Status.InCustody]
      | none =>
          have missingDead := Table.find_none_iff.mp foundDead
          refine iff_of_false ?_ ?_
          · simp only [status, found, foundDead, standing, Option.isSome_none,
              Bool.false_eq_true, if_false]
            split <;> exact not_false
          · rintro (⟨row, member, sameId⟩ | ⟨dead, member, sameId⟩)
            · exact missing row member sameId
            · exact missingDead dead member sameId

end DbQueue

/-- Only an `ack` call acknowledges. -/
theorem ack_of_mem_happened {db : DbQueue} {request : Call} {id : MessageId}
    (acked : .ack id ∈ db.happened request) : ∃ now, request = .ack now id := by
  cases request with
  | ack now other =>
      cases List.mem_singleton.mp acked
      exact ⟨now, rfl⟩
  | receive now types limit visibility order =>
      rcases List.mem_append.mp acked with delivered | exhausted
      · obtain ⟨item, _, same⟩ := List.mem_map.mp delivered
        cases same
      · obtain ⟨dead, _, same⟩ := List.mem_map.mp exhausted
        cases same
  | nack now other disposition =>
      cases disposition <;> cases List.mem_singleton.mp acked
  | enqueue | extendVisibility => cases List.mem_singleton.mp acked

/-- Everything the calls of a run did to the messages, in order. -/
def history (calls : List Call) : List (Event MessageId Instant) :=
  traceOf DbQueue.step DbQueue.happened DbQueue.empty calls

theorem history_refines {calls : List Call} {final : DbQueue}
    (ran : run DbQueue.step DbQueue.empty calls = some final) :
    run AtLeastOnce.step (fun _ => .unknown) (history calls) =
      some final.status :=
  run_simulates DbQueue.status DbQueue.happened DbQueue.Consistent
    (fun _ _ _ => DbQueue.step_simulated) DbQueue.empty_consistent ran

/-- The queue refines an at-least-once queue: the history of every run, whose
deliveries are the envelopes its `receive`s returned, is a trace of the abstract
machine.  In the tables' own terms, an enqueued message is in exactly one of
them until it is acked; it is delivered at most `max_attempts` times; between
two deliveries of it lies a `nack`, or the visibility deadline in force at the
second has passed; and it is dead-lettered only by `nack(Dead)` or by a
`receive` that found its attempts used up. -/
theorem dbQueue_atLeastOnce {calls : List Call} {final : DbQueue}
    (ran : run DbQueue.step DbQueue.empty calls = some final) :
    run AtLeastOnce.step (fun _ => .unknown) (history calls) =
        some final.status ∧
      (∀ now id work, .enqueue now id work ∈ calls →
        (∀ now, .ack now id ∉ calls) →
          (∃ row ∈ final.workQueue, row.id = id) ∨
            ∃ dead ∈ final.workQueueDead, dead.id = id) ∧
      (∀ row ∈ final.workQueue, ∀ dead ∈ final.workQueueDead,
        row.id ≠ dead.id) ∧
      (∀ now id work, .enqueue now id work ∈ calls →
        deliveries (about id (history calls)) ≤ work.maxAttempts) ∧
      (∀ id before first deadline between second nextDeadline after,
        history calls = before ++ .deliver id first deadline ::
          (between ++ .deliver id second nextDeadline :: after) →
        .requeue id ∈ between ∨
          deadlineAfter deadline (about id between) ≤ second) ∧
      Along DbQueue.step DbQueue.RetiresJustly DbQueue.empty calls := by
  have refines := history_refines ran
  have guarantees := guarantees_of_run refines
  have consistent : final.Consistent :=
    run_invariant DbQueue.Consistent
      (fun _ _ _ holds taken => (DbQueue.step_simulated holds taken).1)
      DbQueue.empty_consistent ran
  have enqueued : ∀ {now id work}, .enqueue now id work ∈ calls →
      .enqueue id work.maxAttempts ∈ history calls := by
    intro now id work member
    exact mem_traceOf ran member fun _ => List.mem_singleton.mpr rfl
  refine ⟨refines, ?_, ?_, ?_, guarantees.separated, ?_⟩
  · intro now id work member unacked
    refine DbQueue.inCustody_iff.mp
      (guarantees.custody id _ (enqueued member) ?_)
    intro acked
    obtain ⟨request, inCalls, before, isAck⟩ := label_of_mem_traceOf acked
    obtain ⟨ackedAt, rfl⟩ := ack_of_mem_happened isAck
    exact unacked ackedAt inCalls
  · intro row member dead deadMember same
    exact Table.find_none_iff.mp (consistent.disjoint row member) dead deadMember
      same.symm
  · intro now id work member
    exact guarantees.bounded id _ (enqueued member)
  · exact along_of_invariant DbQueue.Consistent
      (fun _ _ _ holds taken => (DbQueue.step_simulated holds taken).1)
      (fun _ _ _ => DbQueue.step_retiresJustly) DbQueue.empty_consistent

/-- A message capped at two attempts, delivered twice: the first consumer lets
its deadline pass, and a third `receive` retires the message. -/
def cappedAtTwo : List Call :=
  let work := (NewWork.new 1 "loop.job" []).setMaxAttempts 2
  let row (attempts : Nat) (lockedUntil : Option Instant) : WorkRow :=
    { id := 0, tenantId := 1, workType := "loop.job", payload := []
      attempts, maxAttempts := 2, notBefore := 5, enqueuedAt := 5, lockedUntil }
  [.enqueue 5 0 work,
    .receive 6 ["loop.job"] 10 30 [row 0 none],
    .receive 20 ["loop.job"] 10 30 [],
    .receive 36 [] 10 30 [row 1 (some 36)],
    .nack 40 0 .requeue,
    .receive 41 [] 10 30 [row 2 none]]

theorem dbQueue_atLeastOnce_cappedAtTwo :
    ∃ final, run DbQueue.step DbQueue.empty cappedAtTwo = some final ∧
      final.workQueue = [] ∧ final.workQueueDead.map DeadRow.id = [0] ∧
      deliveries (about 0 (history cappedAtTwo)) ≤ 2 := by
  refine ⟨_, rfl, rfl, rfl, ?_⟩
  exact (@dbQueue_atLeastOnce cappedAtTwo _ rfl).2.2.2.1 5 0
    ((NewWork.new 1 "loop.job" []).setMaxAttempts 2) (List.mem_cons_self ..)

end Refinement

end NookOs.Queue
