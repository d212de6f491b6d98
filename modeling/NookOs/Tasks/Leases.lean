/-
Module: NookOs.Tasks.Leases
Purpose: Every repository write of a card's column, assignee or lease, in any
  order, and exactly when a lease lives only on started and assigned work.
Trusted boundary: none
Main exports: LeaseWrite, LeaseWrite.apply, Leasing.step, LeaseOnStarted, leases_on_started_iff
-/
import NookOs.Lib.Run
import NookOs.Tasks.Task

namespace NookOs.Tasks

open Lib
open Jobs (Instant TenantId TaskId UserId NodeId)

/-!
A drag, a PATCH and the bulk move write through `update_fields`; the automation
and the MCP move through `set_column`.  The reaper's scan only chooses the ids
its UPDATE is run for, and the UPDATE checks the whole predicate again.
-/

/-- One statement that writes a card's column, assignee or lease. -/
inductive LeaseWrite where
  | createTask (now : Instant) (id : TaskId) (number : Int) (new : NewTask)
  | updateFields (id : TaskId) (tenant : TenantId) (now : Instant) (edit : TaskEdit)
  | releaseAssignment (id : TaskId) (tenant : TenantId) (now : Instant)
  | releaseClaimOf (id : TaskId) (tenant : TenantId) (holder : UserId) (now : Instant)
  | assignNodeAndColumn (id : TaskId) (now : Instant) (node : NodeId)
      (column : Option ColumnId)
  | recordStartedWork (id : TaskId) (now : Instant) (work : StartedWork)
  | setPrUrl (id : TaskId) (now : Instant) (url : String) (column : ColumnId)
  | completeIfInFlight (id : TaskId) (tenant : TenantId) (now : Instant)
      (column : ColumnId)
  | setColumn (id : TaskId) (now : Instant) (column : ColumnId)
  | renewClaim (id : TaskId) (tenant : TenantId) (now : Instant) (ttlSecs : Int)
  | claimTask (id : TaskId) (tenant : TenantId) (now : Instant) (assignee : UserId)
      (column : Option ColumnId) (leaseSecs : Option Int)
  | reapLapsedClaims (id : TaskId) (now : Instant) (graceSecs : Int)
      (sessions : SessionId → Option SessionRow)

namespace LeaseWrite

/-- The row a WHERE clause names: by id, and by tenant where the statement
carries one. -/
def names : LeaseWrite → TaskItem → Bool
  | .createTask .., _ => false
  | .updateFields id tenant .., row
  | .releaseAssignment id tenant .., row
  | .releaseClaimOf id tenant .., row
  | .completeIfInFlight id tenant .., row
  | .renewClaim id tenant .., row
  | .claimTask id tenant .., row => row.id = id && row.tenantId = tenant
  | .assignNodeAndColumn id .., row
  | .recordStartedWork id .., row
  | .setPrUrl id .., row
  | .setColumn id .., row
  | .reapLapsedClaims id .., row => row.id = id

variable (columns : List BoardColumn)

/-- What the statement computes for the row it names. -/
def statement : LeaseWrite → TaskItem → Option TaskItem
  | .createTask .., _ => none
  | .updateFields _ _ now edit, row => Repo.updateFields now edit row
  | .releaseAssignment _ _ now, row => some (Repo.releaseAssignment now row)
  | .releaseClaimOf _ _ holder now, row => Repo.releaseClaimOf now holder row
  | .assignNodeAndColumn _ now node column, row =>
      some (Repo.assignNodeAndColumn now node column row)
  | .recordStartedWork _ now work, row => some (Repo.recordStartedWork now work row)
  | .setPrUrl _ now url column, row => some (Repo.setPrUrl now url column row)
  | .completeIfInFlight _ _ now column, row =>
      Repo.completeIfInFlight columns now column row
  | .setColumn _ now column, row => some (Repo.setColumn columns now column row)
  | .renewClaim _ _ now ttlSecs, row => Repo.renewClaim now ttlSecs row
  | .claimTask _ _ now assignee column leaseSecs, row =>
      Repo.claimTask now assignee column leaseSecs row
  | .reapLapsedClaims _ now graceSecs sessions, row =>
      Repo.reapLapsedClaims columns now graceSecs sessions row

/-- The foreign key of `tasks.column_id`. -/
def columnExists (row : TaskItem) : Bool :=
  (columnTypeOf columns row.columnId).isSome

/-- The row after the statement: as it was, where the WHERE clause did not match
or the foreign key failed it. -/
def apply (write : LeaseWrite) (row : TaskItem) : TaskItem :=
  if write.names row then
    ((write.statement columns row).filter (columnExists columns)).getD row
  else row

variable {columns}

/-- A statement leaves a card the card it was, on its board and in its tenant. -/
theorem statement_same {write : LeaseWrite} {row after : TaskItem}
    (result : write.statement columns row = some after) :
    after.id = row.id ∧ after.tenantId = row.tenantId ∧
      after.boardId = row.boardId := by
  cases write with
  | createTask => cases result
  | releaseAssignment | assignNodeAndColumn | recordStartedWork | setPrUrl
  | setColumn =>
      cases result
      exact ⟨rfl, rfl, rfl⟩
  | updateFields | releaseClaimOf | completeIfInFlight | renewClaim | claimTask =>
      simp only [statement, Repo.updateFields, Repo.releaseClaimOf,
        Repo.completeIfInFlight, Repo.renewClaim, Repo.claimTask] at result
      split at result <;> cases result
      exact ⟨rfl, rfl, rfl⟩
  | reapLapsedClaims =>
      simp only [statement, Repo.reapLapsedClaims] at result
      split at result
      · cases result
      · split at result <;> cases result
        exact ⟨rfl, rfl, rfl⟩

/-- What a write does to a row: nothing, or what its statement computes, which
the foreign key admits. -/
theorem apply_cases (write : LeaseWrite) (row : TaskItem) :
    write.apply columns row = row ∨
      (write.names row = true ∧
        write.statement columns row = some (write.apply columns row) ∧
        columnExists columns (write.apply columns row) = true) := by
  unfold apply
  split
  case isFalse => exact .inl rfl
  case isTrue named =>
    cases result : write.statement columns row with
    | none => exact .inl rfl
    | some after =>
        cases exists_ : columnExists columns after with
        | false => exact .inl (by simp [Option.filter, exists_])
        | true => exact .inr ⟨named, by simp [Option.filter, exists_],
            by simp [Option.filter, exists_]⟩

theorem apply_same (write : LeaseWrite) (row : TaskItem) :
    (write.apply columns row).id = row.id ∧
      (write.apply columns row).tenantId = row.tenantId ∧
      (write.apply columns row).boardId = row.boardId := by
  rcases write.apply_cases row with same | ⟨_, result, _⟩
  · rw [same]
    exact ⟨rfl, rfl, rfl⟩
  · exact statement_same result

/-- A write keeps the foreign key of a card's column. -/
theorem columnExists_apply {row : TaskItem} (write : LeaseWrite)
    (exists_ : columnExists columns row = true) :
    columnExists columns (write.apply columns row) = true := by
  rcases write.apply_cases row with same | ⟨_, _, stillExists⟩
  · rwa [same]
  · exact stillExists

/-- The row the statement inserts. -/
def inserted : LeaseWrite → List TaskItem
  | .createTask now id number new => [Repo.createTask now id number new]
  | _ => []

end LeaseWrite

/-- One statement on the `tasks` table. -/
def Leasing.step (columns : List BoardColumn) (tasks : List TaskItem)
    (write : LeaseWrite) : Option (List TaskItem) :=
  some (tasks.map (write.apply columns) ++ write.inserted)

section Invariant

variable (columns : List BoardColumn)

/-- A lease lives only on started work that somebody has. -/
def LeaseOnStarted (task : TaskItem) : Prop :=
  task.claimExpiresAt.isSome → Repo.columnIs columns .started task = true ∧
    task.assigneeUserId.isSome

instance (task : TaskItem) : Decidable (LeaseOnStarted columns task) :=
  inferInstanceAs (Decidable (_ → _))

/-- A column a leased card may be put in.  The foreign key refuses one that is
not there. -/
def started (column : ColumnId) : Bool :=
  (columnTypeOf columns column).all (· = .started)

/-- A card a person filed away. -/
def filedAway (task : TaskItem) : Bool :=
  columnTypeOf columns task.columnId ∈
    [some .completed, some .canceled, some .backlog]

/-- What the writes need that could leave a lease where it may not be: the two
that move a card and leave its lease alone, the one that leases a card nobody
may have, and a claim under a lease. -/
def LeaseWrite.landsStarted : LeaseWrite → TaskItem → Bool
  | .updateFields _ _ _ edit, row =>
      !(Repo.unmoved edit row && row.claimExpiresAt.isSome) ||
        edit.columnId.all (started columns)
  | .assignNodeAndColumn _ _ _ column, row =>
      row.claimExpiresAt.isNone || column.all (started columns)
  | .recordStartedWork _ _ work, row =>
      (columnTypeOf columns work.columnId).isNone ||
        (started columns work.columnId && row.assigneeUserId.isSome)
  | .claimTask _ _ _ _ column leaseSecs, row =>
      !(row.assigneeUserId.isNone && leaseSecs.isSome) ||
        started columns (column.getD row.columnId)
  | _, _ => true

/-- What a write needs of the row it names to keep leases on started work. -/
def LeaseWrite.keepsLease (write : LeaseWrite) (row : TaskItem) : Bool :=
  !write.names row || write.landsStarted columns row

end Invariant

section OneRow

variable {columns : List BoardColumn} {row : TaskItem}

theorem leaseOnStarted_of_unleased (unleased : row.claimExpiresAt = none) :
    LeaseOnStarted columns row := by
  intro leased
  rw [unleased] at leased
  contradiction

theorem leaseOnStarted_iff_of_leased (leased : row.claimExpiresAt.isSome = true) :
    LeaseOnStarted columns row ↔
      Repo.columnIs columns .started row = true ∧ row.assigneeUserId.isSome = true :=
  ⟨fun held => held leased, fun both _ => both⟩

/-- In a column that is there, being started is being in a column a leased card
may be put in. -/
theorem columnIs_started (exists_ : LeaseWrite.columnExists columns row = true) :
    Repo.columnIs columns .started row = started columns row.columnId := by
  obtain ⟨type, found⟩ := Option.isSome_iff_exists.mp exists_
  simp [Repo.columnIs, started, found]

/-- The outcome of a statement on a row, against what the statement needs. -/
theorem leaseOnStarted_outcome_iff {result : Option TaskItem} {needs : Bool}
    (held : LeaseOnStarted columns row)
    (idle : (∀ after, result = some after →
      LeaseWrite.columnExists columns after = false) → needs = true)
    (written : ∀ after, result = some after →
      LeaseWrite.columnExists columns after = true →
        (LeaseOnStarted columns after ↔ needs = true)) :
    LeaseOnStarted columns
        ((result.filter (LeaseWrite.columnExists columns)).getD row) ↔
      needs = true := by
  cases result with
  | none => exact ⟨fun _ => idle (fun _ absent => nomatch absent), fun _ => held⟩
  | some after =>
      cases exists_ : LeaseWrite.columnExists columns after with
      | true =>
          rw [Option.filter_some, if_pos exists_]
          exact written after rfl exists_
      | false =>
          rw [Option.filter_some, if_neg (by simp [exists_])]
          refine ⟨fun _ => idle ?_, fun _ => held⟩
          intro other same
          cases same
          exact exists_

/-- A statement that never leaves a lease where it may not be. -/
theorem leaseOnStarted_outcome {result : Option TaskItem}
    (held : LeaseOnStarted columns row)
    (written : ∀ after, result = some after → LeaseOnStarted columns after) :
    LeaseOnStarted columns
      ((result.filter (LeaseWrite.columnExists columns)).getD row) := by
  have always := @leaseOnStarted_outcome_iff columns row result true held
    (fun _ => rfl) (fun after isResult _ =>
      ⟨fun _ => rfl, fun _ => written after isResult⟩)
  exact always.mpr rfl

/-- A card that keeps its lease and its assignee, or takes one, and lands in a
column that is there, needs a started one exactly when it is leased. -/
theorem leaseOnStarted_moved_iff {after : TaskItem}
    (held : LeaseOnStarted columns row)
    (exists_ : LeaseWrite.columnExists columns after = true)
    (lease : after.claimExpiresAt = row.claimExpiresAt)
    (assigned : row.assigneeUserId.isSome → after.assigneeUserId.isSome) :
    LeaseOnStarted columns after ↔
      (row.claimExpiresAt.isSome = true →
        started columns after.columnId = true) := by
  rw [← columnIs_started exists_]
  constructor
  · intro moved leased
    exact (moved (lease ▸ leased)).1
  · intro lands leased
    have wasLeased : row.claimExpiresAt.isSome = true := lease ▸ leased
    exact ⟨lands wasLeased, assigned (held wasLeased).2⟩

/-- The column a leased card is in is a started one. -/
theorem LeaseOnStarted.column (held : LeaseOnStarted columns row)
    (leased : row.claimExpiresAt.isSome = true) :
    started columns row.columnId = true := by
  have isStarted := (held leased).1
  simp only [Repo.columnIs, decide_eq_true_eq] at isStarted
  simp [started, isStarted]

end OneRow

section Writes

variable {columns : List BoardColumn} {row : TaskItem}

/-- A column the foreign key refuses leaves no lease anywhere. -/
theorem started_of_refused {column : ColumnId}
    (refused : (columnTypeOf columns column).isSome = false) :
    started columns column = true := by
  rw [Option.isSome_eq_false_iff, Option.isNone_iff_eq_none] at refused
  rw [started, refused]
  rfl

/-- `COALESCE($5, column_id)` puts a leased card in a started column exactly
when the column given is one. -/
theorem started_getD_iff (held : LeaseOnStarted columns row)
    (column : Option ColumnId) :
    (row.claimExpiresAt.isSome = true →
        started columns (column.getD row.columnId) = true) ↔
      (row.claimExpiresAt.isNone || column.all (started columns)) = true := by
  cases leased : row.claimExpiresAt with
  | none => simp
  | some deadline =>
      cases column with
      | none =>
          have already := held.column (by rw [leased]; rfl)
          simp [already]
      | some target => simp

/-- A column the foreign key refuses is not one `COALESCE` took from the row. -/
theorem all_started_of_refused {column : Option ColumnId}
    (refused : (columnTypeOf columns (column.getD row.columnId)).isSome = false) :
    column.all (started columns) = true := by
  cases column with
  | none => rfl
  | some target => exact started_of_refused refused

theorem updateFields_iff (held : LeaseOnStarted columns row) (id : TaskId)
    (tenant : TenantId) (now : Instant) (edit : TaskEdit) :
    LeaseOnStarted columns
        (((Repo.updateFields now edit row).filter
          (LeaseWrite.columnExists columns)).getD row) ↔
      (LeaseWrite.updateFields id tenant now edit).landsStarted columns row =
        true := by
  apply leaseOnStarted_outcome_iff held
  · intro failed
    rw [LeaseWrite.landsStarted, Bool.or_eq_true]
    by_cases unmoved : Repo.unmoved edit row = true
    · right
      have refused : (columnTypeOf columns
          (edit.columnId.getD row.columnId)).isSome = false :=
        failed _ (if_pos unmoved)
      exact all_started_of_refused refused
    · left
      simp [unmoved]
  · intro after isResult exists_
    unfold Repo.updateFields at isResult
    split at isResult
    case isFalse => cases isResult
    case isTrue unmoved =>
      cases isResult
      rw [leaseOnStarted_moved_iff held exists_ rfl, started_getD_iff held,
        LeaseWrite.landsStarted, unmoved, Bool.true_and, Option.not_isSome]
      intro assigned
      cases edit.assigneeUserId with
      | none => exact assigned
      | some => rfl

theorem assignNodeAndColumn_iff (held : LeaseOnStarted columns row) (id : TaskId)
    (now : Instant) (node : NodeId) (column : Option ColumnId) :
    LeaseOnStarted columns
        (((some (Repo.assignNodeAndColumn now node column row)).filter
          (LeaseWrite.columnExists columns)).getD row) ↔
      (LeaseWrite.assignNodeAndColumn id now node column).landsStarted columns row =
        true := by
  apply leaseOnStarted_outcome_iff held
  · intro failed
    rw [LeaseWrite.landsStarted, Bool.or_eq_true]
    exact .inr (all_started_of_refused (failed _ rfl))
  · intro after isResult exists_
    cases isResult
    rw [leaseOnStarted_moved_iff held exists_ rfl (fun assigned => assigned)]
    exact started_getD_iff held column

theorem recordStartedWork_iff (held : LeaseOnStarted columns row) (id : TaskId)
    (now : Instant) (work : StartedWork) :
    LeaseOnStarted columns
        (((some (Repo.recordStartedWork now work row)).filter
          (LeaseWrite.columnExists columns)).getD row) ↔
      (LeaseWrite.recordStartedWork id now work).landsStarted columns row = true := by
  apply leaseOnStarted_outcome_iff held
  · intro failed
    rw [LeaseWrite.landsStarted, Bool.or_eq_true]
    left
    rw [← Option.isSome_eq_false_iff]
    exact failed _ rfl
  · intro after isResult exists_
    cases isResult
    rw [leaseOnStarted_iff_of_leased rfl, columnIs_started exists_]
    have there : (columnTypeOf columns work.columnId).isSome = true := exists_
    rw [LeaseWrite.landsStarted, ← Option.not_isSome, there]
    simp [Repo.recordStartedWork]

theorem claimTask_iff (held : LeaseOnStarted columns row) (id : TaskId)
    (tenant : TenantId) (now : Instant) (assignee : UserId)
    (column : Option ColumnId) (leaseSecs : Option Int) :
    LeaseOnStarted columns
        (((Repo.claimTask now assignee column leaseSecs row).filter
          (LeaseWrite.columnExists columns)).getD row) ↔
      (LeaseWrite.claimTask id tenant now assignee column leaseSecs).landsStarted
        columns row = true := by
  apply leaseOnStarted_outcome_iff held
  · intro failed
    rw [LeaseWrite.landsStarted, Bool.or_eq_true]
    by_cases free : row.assigneeUserId = none
    · exact .inr (started_of_refused (failed _ (if_pos free)))
    · left
      simp [Option.isSome_iff_ne_none.mpr free]
  · intro after isResult exists_
    unfold Repo.claimTask at isResult
    split at isResult
    case isFalse => cases isResult
    case isTrue free =>
      cases isResult
      cases leaseSecs with
      | none =>
          -- nobody had the card, so it was not leased either
          have unleased : row.claimExpiresAt = none := by
            by_contra leased
            have assigned := (held (Option.isSome_iff_ne_none.mpr leased)).2
            rw [free] at assigned
            contradiction
          simp [LeaseWrite.landsStarted, leaseOnStarted_of_unleased, unleased]
      | some secs =>
          rw [leaseOnStarted_iff_of_leased rfl, columnIs_started exists_]
          simp [LeaseWrite.landsStarted, free]

/-- A write keeps the row's lease on started work exactly when it meets its
need. -/
theorem leaseOnStarted_apply_iff (held : LeaseOnStarted columns row)
    (write : LeaseWrite) :
    LeaseOnStarted columns (write.apply columns row) ↔
      write.keepsLease columns row = true := by
  rw [LeaseWrite.apply, LeaseWrite.keepsLease]
  by_cases named : write.names row = true
  case neg => simp [named, held]
  rw [if_pos named, named, Bool.not_true, Bool.false_or]
  have kept : ∀ {result : Option TaskItem},
      (∀ after, result = some after → LeaseOnStarted columns after) →
        (LeaseOnStarted columns
            ((result.filter (LeaseWrite.columnExists columns)).getD row) ↔
          true = true) :=
    fun written => ⟨fun _ => rfl, fun _ => leaseOnStarted_outcome held written⟩
  cases write with
  | createTask => cases named
  | updateFields id tenant now edit => exact updateFields_iff held id tenant now edit
  | assignNodeAndColumn id now node column =>
      exact assignNodeAndColumn_iff held id now node column
  | recordStartedWork id now work => exact recordStartedWork_iff held id now work
  | claimTask id tenant now assignee column leaseSecs =>
      exact claimTask_iff held id tenant now assignee column leaseSecs
  | releaseAssignment | setPrUrl =>
      apply kept
      intro after isResult
      cases isResult
      exact leaseOnStarted_of_unleased rfl
  | releaseClaimOf id tenant holder now =>
      apply kept
      intro after isResult
      simp only [LeaseWrite.statement, Repo.releaseClaimOf] at isResult
      split at isResult <;> cases isResult
      exact leaseOnStarted_of_unleased rfl
  | completeIfInFlight id tenant now column =>
      apply kept
      intro after isResult
      simp only [LeaseWrite.statement, Repo.completeIfInFlight] at isResult
      split at isResult <;> cases isResult
      exact leaseOnStarted_of_unleased rfl
  | reapLapsedClaims id now graceSecs sessions =>
      apply kept
      intro after isResult
      simp only [LeaseWrite.statement, Repo.reapLapsedClaims] at isResult
      split at isResult
      · cases isResult
      · split at isResult <;> cases isResult
        exact leaseOnStarted_of_unleased rfl
  | setColumn id now column =>
      apply kept
      intro after isResult
      cases isResult
      intro leased
      -- the lease outlives the move into a started column only
      simp only [Repo.setColumn] at leased
      split at leased
      case isTrue isStarted =>
        exact ⟨decide_eq_true isStarted, (held leased).2⟩
      case isFalse => contradiction
  | renewClaim id tenant now ttlSecs =>
      apply kept
      intro after isResult
      simp only [LeaseWrite.statement, Repo.renewClaim] at isResult
      split at isResult
      case isTrue leased =>
        cases isResult
        exact fun _ => held leased
      case isFalse => cases isResult

/-- The reaper's UPDATE moves no card that is not in a started column. -/
theorem reapLapsedClaims_filedAway (filed : filedAway columns row = true)
    (id : TaskId) (now : Instant) (graceSecs : Int)
    (sessions : SessionId → Option SessionRow) :
    (LeaseWrite.reapLapsedClaims id now graceSecs sessions).apply columns row =
      row := by
  have notStarted : Repo.columnIs columns .started row = false := by
    simp only [filedAway, decide_eq_true_eq, List.mem_cons, List.not_mem_nil,
      or_false] at filed
    rcases filed with sits | sits | sits <;> simp [Repo.columnIs, sits]
  have unmatched : Repo.reapLapsedClaims columns now graceSecs sessions row = none := by
    unfold Repo.reapLapsedClaims
    split
    · rfl
    · simp [notStarted]
  rw [LeaseWrite.apply]
  split
  · rw [LeaseWrite.statement, unmatched]
    rfl
  · rfl

end Writes

section Runs

variable {columns : List BoardColumn}

/-- What a write owes the table: every lease on started work that somebody has,
and no card that was filed away moved by the reaper. -/
structure LeasesRight (columns : List BoardColumn) (before : List TaskItem)
    (write : LeaseWrite) (after : List TaskItem) : Prop where
  onStarted : ∀ row ∈ after, LeaseOnStarted columns row
  filedAway : ∀ id now graceSecs sessions,
    write = .reapLapsedClaims id now graceSecs sessions →
      ∀ row ∈ before, filedAway columns row = true →
        write.apply columns row = row ∧ row ∈ after

/-- From a table whose leases are all on started work, a write does right by it
exactly when it meets its need on every row. -/
theorem leasesRight_iff {before after : List TaskItem} {write : LeaseWrite}
    (held : ∀ row ∈ before, LeaseOnStarted columns row)
    (taken : Leasing.step columns before write = some after) :
    LeasesRight columns before write after ↔
      ∀ row ∈ before, write.keepsLease columns row = true := by
  cases taken
  constructor
  · intro right row member
    rw [← leaseOnStarted_apply_iff (held row member)]
    exact right.onStarted _
      (List.mem_append_left _ (List.mem_map_of_mem member))
  · intro keeps
    refine ⟨?_, ?_⟩
    · intro row member
      rcases List.mem_append.mp member with old | new
      · obtain ⟨earlier, wasThere, rfl⟩ := List.mem_map.mp old
        exact (leaseOnStarted_apply_iff (held earlier wasThere) write).mpr
          (keeps earlier wasThere)
      · cases write <;> simp only [LeaseWrite.inserted, List.not_mem_nil,
          List.mem_singleton] at new
        rw [new]
        exact leaseOnStarted_of_unleased rfl
    · rintro id now graceSecs sessions rfl row member filed
      have unmoved := reapLapsedClaims_filedAway filed id now graceSecs sessions
      refine ⟨unmoved, List.mem_append_left _ ?_⟩
      have mapped := List.mem_map_of_mem (f :=
        (LeaseWrite.reapLapsedClaims id now graceSecs sessions).apply columns) member
      rwa [unmoved] at mapped

/-- In every sequence of writes, leases stay on started work that somebody has,
and the reaper moves no card that was filed away, exactly when every write meets
its need on every row. -/
theorem leases_on_started_iff {tasks : List TaskItem} {writes : List LeaseWrite}
    (held : ∀ row ∈ tasks, LeaseOnStarted columns row) :
    Along (Leasing.step columns) (LeasesRight columns) tasks writes ↔
      Along (Leasing.step columns)
        (fun before write _ => ∀ row ∈ before, write.keepsLease columns row = true)
        tasks writes := by
  apply along_iff_of_invariant
    (fun tasks => ∀ row ∈ tasks, LeaseOnStarted columns row)
  · intro before write after _ _ right
    exact right.onStarted
  · intro before write after held taken
    exact leasesRight_iff held taken
  · exact held

/-- A board of three columns. -/
def threeColumns : List BoardColumn :=
  [{ id := 1, boardId := 1, name := "To-Do", position := 0, type := .unstarted },
    { id := 2, boardId := 1, name := "In Progress", position := 1, type := .started },
    { id := 3, boardId := 1, name := "Done", position := 2, type := .completed }]

/-- A card filed in To-Do, and an agent's claim of it. -/
def filedAndClaimed : List LeaseWrite :=
  [.createTask 0 1 1
      { tenant := 1, board := 1, columnId := 1, title := "card", createdBy := some 7 },
    .claimTask 1 1 10 7 (some 2) (some 14400)]

/-- A person drags the claimed card to Done: the lease comes with it. -/
theorem lease_outlives_drag :
    ∃ tasks, run (Leasing.step threeColumns) []
        (filedAndClaimed ++ [.updateFields 1 1 20 { columnId := some 3 }]) =
          some tasks ∧
      ∃ row ∈ tasks, columnTypeOf threeColumns row.columnId = some .completed ∧
        row.claimExpiresAt.isSome = true ∧ ¬ LeaseOnStarted threeColumns row :=
  ⟨_, rfl, _, List.mem_singleton_self _, by decide⟩

/-- The move that knows of leases drops it. -/
theorem leases_on_started_iff_moved :
    Along (Leasing.step threeColumns) (LeasesRight threeColumns) []
      (filedAndClaimed ++ [.setColumn 1 20 3]) := by
  apply (leases_on_started_iff (List.forall_mem_nil _)).mpr
  decide

end Runs

end NookOs.Tasks
