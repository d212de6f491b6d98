/-
Module: NookOs.Tasks.Task
Purpose: The `tasks` row with the columns of its board, who may see it, and
  every repository write of one row as the function its SQL computes.
Trusted boundary: none
Main exports: TaskItem, BoardColumn, visibleTo, Repo.releaseAssignment, Repo.reapLapsedClaims
-/
import Mathlib.Data.List.MinMax
import NookOs.Lib.Table
import NookOs.Jobs.LoopJob

namespace NookOs.Tasks

open Lib
open Jobs (Instant seconds TenantId TaskId WorkspaceId UserId NodeId)

abbrev BoardId := Nat
abbrev ColumnId := Nat
abbrev SessionId := Nat
abbrev CheckoutId := Nat

/-- What a column means, whatever it is called. -/
inductive ColumnType where
  | backlog
  | unstarted
  | started
  | review
  | completed
  | canceled
deriving DecidableEq

/-- The values the `tasks_type_check` constraint admits. -/
inductive TaskType where
  | task
  | bug
  | epic
  | story
  | chore
deriving DecidableEq

/-- The values the `tasks_visibility_check` constraint admits. -/
inductive Visibility where
  | «private»
  | team
  | org
deriving DecidableEq

/-- One row of `board_columns`.  No statement changes a column's type. -/
structure BoardColumn where
  id : ColumnId
  boardId : BoardId
  name : String
  position : Int
  type : ColumnType
deriving DecidableEq

/-- One row of `tasks`. -/
structure TaskItem where
  id : TaskId
  tenantId : TenantId
  boardId : BoardId
  columnId : ColumnId
  number : Option Int
  title : String
  description : Option String
  type : TaskType
  position : Int
  priority : Int
  visibility : Visibility
  createdBy : Option UserId
  assigneeUserId : Option UserId
  workspaceId : Option WorkspaceId
  parentTaskId : Option TaskId
  assignedNodeId : Option NodeId
  branch : Option String
  worktreePath : Option String
  worktreeNodeId : Option NodeId
  checkoutId : Option CheckoutId
  sessionId : Option SessionId
  claimExpiresAt : Option Instant
  unblockedAt : Option Instant
  buildLadderClearedAt : Option Instant
  prUrl : Option String
  archivedAt : Option Instant
  createdAt : Instant
  updatedAt : Instant
deriving DecidableEq

section Visibility

/-- The card's owner set is its creator and its assignee. -/
def ownsFields (createdBy assignee : Option UserId) (user : UserId) : Bool :=
  createdBy = some user || assignee = some user

def visibleByCols (visibility : Visibility) (createdBy assignee : Option UserId)
    (viewer : UserId) : Bool :=
  visibility ≠ .private || ownsFields createdBy assignee viewer

/-- A private card is seen by its owners and by nobody else. -/
def visibleTo (task : TaskItem) (viewer : UserId) : Bool :=
  visibleByCols task.visibility task.createdBy task.assigneeUserId viewer

def owns (task : TaskItem) (user : UserId) : Bool :=
  ownsFields task.createdBy task.assigneeUserId user

end Visibility

section Columns

/-- `ORDER BY position LIMIT 1`. -/
def firstByPosition (columns : List BoardColumn) : Option BoardColumn :=
  @List.argmin _ Int Int.instLinearOrder.toPreorder _ (·.position) columns

theorem firstByPosition_mem {columns : List BoardColumn} {column : BoardColumn}
    (first : firstByPosition columns = some column) : column ∈ columns :=
  List.argmin_mem first

variable (columns : List BoardColumn)

/-- `SELECT type FROM board_columns WHERE id = $1`. -/
def columnTypeOf (column : ColumnId) : Option ColumnType :=
  (Table.find BoardColumn.id columns column).map (·.type)

/-- The columns of a type on a board. -/
def columnsOfType (board : BoardId) (type : ColumnType) : List BoardColumn :=
  columns.filter fun column => column.boardId = board && column.type = type

/-- `… WHERE board_id = $1 AND type = $2 ORDER BY position LIMIT 1`. -/
def columnOfType (board : BoardId) (type : ColumnType) : Option ColumnId :=
  (firstByPosition (columnsOfType columns board type)).map (·.id)

variable {columns}

theorem columnTypeOf_of_mem (keyed : Table.Keyed BoardColumn.id columns)
    {column : BoardColumn} (member : column ∈ columns) :
    columnTypeOf columns column.id = some column.type := by
  rw [columnTypeOf, keyed.find_of_mem member]
  rfl

/-- The column found by type is a column of the board and of that type. -/
theorem columnOfType_some {board : BoardId} {type : ColumnType} {column : ColumnId}
    (found : columnOfType columns board type = some column) :
    ∃ row ∈ columns, row.id = column ∧ row.boardId = board ∧ row.type = type := by
  rw [columnOfType, Option.map_eq_some_iff] at found
  obtain ⟨row, first, rfl⟩ := found
  have member := List.mem_filter.mp (firstByPosition_mem first)
  simp only [Bool.and_eq_true, decide_eq_true_eq] at member
  exact ⟨row, member.1, rfl, member.2⟩

/-- The column found by type has that type. -/
theorem columnTypeOf_columnOfType (keyed : Table.Keyed BoardColumn.id columns)
    {board : BoardId} {type : ColumnType} {column : ColumnId}
    (found : columnOfType columns board type = some column) :
    columnTypeOf columns column = some type := by
  obtain ⟨row, member, rfl, _, rfl⟩ := columnOfType_some found
  exact columnTypeOf_of_mem keyed member

end Columns

/-- `SELECT * FROM tasks WHERE id = $1 AND tenant_id = $2`. -/
def getRow (tasks : List TaskItem) (tenant : TenantId) (id : TaskId) :
    Option TaskItem :=
  (Table.find TaskItem.id tasks id).filter (·.tenantId = tenant)

theorem getRow_some {tasks : List TaskItem} {tenant : TenantId} {id : TaskId}
    {row : TaskItem} (found : getRow tasks tenant id = some row) :
    row ∈ tasks ∧ row.id = id ∧ row.tenantId = tenant := by
  obtain ⟨isRow, sameTenant⟩ := Option.filter_eq_some_iff.mp found
  obtain ⟨member, sameId⟩ := Table.find_some isRow
  exact ⟨member, sameId, of_decide_eq_true sameTenant⟩

/-- With unique ids a row is found by its own id and tenant. -/
theorem getRow_of_mem {tasks : List TaskItem} {row : TaskItem}
    (keyed : Table.Keyed TaskItem.id tasks) (member : row ∈ tasks) :
    getRow tasks row.tenantId row.id = some row := by
  rw [getRow, keyed.find_of_mem member, Option.filter_some]
  simp

/-- With unique ids two rows of one id are one row. -/
theorem eq_of_id_eq {tasks : List TaskItem} {row other : TaskItem}
    (keyed : Table.Keyed TaskItem.id tasks) (member : row ∈ tasks)
    (otherMember : other ∈ tasks) (same : other.id = row.id) : other = row := by
  have found := keyed.find_of_mem otherMember
  rw [same, keyed.find_of_mem member] at found
  exact (Option.some.inj found).symm

/-- A task to file. -/
structure NewTask where
  tenant : TenantId
  board : BoardId
  columnId : ColumnId
  title : String
  description : Option String := none
  position : Int := 0
  workspaceId : Option WorkspaceId := none
  priority : Int := 0
  type : TaskType := .task
  visibility : Visibility := .team
  createdBy : Option UserId
  parentTaskId : Option TaskId := none
deriving DecidableEq

/-- An edit of the kanban provider: every field that is present is written. -/
structure TaskEdit where
  title : Option String := none
  description : Option String := none
  columnId : Option ColumnId := none
  position : Option Int := none
  assigneeUserId : Option UserId := none
  priority : Option Int := none
  setWorkspace : Bool := false
  workspaceId : Option WorkspaceId := none
  expectedUpdatedAt : Option Instant := none
  type : Option TaskType := none
  visibility : Option Visibility := none
  setParent : Bool := false
  parentTaskId : Option TaskId := none
deriving DecidableEq

/-- What `start_work` writes on the card. -/
structure StartedWork where
  workspaceId : WorkspaceId
  nodeId : NodeId
  branch : String
  worktreePath : String
  sessionId : Option SessionId
  columnId : ColumnId
  checkoutId : Option CheckoutId
  claimTtlSecs : Int
deriving DecidableEq

/-- The values `sessions.status` takes. -/
inductive SessionStatus where
  | starting
  | running
  | detached
  | exited
  | error
  | stopped
deriving DecidableEq

/-- A session joined with its node. -/
structure SessionRow where
  status : SessionStatus
  nodeLastSeenAt : Option Instant
deriving DecidableEq

/-!
Each write is one SQL statement on the row of a given id, atomic on it.  `none`
says that the WHERE clause did not match.  The statement's `now()` and the other
tables it reads are arguments.
-/

namespace Repo

/-- The row the INSERT writes, with the number taken from the board: unassigned,
unleased, and the table's defaults. -/
def createTask (now : Instant) (id : TaskId) (number : Int) (new : NewTask) :
    TaskItem :=
  { id
    tenantId := new.tenant
    boardId := new.board
    columnId := new.columnId
    number := some number
    title := new.title
    description := new.description
    type := new.type
    position := new.position
    priority := new.priority
    visibility := new.visibility
    createdBy := new.createdBy
    assigneeUserId := none
    workspaceId := new.workspaceId
    parentTaskId := new.parentTaskId
    assignedNodeId := none
    branch := none
    worktreePath := none
    worktreeNodeId := none
    checkoutId := none
    sessionId := none
    claimExpiresAt := none
    unblockedAt := none
    buildLadderClearedAt := none
    prUrl := none
    archivedAt := none
    createdAt := now
    updatedAt := now }

/-- The optimistic-concurrency precondition of an edit, when it carries one. -/
def unmoved (edit : TaskEdit) (task : TaskItem) : Bool :=
  edit.expectedUpdatedAt.all (· = task.updatedAt)

/-- `column_id = COALESCE($5, column_id)` and so on, for every column. -/
def updateFields (now : Instant) (edit : TaskEdit) (task : TaskItem) :
    Option TaskItem :=
  if unmoved edit task then
    some
      { task with
        title := edit.title.getD task.title
        description := edit.description.or task.description
        columnId := edit.columnId.getD task.columnId
        position := edit.position.getD task.position
        assigneeUserId := edit.assigneeUserId.or task.assigneeUserId
        priority := edit.priority.getD task.priority
        workspaceId :=
          if edit.setWorkspace then edit.workspaceId else task.workspaceId
        type := edit.type.getD task.type
        visibility := edit.visibility.getD task.visibility
        parentTaskId :=
          if edit.setParent then edit.parentTaskId else task.parentTaskId
        updatedAt := now }
  else none

/-- Clear the assignee and the lease: `release_assignment` and
`clear_assignee`. -/
def releaseAssignment (now : Instant) (task : TaskItem) : TaskItem :=
  { task with assigneeUserId := none, claimExpiresAt := none, updatedAt := now }

/-- The same, but only while the holder has the card under a lease. -/
def releaseClaimOf (now : Instant) (holder : UserId) (task : TaskItem) :
    Option TaskItem :=
  if task.assigneeUserId = some holder ∧ task.claimExpiresAt.isSome then
    some (releaseAssignment now task)
  else none

def assignNodeAndColumn (now : Instant) (node : NodeId) (column : Option ColumnId)
    (task : TaskItem) : TaskItem :=
  { task with
    assignedNodeId := some node
    columnId := column.getD task.columnId
    updatedAt := now }

def recordStartedWork (now : Instant) (work : StartedWork) (task : TaskItem) :
    TaskItem :=
  { task with
    workspaceId := some work.workspaceId
    assignedNodeId := some work.nodeId
    branch := some work.branch
    worktreePath := some work.worktreePath
    worktreeNodeId := some work.nodeId
    sessionId := work.sessionId
    columnId := work.columnId
    checkoutId := work.checkoutId
    claimExpiresAt := some (now + seconds work.claimTtlSecs)
    updatedAt := now }

def setPrUrl (now : Instant) (url : String) (column : ColumnId) (task : TaskItem) :
    TaskItem :=
  { task with
    prUrl := some url
    columnId := column
    claimExpiresAt := none
    updatedAt := now }

/-- The card's column is of a type, by the columns' table. -/
def columnIs (columns : List BoardColumn) (type : ColumnType) (task : TaskItem) :
    Bool :=
  columnTypeOf columns task.columnId = some type

/-- `EXISTS (… WHERE c.id = column_id AND c.type NOT IN ('completed',
'canceled'))`. -/
def inFlight (columns : List BoardColumn) (task : TaskItem) : Bool :=
  (columnTypeOf columns task.columnId).any (· ∉ [.completed, .canceled])

def completeIfInFlight (columns : List BoardColumn) (now : Instant)
    (column : ColumnId) (task : TaskItem) : Option TaskItem :=
  if task.archivedAt = none ∧ inFlight columns task then
    some
      { task with columnId := column, claimExpiresAt := none, updatedAt := now }
  else none

/-- The lease dies with the move, unless the destination is a `started`
column. -/
def setColumn (columns : List BoardColumn) (now : Instant) (column : ColumnId)
    (task : TaskItem) : TaskItem :=
  { task with
    columnId := column
    claimExpiresAt :=
      if columnTypeOf columns column = some .started then task.claimExpiresAt
      else none
    updatedAt := now }

def renewClaim (now : Instant) (ttlSecs : Int) (task : TaskItem) :
    Option TaskItem :=
  if task.claimExpiresAt.isSome then
    some { task with claimExpiresAt := some (now + seconds ttlSecs), updatedAt := now }
  else none

/-- The atomic claim: the WHERE clause tests that the card is unassigned. -/
def claimTask (now : Instant) (assignee : UserId) (column : Option ColumnId)
    (leaseSecs : Option Int) (task : TaskItem) : Option TaskItem :=
  if task.assigneeUserId = none then
    some
      { task with
        assigneeUserId := some assignee
        columnId := column.getD task.columnId
        claimExpiresAt :=
          match leaseSecs with
          | none => task.claimExpiresAt
          | some secs => some (now + seconds secs)
        updatedAt := now }
  else none

/-- The card's worker is provably gone: its session has ended, or the session's
node stopped reporting more than the grace ago. -/
def workerGone (now : Instant) (graceSecs : Int)
    (sessions : SessionId → Option SessionRow) (task : TaskItem) : Bool :=
  (task.sessionId.bind sessions).any fun session =>
    session.status ∈ [.exited, .error] ||
      session.nodeLastSeenAt.any (· < now - seconds graceSecs)

/-- The claim reaper's UPDATE, which checks again all that its scan has read:
the assignee is the one part of the claim it leaves. -/
def reapLapsedClaims (columns : List BoardColumn) (now : Instant)
    (graceSecs : Int) (sessions : SessionId → Option SessionRow)
    (task : TaskItem) : Option TaskItem :=
  match columnOfType columns task.boardId .unstarted with
  | none => none
  | some unstarted =>
      if task.claimExpiresAt.isSome ∧ columnIs columns .started task ∧
          workerGone now graceSecs sessions task then
        some
          { task with
            columnId := unstarted
            assignedNodeId := none
            sessionId := none
            claimExpiresAt := none
            updatedAt := now }
      else none

def setArchived (now : Instant) (archived : Bool) (task : TaskItem) : TaskItem :=
  { task with
    archivedAt := if archived then some now else none
    updatedAt := now }

/-- `build_ladder_cleared_at = now()`. -/
def clearBuildLadder (now : Instant) (task : TaskItem) : TaskItem :=
  { task with buildLadderClearedAt := some now }

end Repo

end NookOs.Tasks
