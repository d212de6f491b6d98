/-
Module: NookOs.Tasks.Pick
Purpose: The pick query: which cards a listing returns to a viewer, and the
  choice of filters that asks for claimable work.
Trusted boundary: none
Main exports: BoardRow, TaskLabel, PickTables, PickParams, claimableWork, picks_claimableWork_iff
-/
import Mathlib.Data.List.Sort
import NookOs.Tasks.Relations

namespace NookOs.Tasks

open Lib
open Jobs (Instant TenantId TaskId WorkspaceId UserId NodeId)

/-- What the queries read of a row of `boards`. -/
structure BoardRow where
  id : BoardId
  tenantId : TenantId
  key : Option String
deriving DecidableEq

/-- A label on a task, by name: `task_labels` joined with `labels`. -/
structure TaskLabel where
  taskId : TaskId
  name : String
deriving DecidableEq

/-- The tables the pick query joins. -/
structure PickTables where
  boards : List BoardRow
  columns : List BoardColumn
  tasks : List TaskItem
  relations : List TaskRelation
  labels : List TaskLabel
deriving DecidableEq

/-- The filters of the query; one that is absent lets everything through.
`boardId` is the board filter where it spells a uuid. -/
structure PickParams where
  board : Option String := none
  boardId : Option BoardId := none
  workspace : Option WorkspaceId := none
  columnType : Option ColumnType := none
  priority : Option Int := none
  unassignedOnly : Bool := false
  assignee : Option UserId := none
  labels : List String := []
  notLabels : List String := []
  isBlocked : Option Bool := none
  createdAfter : Option Instant := none
  limit : Nat := 50
  archived : Bool := false
  q : Option String := none
  types : List TaskType := []
  parent : Option TaskId := none
  backlog : Bool := false
  done : Bool := false
  visibility : List Visibility := []
  node : Option NodeId := none
deriving DecidableEq

/-- The column types that mean the work is over. -/
def finishedTypes : List ColumnType := [.completed, .canceled]

section Query

-- the engine's case-insensitive pattern match
variable (ciMatch : String → String → Bool)
variable (tables : PickTables)

/-- The join on `boards`. -/
def boardOf (task : TaskItem) : Option BoardRow :=
  Table.find BoardRow.id tables.boards task.boardId

/-- `b.key || '-' || t.number`, which is NULL where either is. -/
def taskKey (board : BoardRow) (task : TaskItem) : Option String :=
  match board.key, task.number with
  | some key, some number => some (key ++ "-" ++ toString number)
  | _, _ => none

def labelsOf (id : TaskId) : List String :=
  (tables.labels.filter (·.taskId = id)).map (·.name)

/-- Every required label is present. -/
def hasLabels (p : PickParams) (task : TaskItem) : Bool :=
  p.labels.isEmpty ||
    ((labelsOf tables task.id).filter (· ∈ p.labels)).dedup.length = p.labels.length

/-- An unfinished task points here with `blocks`. -/
def blockedBySomething (task : TaskItem) : Bool :=
  tables.relations.any fun row =>
    row.toTask = task.id && row.kind = .blocks &&
      (Table.find TaskItem.id tables.tasks row.fromTask).any fun blocker =>
        (columnTypeOf tables.columns blocker.columnId).any (· ∉ finishedTypes)

/-- The free-text search across title, description and display key. -/
def found (pattern : String) (board : BoardRow) (task : TaskItem) : Bool :=
  ciMatch task.title pattern || task.description.any (ciMatch · pattern) ||
    (taskKey board task).any (ciMatch · pattern)

/-- The clauses of the query that read the card's own row. -/
def picksRow (tenant : TenantId) (viewer : UserId) (p : PickParams)
    (column : ColumnType) (task : TaskItem) : Bool :=
  task.tenantId = tenant &&
  p.workspace.all (fun workspace => task.workspaceId = some workspace) &&
  p.columnType.all (column = ·) &&
  p.priority.all (task.priority = ·) &&
  (!p.unassignedOnly || task.assigneeUserId.isNone) &&
  p.assignee.all (fun assignee => task.assigneeUserId = some assignee) &&
  p.createdAfter.all (· < task.createdAt) &&
  (p.archived || task.archivedAt.isNone) &&
  (task.type ∈ p.types || (p.types.isEmpty && task.type ≠ .epic)) &&
  visibleTo task viewer &&
  (p.visibility.isEmpty || task.visibility ∈ p.visibility) &&
  p.parent.all (fun parent => task.parentTaskId = some parent) &&
  p.node.all (fun node =>
    task.assignedNodeId.isNone || task.assignedNodeId = some node) &&
  (p.backlog || p.parent.isSome || column ≠ .backlog) &&
  (p.done || p.parent.isSome || p.columnType.any (· ∈ finishedTypes) ||
    column ∉ finishedTypes)

/-- The WHERE clause of the query. -/
def picks (tenant : TenantId) (viewer : UserId) (p : PickParams)
    (task : TaskItem) : Bool :=
  match boardOf tables task, columnTypeOf tables.columns task.columnId with
  | some board, some column =>
      picksRow tenant viewer p column task &&
      (p.board.all fun key =>
        p.boardId = some board.id ||
          board.key.any fun own => own.toUpper = key.toUpper) &&
      hasLabels tables p task &&
      (labelsOf tables task.id).all (· ∉ p.notLabels) &&
      p.isBlocked.all (blockedBySomething tables task = ·) &&
      p.q.all fun pattern => found ciMatch pattern board task
  | _, _ => false

/-- A priority of 0 means that none was set, which sorts last. -/
def priorityRank (task : TaskItem) : Int :=
  if task.priority = 0 then 5 else task.priority

/-- `ORDER BY priority, created_at`. -/
def sortsBefore (first second : TaskItem) : Prop :=
  priorityRank first < priorityRank second ∨
    (priorityRank first = priorityRank second ∧ first.createdAt ≤ second.createdAt)

instance : DecidableRel sortsBefore := fun _ _ => inferInstanceAs (Decidable (_ ∨ _))

def pickTasks (tenant : TenantId) (viewer : UserId) (p : PickParams) :
    List TaskItem :=
  ((tables.tasks.filter (picks ciMatch tables tenant viewer p)).insertionSort
    sortsBefore).take p.limit

end Query

section ClaimableWork

/-- The filters that ask for work that can be claimed: what `assignee=none` asks
for, with nothing lifted. -/
def claimableWork : PickParams := { unassignedOnly := true }

/-- A card a viewer could claim, but for the assignee it may have. -/
def openTo (columns : List BoardColumn) (viewer : UserId) (task : TaskItem) : Bool :=
  visibleTo task viewer && task.archivedAt.isNone && task.type ≠ .epic &&
    (columnTypeOf columns task.columnId).any
      (· ∉ [.backlog, .completed, .canceled])

theorem openTo_iff {columns : List BoardColumn} {viewer : UserId}
    {task : TaskItem} :
    openTo columns viewer task = true ↔
      visibleTo task viewer = true ∧ task.archivedAt = none ∧ task.type ≠ .epic ∧
        ∃ type, columnTypeOf columns task.columnId = some type ∧
          type ∉ [ColumnType.backlog, .completed, .canceled] := by
  simp only [openTo, Bool.and_eq_true, Option.isNone_iff_eq_none,
    decide_eq_true_eq, Option.any_eq_true, and_assoc]

/-- What the pick query asks of claimable work. -/
theorem picks_claimableWork_iff {ciMatch : String → String → Bool}
    {tables : PickTables} {viewer : UserId} {task : TaskItem} :
    picks ciMatch tables task.tenantId viewer claimableWork task = true ↔
      (boardOf tables task).isSome = true ∧ task.assigneeUserId = none ∧
        openTo tables.columns viewer task = true := by
  unfold picks openTo
  cases boardOf tables task with
  | none => simp
  | some board =>
      cases columnTypeOf tables.columns task.columnId with
      | none => simp
      | some column =>
          cases column <;>
            simp [picksRow, claimableWork, hasLabels, finishedTypes] <;> tauto

end ClaimableWork

end NookOs.Tasks
