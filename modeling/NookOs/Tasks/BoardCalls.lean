/-
Module: NookOs.Tasks.BoardCalls
Purpose: The routes that file, edit, move, delete and bulk-edit the cards of a
  board, one statement at a time and in any interleaving.
Trusted boundary: none
Main exports: Organization, TaskIdent, CreateTaskRequest, UpdateTaskRequest, Boards, Boards.step
-/
import NookOs.Lib.Run
import NookOs.Tasks.Claims

namespace NookOs.Tasks

open Lib
open Jobs (Instant TenantId TaskId WorkspaceId UserId)

/-!
A route reads the card, checks what it may check on that reading, reads again
for the next check, and writes last.  No transaction holds the readings and the
write together.  Looking a reference up and reading the row it names is one
reading here: a row keeps its id, its tenant, its board and its number.
-/

section Tables

/-- One row of `boards`. -/
structure Board where
  id : BoardId
  tenantId : TenantId
  workspaceId : Option WorkspaceId
  provider : String
  name : String
  key : Option String
deriving DecidableEq

/-- What these routes read of a row of `workspaces`. -/
structure Workspace where
  id : WorkspaceId
  tenantId : TenantId
  name : String
deriving DecidableEq

/-- The tables none of these routes writes, and how the language and the
database change the case of a text. -/
structure Organization where
  boards : List Board
  columns : List BoardColumn
  workspaces : List Workspace
  toLowercase : String → String
  lower : String → String
  upper : String → String

namespace Organization

variable (org : Organization)

/-- `SELECT * FROM boards WHERE id = $1 AND tenant_id = $2`. -/
def getBoard (tenant : TenantId) (board : BoardId) : Option Board :=
  org.boards.find? fun row => row.id = board && row.tenantId = tenant

/-- The column is one of the board's. -/
def onBoard (column : ColumnId) (board : BoardId) : Bool :=
  org.columns.any fun row => row.id = column && row.boardId = board

/-- The workspace is one of the tenant's. -/
def inTenant (workspace : WorkspaceId) (tenant : TenantId) : Bool :=
  org.workspaces.any fun row => row.id = workspace && row.tenantId = tenant

/-- `… WHERE board_id = $1 AND lower(name) = lower($2)`. -/
def columnByName (board : BoardId) (name : String) : Option ColumnId :=
  (org.columns.find? fun row =>
    row.boardId = board && org.lower row.name = org.lower name).map (·.id)

/-- `… WHERE board_id = $1 ORDER BY position LIMIT 1`. -/
def firstColumn (board : BoardId) : Option ColumnId :=
  (firstByPosition (org.columns.filter (·.boardId = board))).map (·.id)

end Organization

end Tables

section Requests

/-- What a reference spells: a uuid, a key such as `NOOK-42`, or neither. -/
inductive IdentForm where
  | uuid (id : TaskId)
  | key (board : String) (number : Int)
  | neither
deriving DecidableEq

/-- A reference to a task, as a client writes it. -/
structure TaskIdent where
  text : String
  form : IdentForm
deriving DecidableEq

structure CreateTaskRequest where
  title : String
  description : Option String := none
  columnId : Option ColumnId := none
  columnType : Option String := none
  workspaceId : Option WorkspaceId := none
  priority : Option Int := none
  type : Option String := none
  visibility : Option String := none
  parent : Option TaskIdent := none
deriving DecidableEq

/-- The workspace and the parent are tri-state: absent, cleared, or set. -/
structure UpdateTaskRequest where
  title : Option String := none
  description : Option String := none
  columnId : Option ColumnId := none
  columnType : Option String := none
  position : Option Int := none
  assigneeUserId : Option UserId := none
  priority : Option Int := none
  type : Option String := none
  workspaceId : Option (Option WorkspaceId) := none
  visibility : Option String := none
  parent : Option (Option TaskIdent) := none
  expectedUpdatedAt : Option Instant := none
deriving DecidableEq

/-- A bulk action whose value has been parsed. -/
inductive BulkAction where
  | agentReady (on : Bool)
  | moveColumn (type : String)
  | priority (value : Int)
  | setType (type : String)
  | assignee (user : Option UserId)
  | archive
deriving DecidableEq

/-- What a client asked for. -/
inductive BoardWork where
  | create (board : BoardId) (req : CreateTaskRequest)
  | update (ident : TaskIdent) (req : UpdateTaskRequest)
  | move (ident : TaskIdent) (column columnType : Option String)
  | delete (ident : TaskIdent)
  | bulk (idents : List TaskIdent) (action : BulkAction)
deriving DecidableEq

/-- A request for a batch. -/
def BoardWork.isBulk : BoardWork → Bool
  | .bulk .. => true
  | _ => false

end Requests

section Checks

/-- What a route answers when it does not do what it was asked. -/
inductive BoardError where
  | notFound
  | badRequest (message : String)
  | conflict (message : String)
  | moved (current : TaskItem)
  | forbidden (message : String)
  | unprocessable (message : String)
  | database
deriving DecidableEq

def BoardError.ofClaim : ClaimError → BoardError
  | .notFound => .notFound
  | .badRequest message => .badRequest message
  | .conflict message => .conflict message

variable (org : Organization) (tasks : List TaskItem) (tenant : TenantId)

/-- `id_by_key`: the board's key, whatever its case, and the task's number. -/
def idByKey (board : String) (number : Int) : Option TaskId :=
  (tasks.find? fun task =>
    task.tenantId = tenant && task.number = some number &&
      org.boards.any fun row =>
        row.id = task.boardId && row.key.map org.upper = some (org.upper board)).map
    (·.id)

/-- The task a reference names in the tenant. -/
def resolveId (ident : TaskIdent) : Except BoardError TaskId :=
  match ident.form with
  | .uuid id =>
      match getRow tasks tenant id with
      | none => .error .notFound
      | some row => .ok row.id
  | .key board number =>
      match idByKey org tasks tenant board number with
      | none => .error .notFound
      | some id => .ok id
  | .neither =>
      .error (.badRequest
        (ident.text.quote ++ " is neither a task id nor a key like NOOK-42"))

/-- The row a reference names. -/
def lookUp (ident : TaskIdent) : Except BoardError TaskItem := do
  let id ← resolveId org tasks tenant ident
  match getRow tasks tenant id with
  | none => .error .notFound
  | some row => .ok row

def TaskType.parse : String → Option TaskType
  | "task" => some .task
  | "bug" => some .bug
  | "epic" => some .epic
  | "story" => some .story
  | "chore" => some .chore
  | _ => none

def Visibility.parse : String → Option Visibility
  | "private" => some .private
  | "team" => some .team
  | "org" => some .org
  | _ => none

def validateTaskType : Option String → Except BoardError (Option TaskType)
  | none => .ok none
  | some text =>
      match TaskType.parse text with
      | none =>
          .error (.badRequest ("invalid task type " ++ text.quote ++
            " — one of task, bug, epic, story, chore"))
      | some type => .ok (some type)

def validateVisibility : Option String → Except BoardError (Option Visibility)
  | none => .ok none
  | some text =>
      match Visibility.parse text with
      | none =>
          .error (.badRequest ("invalid visibility " ++ text.quote ++
            " — one of private, team, org"))
      | some visibility => .ok (some visibility)

def notATask (ident : TaskIdent) : BoardError :=
  .badRequest ("parent " ++ ident.text.quote ++ " is not a task in this tenant")

/-- The epic a card may hang off: one the caller sees, on the same board. -/
def validateParent (viewer : UserId) (board : BoardId) (ident : TaskIdent)
    (selfIsEpic : Bool) : Except BoardError TaskId :=
  if selfIsEpic then
    .error (.badRequest "an epic cannot have a parent — epics do not nest")
  else
    match lookUp org tasks tenant ident with
    | .error _ => .error (notATask ident)
    | .ok parent =>
        if !visibleTo parent viewer then .error (notATask ident)
        else if parent.type ≠ .epic then
          .error (.badRequest ("parent " ++ ident.text.quote ++
            " is not an epic — a task can only hang off a type='epic' task"))
        else if parent.boardId ≠ board then
          .error (.badRequest ("parent epic is on a different board — " ++
            "a task and its epic must share a board"))
        else .ok parent.id

def providerForBoard (board : BoardId) : Except BoardError String :=
  match org.getBoard tenant board with
  | none => .error .notFound
  | some row => .ok row.provider

/-- The provider registered under a name does the work itself: the others are
stubs, and an unknown name is no provider. -/
def kanban (provider : String) : Except BoardError Unit :=
  if provider = "local" then .ok ()
  else if provider ∈ ["jira", "github", "linear", "trello"] then
    .error (.badRequest ("provider '" ++ provider ++ "' is not configured"))
  else .error .notFound

/-- `name (uuid)` when the workspace is readable, the bare id otherwise. -/
def describeWorkspace (id : WorkspaceId) : String :=
  match org.workspaces.find? fun row => row.id = id && row.tenantId = tenant with
  | some row => "'" ++ row.name ++ "' (" ++ toString id ++ ")"
  | none => toString id

/-- A card names the workspace of its board, where the board has one. -/
def ensureTaskWorkspaceAgrees (board : BoardId) (taskWorkspace : Option WorkspaceId) :
    Except BoardError Unit :=
  match taskWorkspace with
  | none => .ok ()
  | some taskWorkspace =>
      match org.getBoard tenant board with
      | none => .error .notFound
      | some row =>
          match row.workspaceId with
          | none => .ok ()
          | some boardWorkspace =>
              if boardWorkspace = taskWorkspace then .ok ()
              else
                .error (.badRequest ("board '" ++ row.name ++
                  "' belongs to workspace " ++
                  describeWorkspace org tenant boardWorkspace ++
                  ", but the task belongs to workspace " ++
                  describeWorkspace org tenant taskWorkspace ++
                  " — they must be the same"))

/-- The column of a type, as the board's routes answer for it. -/
def columnTyped (board : BoardId) (type : String) : Except BoardError ColumnId :=
  match columnNamed org.columns board type with
  | .error error => .error (.ofClaim error)
  | .ok column => .ok column

/-- `column_id`: by the type a name stands for, then by name, then the first. -/
def columnId (board : BoardId) (name : String) : Except BoardError ColumnId :=
  let wantedType : Option ColumnType :=
    match org.toLowercase name with
    | "triage" => some .backlog
    | "todo" => some .unstarted
    | "in progress" => some .started
    | "done" => some .completed
    | _ => none
  match wantedType.bind (columnOfType org.columns board) with
  | some column => .ok column
  | none =>
      match org.columnByName board name with
      | some column => .ok column
      | none =>
          match org.firstColumn board with
          | some column => .ok column
          | none => .error (.badRequest "board has no columns")

/-- An explicit id wins; then a type; then the board's first column. -/
def columnForNew (board : BoardId) (req : CreateTaskRequest) :
    Except BoardError ColumnId :=
  match req.columnId, req.columnType with
  | some column, _ => .ok column
  | none, some type => columnTyped org board type
  | none, none =>
      match org.firstColumn board with
      | some column => .ok column
      | none => .error (.badRequest "board has no columns")

/-- The column an edit writes, if it names one. -/
def columnForEdit (board : BoardId) (req : UpdateTaskRequest) :
    Except BoardError (Option ColumnId) :=
  match req.columnId, req.columnType with
  | some column, _ => .ok (some column)
  | none, some type => (columnTyped org board type).map some
  | none, none => .ok none

end Checks

section Calls

/-- `(type, board, parent)` of a card. -/
structure TaskShape where
  type : TaskType
  board : BoardId
  parent : Option TaskId
deriving DecidableEq

/-- `task_shape`. -/
def taskShape (tasks : List TaskItem) (tenant : TenantId) (id : TaskId) :
    Option TaskShape :=
  (getRow tasks tenant id).map fun row =>
    { type := row.type, board := row.boardId, parent := row.parentTaskId }

/-- `count_children`. -/
def countChildren (tasks : List TaskItem) (id : TaskId) : Nat :=
  tasks.countP (·.parentTaskId = some id)

/-- The statement a call runs next, with what it has found out so far. -/
inductive BoardStage where
  | begun
  | position (req : CreateTaskRequest) (new : NewTask)
  | insert (req : CreateTaskRequest) (new : NewTask)
  | shape (task : TaskId) (req : UpdateTaskRequest) (edit : TaskEdit)
  | children (task : TaskId) (shape : TaskShape) (req : UpdateTaskRequest)
      (edit : TaskEdit)
  | parent (task : TaskId) (shape : TaskShape) (req : UpdateTaskRequest)
      (edit : TaskEdit)
  | write (task : TaskId) (req : UpdateTaskRequest) (edit : TaskEdit)
  | place (task : TaskId) (column : ColumnId)
  | remove (task : TaskId)
  | release (task : TaskId)
  | archive (ident : TaskIdent)
  | label (task : TaskId) (on : Bool)
deriving DecidableEq

/-- A request in progress.  `wrote` remembers that one of its statements has
changed a row; nothing reads it. -/
structure BoardCall where
  tenant : TenantId
  viewer : UserId
  isAdmin : Bool
  work : BoardWork
  stage : BoardStage
  wrote : Bool
deriving DecidableEq

/-- A write, as one SQL statement or one transaction. -/
inductive BoardStatement where
  | insert (new : NewTask)
  | update (task : TaskId) (tenant : TenantId) (edit : TaskEdit)
  | setColumn (task : TaskId) (column : ColumnId)
  | delete (task : TaskId) (tenant : TenantId)
  | releaseAssignment (task : TaskId) (tenant : TenantId)
  | setArchived (task : TaskId) (tenant : TenantId)
  | setAgentReady (task : TaskId) (on : Bool)
deriving DecidableEq

/-- Why one card of a batch did not take the action. -/
inductive SkipReason where
  | said (reason : String)
  | provider (error : BoardError)
deriving DecidableEq

/-- What a call does next. -/
inductive BoardMove where
  | goesOn (stage : BoardStage)
  | runs (statement : BoardStatement)
  | refuses (error : BoardError)
  | skips (reason : SkipReason)
  | answers
deriving DecidableEq

/-- The next stage of a call, or why there is none. -/
def BoardMove.ofExcept : Except BoardError BoardStage → BoardMove
  | .ok stage => .goesOn stage
  | .error error => .refuses error

namespace BoardCall

variable (org : Organization) (tasks : List TaskItem) (call : BoardCall)

/-- An error of the provider: a batch goes on to its next card. -/
def providerError (error : BoardError) : BoardMove :=
  if call.work.isBulk then .skips (.provider error) else .refuses error

def ofProvider : Except BoardError BoardStage → BoardMove
  | .ok stage => .goesOn stage
  | .error error => call.providerError error

/-- The parent a new card is filed under. -/
def parentForNew (board : BoardId) (req : CreateTaskRequest)
    (type : Option TaskType) : Except BoardError (Option TaskId) :=
  match req.parent with
  | none => .ok none
  | some ident =>
      (validateParent org tasks call.tenant call.viewer board ident
        (type = some .epic)).map some

/-- The create route up to its last check. -/
def beginCreate (board : BoardId) (req : CreateTaskRequest) :
    Except BoardError BoardStage := do
  let provider ← providerForBoard org call.tenant board
  ensureTaskWorkspaceAgrees org call.tenant board req.workspaceId
  kanban provider
  let type ← validateTaskType req.type
  let visibility ← validateVisibility req.visibility
  let parent ← call.parentForNew org tasks board req type
  let column ← columnForNew org board req
  .ok (.position req
    { tenant := call.tenant
      board
      columnId := column
      title := req.title
      description := req.description
      workspaceId := req.workspaceId
      priority := max 0 (min 4 (req.priority.getD 0))
      type := type.getD .task
      visibility := visibility.getD .team
      createdBy := some call.viewer
      parentTaskId := parent })

/-- The fields of an edit that are known before the card's shape is. -/
def editOf (req : UpdateTaskRequest) (type : Option TaskType)
    (visibility : Option Visibility) : TaskEdit :=
  { title := req.title
    description := req.description
    position := req.position
    assigneeUserId := req.assigneeUserId
    priority := req.priority.map fun priority => max 0 (min 4 priority)
    setWorkspace := req.workspaceId.isSome
    workspaceId := req.workspaceId.bind id
    expectedUpdatedAt := req.expectedUpdatedAt
    type
    visibility
    setParent := req.parent.isSome }

/-- The provider's `update_task` before its first query. -/
def validateUpdate (task : TaskId) (req : UpdateTaskRequest) :
    Except BoardError BoardStage := do
  let type ← validateTaskType req.type
  let visibility ← validateVisibility req.visibility
  .ok (.shape task req (editOf req type visibility))

/-- Only an owner of the card or an admin changes who sees it. -/
def visibilityGate (existing : TaskItem) (req : UpdateTaskRequest) :
    Except BoardError Unit :=
  match req.visibility with
  | none => .ok ()
  | some wanted =>
      if Visibility.parse wanted ≠ some existing.visibility ∧
          !owns existing call.viewer ∧ !call.isAdmin then
        .error (.forbidden "this needs tenant owner or admin")
      else .ok ()

/-- The update route up to the provider's first query. -/
def beginUpdate (ident : TaskIdent) (req : UpdateTaskRequest) :
    Except BoardError BoardStage := do
  let existing ← lookUp org tasks call.tenant ident
  if !visibleTo existing call.viewer then .error .notFound
  else
    call.visibilityGate existing req
    ensureTaskWorkspaceAgrees org call.tenant existing.boardId
      (req.workspaceId.bind id)
    let provider ← providerForBoard org call.tenant existing.boardId
    kanban provider
    validateUpdate existing.id req

/-- The move route up to its write. -/
def beginMove (ident : TaskIdent) (column columnType : Option String) :
    Except BoardError BoardStage := do
  let id ← resolveId org tasks call.tenant ident
  match column, columnType with
  | some _, some _ | none, none =>
      .error (.unprocessable ("give exactly one of `column` (an exact column " ++
        "name) or `column_type` (backlog|unstarted|started|review|completed|" ++
        "canceled)"))
  | some name, none =>
      match getRow tasks call.tenant id with
      | none => .error .notFound
      | some task => do
          let column ← columnId org task.boardId name
          .ok (.place task.id column)
  | none, some type =>
      match getRow tasks call.tenant id with
      | none => .error .notFound
      | some task => do
          let column ← columnTyped org task.boardId type
          .ok (.place task.id column)

/-- The provider's part of a bulk edit. -/
def applyUpdate (task : TaskItem) (req : UpdateTaskRequest) : BoardMove :=
  match providerForBoard org call.tenant task.boardId with
  | .error error => .refuses error
  | .ok provider =>
      match kanban provider with
      | .error .notFound => .skips (.said "no provider for this board")
      | .error error => .skips (.provider error)
      | .ok () => call.ofProvider (validateUpdate task.id req)

/-- A bulk action on a card the caller sees. -/
def applyAction (ident : TaskIdent) (task : TaskItem) : BulkAction → BoardMove
  | .agentReady on =>
      if task.type = .epic then .skips (.said "epics are never agent-ready")
      else .goesOn (.label task.id on)
  | .setType type =>
      if task.type = .epic then .skips (.said "epics are containers")
      else call.applyUpdate org task { type := some type }
  | .moveColumn type => call.applyUpdate org task { columnType := some type }
  | .priority value => call.applyUpdate org task { priority := some value }
  | .assignee (some user) =>
      call.applyUpdate org task { assigneeUserId := some user }
  | .assignee none => .goesOn (.release task.id)
  | .archive => .goesOn (.archive ident)

/-- One card of a batch, up to the action's own first query. -/
def beginItem (ident : TaskIdent) (action : BulkAction) : BoardMove :=
  match resolveId org tasks call.tenant ident with
  | .error .notFound => .skips (.said "not found in your tenant")
  | .error error => .refuses error
  | .ok id =>
      match getRow tasks call.tenant id with
      | none => .skips (.said "not found")
      | some task =>
          if !visibleTo task call.viewer then
            .skips (.said "not visible to you")
          else call.applyAction org ident task action

/-- The first reading of a call. -/
def start : BoardMove :=
  match call.work with
  | .create board req => .ofExcept (call.beginCreate org tasks board req)
  | .update ident req => .ofExcept (call.beginUpdate org tasks ident req)
  | .move ident column columnType =>
      .ofExcept (call.beginMove org tasks ident column columnType)
  | .delete ident =>
      .ofExcept ((resolveId org tasks call.tenant ident).map .remove)
  | .bulk [] _ => .answers
  | .bulk (ident :: _) action => call.beginItem org tasks ident action

/-- `max_pos.unwrap_or(-1) + 1`. -/
def nextPosition (column : ColumnId) : Int :=
  ((tasks.filter (·.columnId = column)).map (·.position)).max?.getD (-1) + 1

/-- An epic with children keeps its type. -/
def checkChildren (task : TaskId) (shape : TaskShape) (edit : TaskEdit) :
    Except BoardError Unit :=
  if shape.type = .epic ∧ edit.type.any (· ≠ .epic) ∧ 0 < countChildren tasks task then
    .error (.badRequest ("cannot change this epic's type: it still has " ++
      toString (countChildren tasks task) ++
      " child ticket(s) — detach them first"))
  else .ok ()

/-- The parent an edit writes. -/
def parentForEdit (shape : TaskShape) (req : UpdateTaskRequest) (edit : TaskEdit) :
    Except BoardError (Option TaskId) :=
  match req.parent with
  | some (some ident) =>
      (validateParent org tasks call.tenant call.viewer shape.board ident
        (edit.type.getD shape.type = .epic)).map some
  | _ => .ok none

/-- The provider's `update_task` from its last query before the write. -/
def finishEdit (task : TaskId) (shape : TaskShape) (req : UpdateTaskRequest)
    (edit : TaskEdit) : Except BoardError BoardStage := do
  let parent ← call.parentForEdit org tasks shape req edit
  if edit.type.getD shape.type = .epic ∧ shape.parent.isSome ∧
      !(edit.setParent && parent.isNone) then
    .error (.badRequest
      "an epic cannot have a parent — detach it before making it an epic")
  else
    let column ← columnForEdit org shape.board req
    .ok (.write task req { edit with columnId := column, parentTaskId := parent })

/-- What a call does next, on the rows it reads. -/
def next : BoardMove :=
  match call.stage with
  | .begun => call.start org tasks
  | .position req new =>
      .goesOn (.insert req { new with position := nextPosition tasks new.columnId })
  | .insert _ new => .runs (.insert new)
  | .shape task req edit =>
      match taskShape tasks call.tenant task with
      | none => call.providerError .notFound
      | some shape => .goesOn (.children task shape req edit)
  | .children task shape req edit =>
      match checkChildren tasks task shape edit with
      | .error error => call.providerError error
      | .ok () => .goesOn (.parent task shape req edit)
  | .parent task shape req edit =>
      call.ofProvider (call.finishEdit org tasks task shape req edit)
  | .write task _ edit => .runs (.update task call.tenant edit)
  | .place task column => .runs (.setColumn task column)
  | .remove task => .runs (.delete task call.tenant)
  | .release task => .runs (.releaseAssignment task call.tenant)
  | .archive ident =>
      match resolveId org tasks call.tenant ident with
      | .error error => .refuses error
      | .ok id => .runs (.setArchived id call.tenant)
  | .label task on => .runs (.setAgentReady task on)

end BoardCall

end Calls

section Store

/-- The tables these routes write: the cards, which of them are labelled
`agent-ready`, and the next number of each board and id of a card. -/
structure BoardStore where
  tasks : List TaskItem
  agentReady : List TaskId
  nextNumber : BoardId → Int
  nextId : TaskId

namespace BoardStore

variable (org : Organization) (store : BoardStore)

/-- A card the foreign keys may name. -/
def stored (id : TaskId) : Bool :=
  (Table.find TaskItem.id store.tasks id).isSome

/-- The rows that the values of a statement refer to are there. -/
def referenced (column : Option ColumnId) (workspace : Option WorkspaceId)
    (parent : Option TaskId) : Bool :=
  column.all (fun id => org.columns.any (·.id = id)) &&
    workspace.all (fun id => org.workspaces.any (·.id = id)) &&
    parent.all store.stored

/-- Why the database does not run a statement: the row is not there, it moved
under the edit, or a constraint forbids the write. -/
def rejects : BoardStatement → Option BoardError
  | .insert new =>
      if org.boards.any (·.id = new.board) &&
          store.referenced org (some new.columnId) new.workspaceId
            new.parentTaskId then none
      else some .database
  | .update task tenant edit =>
      match getRow store.tasks tenant task with
      | none => some .notFound
      | some row =>
          if !Repo.unmoved edit row then some (.moved row)
          else if store.referenced org edit.columnId
              (if edit.setWorkspace then edit.workspaceId else none)
              (if edit.setParent then edit.parentTaskId else none) then none
          else some .database
  | .setColumn task _ => if store.stored task then none else some .database
  | .delete task tenant | .setArchived task tenant =>
      if (getRow store.tasks tenant task).isSome then none else some .notFound
  | .releaseAssignment .. => none
  | .setAgentReady task on =>
      if on && !store.stored task then some .database else none

/-- A statement that runs changes a row, but for the one whose WHERE clause may
match none. -/
def touches : BoardStatement → Bool
  | .releaseAssignment task tenant => (getRow store.tasks tenant task).isSome
  | _ => true

/-- `UPDATE tasks SET … WHERE id = $1 AND tenant_id = $2`. -/
def updateRow (task : TaskId) (tenant : TenantId) (change : TaskItem → TaskItem) :
    BoardStore :=
  if (getRow store.tasks tenant task).isSome then
    { store with tasks := Table.update TaskItem.id task change store.tasks }
  else store

/-- A row whose parent is deleted loses the link. -/
def orphan (task : TaskId) (row : TaskItem) : TaskItem :=
  if row.parentTaskId = some task then { row with parentTaskId := none } else row

/-- What a statement does that the database runs. -/
def execute (now : Instant) : BoardStatement → BoardStore
  | .insert new =>
      { store with
        tasks := store.tasks ++
          [Repo.createTask now store.nextId (store.nextNumber new.board) new]
        nextNumber := Function.update store.nextNumber new.board
          (store.nextNumber new.board + 1)
        nextId := store.nextId + 1 }
  | .update task tenant edit =>
      store.updateRow task tenant fun row =>
        (Repo.updateFields now edit row).getD row
  | .setColumn task column =>
      { store with
        tasks := Table.update TaskItem.id task
          (Repo.setColumn org.columns now column) store.tasks }
  | .delete task tenant =>
      if (getRow store.tasks tenant task).isSome then
        { store with
          tasks := (Table.delete TaskItem.id task store.tasks).map (orphan task)
          agentReady := store.agentReady.filter (· ≠ task) }
      else store
  | .releaseAssignment task tenant =>
      store.updateRow task tenant (Repo.releaseAssignment now)
  | .setArchived task tenant =>
      store.updateRow task tenant (Repo.setArchived now true)
  | .setAgentReady task on =>
      { store with
        agentReady :=
          if on then store.agentReady.insert task
          else store.agentReady.filter (· ≠ task) }

end BoardStore

/-- What comes of the next statement of a call. -/
inductive Progress where
  | goesOn (stage : BoardStage)
  | wrote (store : BoardStore) (touched : Bool)
  | skipped (reason : SkipReason)
  | refused (error : BoardError)
  | answered

/-- Run the next statement of a call. -/
def BoardCall.proceed (org : Organization) (now : Instant) (store : BoardStore)
    (call : BoardCall) : Progress :=
  match call.next org store.tasks with
  | .goesOn stage => .goesOn stage
  | .refuses error => .refused error
  | .skips reason => .skipped reason
  | .answers => .answered
  | .runs statement =>
      match store.rejects org statement with
      | none => .wrote (store.execute org now statement) (store.touches statement)
      | some error =>
          match statement, call.work with
          | .update .., .bulk .. => .skipped (.provider error)
          | _, _ => .refused error

/-- What is left of a call once a card of it is done with. -/
def BoardCall.rest (call : BoardCall) : Option BoardCall :=
  match call.work with
  | .bulk (_ :: idents) action =>
      some { call with work := .bulk idents action, stage := .begun }
  | _ => none

end Store

/-- The tables and the calls in flight. -/
structure Boards extends BoardStore where
  calls : List BoardCall

/-- One step of one client. -/
inductive BoardStep where
  | call (tenant : TenantId) (viewer : UserId) (isAdmin : Bool) (work : BoardWork)
  | goOn (call : Nat) (now : Instant)
deriving DecidableEq

namespace Boards

/-- The call at an index is over, or what is left of it goes on. -/
def settle (index : Nat) (left : Option BoardCall) (calls : List BoardCall) :
    List BoardCall :=
  match left with
  | none => calls.eraseIdx index
  | some rest => calls.set index rest

/-- The calls once the one at an index has taken its next step. -/
def callsAfter (index : Nat) (call : BoardCall) (calls : List BoardCall) :
    Progress → List BoardCall
  | .goesOn stage => calls.set index { call with stage }
  | .wrote _ touched =>
      settle index { call with wrote := call.wrote || touched }.rest calls
  | .skipped _ => settle index call.rest calls
  | .refused _ | .answered => calls.eraseIdx index

/-- The tables once a call has taken its next step. -/
def storeAfter (store : BoardStore) : Progress → BoardStore
  | .wrote written _ => written
  | _ => store

/-- Any client may start a call, and any call may take its next step. -/
def step (org : Organization) (boards : Boards) : BoardStep → Option Boards
  | .call tenant viewer isAdmin work =>
      some { boards with
        calls := boards.calls ++
          [{ tenant, viewer, isAdmin, work, stage := .begun, wrote := false }] }
  | .goOn index now => do
      let call ← boards.calls[index]?
      let progress := call.proceed org now boards.toBoardStore
      some
        { toBoardStore := storeAfter boards.toBoardStore progress
          calls := callsAfter index call boards.calls progress }

end Boards

end NookOs.Tasks
