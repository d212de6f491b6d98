/-
Module: NookOs.Tasks.BoardIntegrity
Purpose: When every card keeps its place in every interleaving of the board's
  routes, and a request that is refused has changed no row.
Trusted boundary: none
Main exports: InsertKept, EditKept, WriteTimely, Spoiled, Boards.Timely, Boards.integrity_iff
-/
import NookOs.Tasks.BoardChecks

namespace NookOs.Tasks

open Lib
open Jobs (Instant TenantId TaskId WorkspaceId UserId)

/-!
A condition speaks of the rows as they are when the write runs: what the client
named itself is checked nowhere, and what a check has read of another row may
have changed since.
-/

section Conditions

variable (org : Organization) (tasks : List TaskItem)

/-- The card with an id is an epic now. -/
def isEpic (id : TaskId) : Bool :=
  (Table.find TaskItem.id tasks id).any (·.type = .epic)

/-- What a client named itself belongs where the card goes, and the parent that
was checked is still an epic. -/
structure InsertKept (tenant : TenantId) (req : CreateTaskRequest) (new : NewTask) :
    Prop where
  column : ∀ column ∈ req.columnId, org.onBoard column new.board = true
  workspace : ∀ workspace ∈ new.workspaceId, org.inTenant workspace tenant = true
  parent : ∀ parent ∈ new.parentTaskId, isEpic tasks parent = true

/-- The same for an edit of a row as it is now: a parent that is set is another
card, an epic still, and the row is none; a row made an epic has no parent that
stays, and one made something else has no child. -/
structure EditKept (row : TaskItem) (req : UpdateTaskRequest) (edit : TaskEdit) :
    Prop where
  column : ∀ column ∈ req.columnId, org.onBoard column row.boardId = true
  workspace : edit.setWorkspace = true → ∀ workspace ∈ edit.workspaceId,
    org.inTenant workspace row.tenantId = true
  newParent : edit.setParent = true → ∀ parent ∈ edit.parentTaskId,
    parent ≠ row.id ∧ isEpic tasks parent = true ∧ edit.type.getD row.type ≠ .epic
  keptParent : edit.setParent = false → edit.type = some .epic →
    row.parentTaskId = none
  children : ∀ type ∈ edit.type, type ≠ .epic → countChildren tasks row.id = 0

instance (tenant : TenantId) (req : CreateTaskRequest) (new : NewTask) :
    Decidable (InsertKept org tasks tenant req new) :=
  decidable_of_iff
    ((∀ column ∈ req.columnId, org.onBoard column new.board = true) ∧
      (∀ workspace ∈ new.workspaceId, org.inTenant workspace tenant = true) ∧
      ∀ parent ∈ new.parentTaskId, isEpic tasks parent = true)
    ⟨fun ⟨column, workspace, parent⟩ => ⟨column, workspace, parent⟩,
      fun ⟨column, workspace, parent⟩ => ⟨column, workspace, parent⟩⟩

instance (row : TaskItem) (req : UpdateTaskRequest) (edit : TaskEdit) :
    Decidable (EditKept org tasks row req edit) :=
  decidable_of_iff
    ((∀ column ∈ req.columnId, org.onBoard column row.boardId = true) ∧
      (edit.setWorkspace = true → ∀ workspace ∈ edit.workspaceId,
        org.inTenant workspace row.tenantId = true) ∧
      (edit.setParent = true → ∀ parent ∈ edit.parentTaskId,
        parent ≠ row.id ∧ isEpic tasks parent = true ∧
          edit.type.getD row.type ≠ .epic) ∧
      (edit.setParent = false → edit.type = some .epic →
        row.parentTaskId = none) ∧
      ∀ type ∈ edit.type, type ≠ .epic → countChildren tasks row.id = 0)
    ⟨fun ⟨column, workspace, newParent, keptParent, children⟩ =>
        ⟨column, workspace, newParent, keptParent, children⟩,
      fun ⟨column, workspace, newParent, keptParent, children⟩ =>
        ⟨column, workspace, newParent, keptParent, children⟩⟩

end Conditions

variable {tenant : TenantId} {task : TaskId} {tasks : List TaskItem}

section Effects

variable {org : Organization} {store : BoardStore} {call : BoardCall} {now : Instant}

theorem samePlace_updateFields (edit : TaskEdit) (row : TaskItem) :
    SamePlace row ((Repo.updateFields now edit row).getD row) := by
  unfold Repo.updateFields
  split <;> exact ⟨rfl, rfl, rfl⟩

theorem samePlace_orphan (task : TaskId) (row : TaskItem) :
    SamePlace row (BoardStore.orphan task row) := by
  unfold BoardStore.orphan
  split <;> exact ⟨rfl, rfl, rfl⟩

variable {change : TaskItem → TaskItem}

theorem rows_of_update (keeps : ∀ row, SamePlace row (change row)) :
    ∀ row ∈ Table.update TaskItem.id task change tasks,
      ∃ earlier ∈ tasks, SamePlace earlier row := by
  intro row member
  obtain ⟨earlier, earlierMember, rfl⟩ := List.mem_map.mp member
  refine ⟨earlier, earlierMember, ?_⟩
  split
  · exact keeps earlier
  · exact ⟨rfl, rfl, rfl⟩

theorem rows_of_updateRow (keeps : ∀ row, SamePlace row (change row)) :
    ∀ row ∈ (store.updateRow task tenant change).tasks,
      ∃ earlier ∈ store.tasks, SamePlace earlier row := by
  unfold BoardStore.updateRow
  split
  · exact rows_of_update keeps
  · exact fun row member => ⟨row, member, rfl, rfl, rfl⟩

theorem updateRow_nextId :
    (store.updateRow task tenant change).nextId = store.nextId := by
  unfold BoardStore.updateRow
  split <;> rfl

/-- A statement that files no card leaves each row's id, tenant and board. -/
theorem rows_of_execute {statement : BoardStatement} (notInsert : ∀ new, statement ≠ .insert new) :
    (store.execute org now statement).nextId = store.nextId ∧
      ∀ row ∈ (store.execute org now statement).tasks,
        ∃ earlier ∈ store.tasks, SamePlace earlier row := by
  cases statement with
  | insert new => exact absurd rfl (notInsert new)
  | update task tenant edit =>
      exact ⟨updateRow_nextId, rows_of_updateRow (samePlace_updateFields edit)⟩
  | setColumn task column =>
      exact ⟨rfl, rows_of_update fun row => ⟨rfl, rfl, rfl⟩⟩
  | delete task tenant =>
      simp only [BoardStore.execute]
      split
      · refine ⟨rfl, ?_⟩
        intro row member
        obtain ⟨earlier, kept, rfl⟩ := List.mem_map.mp member
        exact ⟨earlier, (List.mem_filter.mp kept).1, samePlace_orphan task earlier⟩
      · exact ⟨rfl, fun row member => ⟨row, member, rfl, rfl, rfl⟩⟩
  | releaseAssignment | setArchived =>
      exact ⟨updateRow_nextId, rows_of_updateRow fun row => ⟨rfl, rfl, rfl⟩⟩
  | setAgentReady task on =>
      exact ⟨rfl, fun row member => ⟨row, member, rfl, rfl, rfl⟩⟩

theorem grown_execute (numbered : Numbered store) (statement : BoardStatement) :
    Grown store (store.execute org now statement) ∧
      Numbered (store.execute org now statement) := by
  by_cases files : ∃ new, statement = .insert new
  · obtain ⟨new, rfl⟩ := files
    refine ⟨⟨Nat.le_succ _, ?_⟩, ?_⟩
    · intro row member small
      rcases List.mem_append.mp member with old | isNew
      · exact ⟨row, old, rfl, rfl, rfl⟩
      · rw [List.mem_singleton.mp isNew] at small
        exact absurd small (Nat.lt_irrefl _)
    · intro row member
      rcases List.mem_append.mp member with old | isNew
      · exact Nat.lt_succ_of_lt (numbered row old)
      · rw [List.mem_singleton.mp isNew]
        exact Nat.lt_succ_self _
  · obtain ⟨sameNext, rows⟩ := @rows_of_execute org store now statement
      (fun new isInsert => files ⟨new, isInsert⟩)
    refine ⟨⟨sameNext ▸ Nat.le_refl _, fun row member _ => rows row member⟩, ?_⟩
    intro row member
    obtain ⟨earlier, earlierMember, same⟩ := rows row member
    rw [sameNext, same.id]
    exact numbered earlier earlierMember

/-- A card named by a call is an epic of its board exactly when it is an epic. -/
theorem epicAt_iff {id : TaskId} {board : BoardId} (keyed : Table.Keyed TaskItem.id store.tasks)
    (names : Names store id tenant board) :
    EpicAt store.tasks tenant board id ↔ isEpic store.tasks id = true := by
  unfold isEpic
  constructor
  · rintro ⟨epic, member, rfl, isEpic, _⟩
    rw [keyed.find_of_mem member, Option.any_some]
    exact decide_eq_true isEpic
  · intro found
    obtain ⟨row, isRow, isEpic⟩ := (Option.any_eq_true _ _).mp found
    obtain ⟨member, sameId⟩ := Table.find_some isRow
    obtain ⟨sameTenant, sameBoard⟩ := names.place row member sameId
    exact ⟨row, member, sameId, of_decide_eq_true isEpic, sameBoard, sameTenant⟩

/-- The insert of a new card keeps integrity exactly when what the client named
belongs where the card goes and its parent is still an epic. -/
theorem integral_insert_iff (integral : Integral org store.tasks) (numbered : Numbered store)
    {req : CreateTaskRequest} {new : NewTask} (held : HeldNew org store call req new) :
    Integral org (store.execute org now (.insert new)).tasks ↔
      InsertKept org store.tasks call.tenant req new := by
  have fresh : ∀ row ∈ store.tasks,
      row.id ≠ (Repo.createTask now store.nextId (store.nextNumber new.board)
        new).id :=
    fun row member => Nat.ne_of_lt (numbered row member)
  simp only [BoardStore.execute]
  rw [integral.insert_iff fresh]
  constructor
  · rintro ⟨placed, parented⟩
    constructor
    · intro column named
      rw [← held.explicit column named]
      exact placed.column
    · intro workspace named
      rw [← held.tenant]
      exact placed.workspace workspace named
    · intro parent isParent
      obtain ⟨_, epic⟩ := parented parent isParent
      have epic : EpicAt store.tasks new.tenant new.board parent := epic
      rw [held.tenant] at epic
      exact (epicAt_iff integral.keyed (held.parent parent isParent).2).mp epic
  · intro kept
    refine ⟨⟨?_, ?_, ?_⟩, ?_⟩
    · rcases held.column with explicit | onBoard
      · exact kept.column new.columnId explicit
      · exact onBoard
    · have board := held.board
      rw [← held.tenant] at board
      exact board
    · intro workspace named
      have inTenant := kept.workspace workspace named
      rw [← held.tenant] at inTenant
      exact inTenant
    · intro parent isParent
      obtain ⟨notEpic, names⟩ := held.parent parent isParent
      have epic := (epicAt_iff integral.keyed names).mpr (kept.parent parent isParent)
      rw [← held.tenant] at epic
      exact ⟨notEpic, epic⟩

/-- The row an edit writes. -/
theorem updateRow_of_read {row : TaskItem} (read : getRow store.tasks tenant task = some row) :
    (store.updateRow task tenant change).tasks =
      Table.update TaskItem.id row.id change store.tasks := by
  rw [BoardStore.updateRow, read, (getRow_some read).2.1]
  rfl

/-- The row an edit makes of a row that has not moved. -/
def edited (now : Instant) (edit : TaskEdit) (row : TaskItem) : TaskItem :=
  (Repo.updateFields now edit row).getD row

theorem edited_fields {edit : TaskEdit} {row : TaskItem} (unmoved : Repo.unmoved edit row = true) :
    (edited now edit row).columnId = edit.columnId.getD row.columnId ∧
      (edited now edit row).workspaceId =
        (if edit.setWorkspace then edit.workspaceId else row.workspaceId) ∧
      (edited now edit row).type = edit.type.getD row.type ∧
      (edited now edit row).parentTaskId =
        if edit.setParent then edit.parentTaskId else row.parentTaskId := by
  simp [edited, Repo.updateFields, unmoved]

variable {req : UpdateTaskRequest} {edit : TaskEdit} {row : TaskItem}

/-- An edited row has its place when the column and the workspace that the
client named belong there. -/
theorem placed_edited_iff (placed : Placed org row)
    (held : HeldEdit org store call row.boardId req edit) (unmoved : Repo.unmoved edit row = true) :
    Placed org (edited now edit row) ↔
      (∀ column ∈ req.columnId, org.onBoard column row.boardId = true) ∧
        (edit.setWorkspace = true → ∀ workspace ∈ edit.workspaceId,
          org.inTenant workspace row.tenantId = true) := by
  have same : SamePlace row (edited now edit row) := samePlace_updateFields edit row
  obtain ⟨columnWritten, workspaceWritten, _⟩ :=
    @edited_fields now edit row unmoved
  constructor
  · intro after
    constructor
    · intro column named
      have onBoard := after.column
      rw [columnWritten, held.explicit column named, same.boardId] at onBoard
      exact onBoard
    · intro sets workspace named
      have inTenant := after.workspace workspace
        (by rw [workspaceWritten, if_pos sets]; exact named)
      rw [same.tenantId] at inTenant
      exact inTenant
  · rintro ⟨explicit, workspaces⟩
    constructor
    · rw [columnWritten, same.boardId]
      cases chosen : edit.columnId with
      | none => exact placed.column
      | some column =>
          rcases held.column column chosen with named | onBoard
          · exact explicit column named
          · exact onBoard
    · rw [same.tenantId, same.boardId]
      exact placed.board
    · intro workspace isWorkspace
      rw [workspaceWritten] at isWorkspace
      rw [same.tenantId]
      split at isWorkspace
      case isTrue sets => exact workspaces sets workspace isWorkspace
      case isFalse => exact placed.workspace workspace isWorkspace

theorem countChildren_eq_zero_iff {id : TaskId} :
    countChildren tasks id = 0 ↔
      ∀ child ∈ tasks, child.parentTaskId ≠ some id := by
  simp [countChildren, List.countP_eq_zero]

/-- An edited row leaves the links right when its parent, where one is set, is
another card and still an epic, and no epic is given or left a parent or loses
children. -/
theorem linksKept_edited_iff (integral : Integral org store.tasks) (member : row ∈ store.tasks)
    (held : HeldEdit org store call row.boardId req edit) (sameTenant : row.tenantId = call.tenant)
    (unmoved : Repo.unmoved edit row = true) :
    LinksKept store.tasks row (edited now edit row) ↔
      (edit.setParent = true → ∀ parent ∈ edit.parentTaskId,
        parent ≠ row.id ∧ isEpic store.tasks parent = true ∧
          edit.type.getD row.type ≠ .epic) ∧
      (edit.setParent = false → edit.type = some .epic →
        row.parentTaskId = none) ∧
      ∀ type ∈ edit.type, type ≠ .epic → countChildren store.tasks row.id = 0 := by
  obtain ⟨_, _, typeWritten, parentWritten⟩ := @edited_fields now edit row unmoved
  have isEpicAt : ∀ parent ∈ edit.parentTaskId,
      (EpicAt store.tasks row.tenantId row.boardId parent ↔
        isEpic store.tasks parent = true) := by
    intro parent isParent
    rw [sameTenant]
    exact epicAt_iff integral.keyed (held.parent parent isParent)
  constructor
  · intro links
    refine ⟨?_, ?_, ?_⟩
    · intro sets parent isParent
      obtain ⟨notEpic, other, epic⟩ := links.parent parent
        (by rw [parentWritten, if_pos sets]; exact isParent)
      rw [typeWritten] at notEpic
      exact ⟨other, (isEpicAt parent isParent).mp epic, notEpic⟩
    · intro keeps becomesEpic
      cases kept : row.parentTaskId with
      | none => rfl
      | some parent =>
          obtain ⟨notEpic, _⟩ := links.parent parent
            (by rw [parentWritten, keeps]; exact kept)
          rw [typeWritten, becomesEpic] at notEpic
          exact absurd rfl notEpic
    · intro type named notEpic
      apply countChildren_eq_zero_iff.mpr
      apply links.children
      rw [typeWritten, named]
      exact notEpic
  · rintro ⟨newParent, keptParent, children⟩
    have unretyped := integral.linksKept member (rfl : row.type = row.type) rfl
    constructor
    · intro parent isParent
      rw [parentWritten] at isParent
      rw [typeWritten]
      split at isParent
      case isTrue sets =>
        obtain ⟨other, epic, notEpic⟩ := newParent sets parent isParent
        exact ⟨notEpic, other, (isEpicAt parent isParent).mpr epic⟩
      case isFalse keeps =>
        have keeps : edit.setParent = false := by simpa using keeps
        obtain ⟨notEpic, other, epic⟩ := unretyped.parent parent isParent
        refine ⟨?_, other, epic⟩
        cases named : edit.type with
        | none => exact notEpic
        | some type =>
            rintro rfl
            rw [keptParent keeps named] at isParent
            cases isParent
    · intro notEpic
      rw [typeWritten] at notEpic
      cases named : edit.type with
      | none =>
          rw [named] at notEpic
          exact unretyped.children notEpic
      | some type =>
          rw [named] at notEpic
          exact countChildren_eq_zero_iff.mp (children type named notEpic)

/-- An edit keeps integrity exactly when its conditions hold of the row it
writes. -/
theorem integral_update_iff (integral : Integral org store.tasks)
    {board : BoardId} (names : Names store task call.tenant board)
    (held : HeldEdit org store call board req edit)
    (read : getRow store.tasks call.tenant task = some row)
    (unmoved : Repo.unmoved edit row = true) :
    Integral org (store.execute org now (.update task call.tenant edit)).tasks ↔
      EditKept org store.tasks row req edit := by
  obtain ⟨member, sameId, sameTenant⟩ := getRow_some read
  rw [← (names.place row member sameId).2] at held
  have replaced : Integral org
      (store.execute org now (.update task call.tenant edit)).tasks ↔
        Placed org (edited now edit row) ∧
          LinksKept store.tasks row (edited now edit row) := by
    simp only [BoardStore.execute]
    rw [updateRow_of_read read]
    exact integral.replace_iff member (samePlace_updateFields edit)
  rw [replaced, placed_edited_iff (integral.placed row member) held unmoved,
    linksKept_edited_iff integral member held sameTenant unmoved]
  constructor
  · rintro ⟨⟨column, workspace⟩, newParent, keptParent, children⟩
    exact ⟨column, workspace, newParent, keptParent, children⟩
  · rintro ⟨column, workspace, newParent, keptParent, children⟩
    exact ⟨⟨column, workspace⟩, newParent, keptParent, children⟩

/-- A change of a row that writes neither its workspace nor its links, and moves
it within its board, keeps integrity. -/
theorem Integral.replace (integral : Integral org store.tasks) (member : row ∈ store.tasks)
    (keeps : ∀ row, SamePlace row (change row))
    (onBoard : org.onBoard (change row).columnId row.boardId = true)
    (sameWorkspace : (change row).workspaceId = row.workspaceId)
    (sameType : (change row).type = row.type)
    (sameParent : (change row).parentTaskId = row.parentTaskId) :
    Integral org (Table.update TaskItem.id row.id change store.tasks) := by
  apply (integral.replace_iff member keeps).mpr
  have placed := integral.placed row member
  refine ⟨⟨?_, ?_, ?_⟩, integral.linksKept member sameType sameParent⟩
  · rw [(keeps row).boardId]
    exact onBoard
  · rw [(keeps row).tenantId, (keeps row).boardId]
    exact placed.board
  · rw [sameWorkspace, (keeps row).tenantId]
    exact placed.workspace

/-- The same for a row that stays in its column. -/
theorem Integral.updateRow (integral : Integral org store.tasks)
    (keeps : ∀ row, SamePlace row (change row))
    (sameColumn : ∀ row, (change row).columnId = row.columnId)
    (sameWorkspace : ∀ row, (change row).workspaceId = row.workspaceId)
    (sameType : ∀ row, (change row).type = row.type)
    (sameParent : ∀ row, (change row).parentTaskId = row.parentTaskId) :
    Integral org (store.updateRow task tenant change).tasks := by
  cases read : getRow store.tasks tenant task with
  | none =>
      rw [BoardStore.updateRow, read]
      exact integral
  | some row =>
      rw [updateRow_of_read read]
      have member := (getRow_some read).1
      apply integral.replace member keeps _ (sameWorkspace row) (sameType row)
        (sameParent row)
      rw [sameColumn]
      exact (integral.placed row member).column

/-- A move keeps integrity: its column is one of the card's board. -/
theorem integral_setColumn (integral : Integral org store.tasks) {board : BoardId}
    {column : ColumnId} (names : Names store task tenant board)
    (onBoard : org.onBoard column board = true)
    (accepted : store.rejects org (.setColumn task column) = none) :
    Integral org (store.execute org now (.setColumn task column)).tasks := by
  have stored : (Table.find TaskItem.id store.tasks task).isSome = true := by
    by_contra absent
    simp [BoardStore.rejects, BoardStore.stored, absent] at accepted
  obtain ⟨row, isRow⟩ := Option.isSome_iff_exists.mp stored
  obtain ⟨member, rfl⟩ := Table.find_some isRow
  have keeps : ∀ row, SamePlace row (Repo.setColumn org.columns now column row) :=
    fun row => ⟨rfl, rfl, rfl⟩
  apply integral.replace member keeps _ rfl rfl rfl
  rw [(names.place row member rfl).2]
  exact onBoard

/-- The statements that no condition is put on keep integrity. -/
theorem integral_delete (integral : Integral org store.tasks) (task : TaskId) (tenant : TenantId) :
    Integral org (store.execute org now (.delete task tenant)).tasks := by
  simp only [BoardStore.execute]
  split
  · exact integral.delete task
  · exact integral

end Effects

section Steps

variable (org : Organization) (store : BoardStore) (call : BoardCall)

/-- A write that the database accepts meets the conditions of its statement. -/
def WriteTimely : Prop :=
  match call.stage with
  | .insert req new =>
      store.rejects org (.insert new) = none →
        InsertKept org store.tasks call.tenant req new
  | .write task req edit =>
      store.rejects org (.update task call.tenant edit) = none →
        ∀ row ∈ getRow store.tasks call.tenant task,
          EditKept org store.tasks row req edit
  | _ => True

/-- The next card of a batch is named by no reference, or is gone by the time it
is archived or labelled. -/
def Spoiled : Bool :=
  match call.stage, call.work with
  | .begun, .bulk (ident :: _) _ => ident.form = .neither
  | .archive ident, _ =>
      match resolveId org store.tasks call.tenant ident with
      | .ok _ => false
      | .error _ => true
  | .label task on, _ => on && !store.stored task
  | _, _ => false

instance : Decidable (WriteTimely org store call) := by
  unfold WriteTimely
  split <;> infer_instance

variable {org store call} {now : Instant} {answer : Except BoardError BoardStage}

theorem ofExcept_ne_runs
    {statement : BoardStatement} : BoardMove.ofExcept answer ≠ .runs statement := by
  cases answer <;> nofun

variable {error : BoardError}

theorem providerError_ne_runs {statement : BoardStatement} :
    call.providerError error ≠ .runs statement := by
  unfold BoardCall.providerError
  split <;> nofun

theorem ofProvider_ne_runs
    {statement : BoardStatement} : call.ofProvider answer ≠ .runs statement := by
  cases answer with
  | error error => exact providerError_ne_runs
  | ok stage => nofun

theorem applyUpdate_ne_runs {row : TaskItem} {req : UpdateTaskRequest}
    {statement : BoardStatement} :
    call.applyUpdate org row req ≠ .runs statement := by
  unfold BoardCall.applyUpdate
  split
  · nofun
  · split
    · nofun
    · nofun
    · exact ofProvider_ne_runs

/-- The first reading of a call writes nothing. -/
theorem start_ne_runs {statement : BoardStatement} :
    call.start org tasks ≠ .runs statement := by
  unfold BoardCall.start
  split
  case h_1 | h_2 | h_3 | h_4 => exact ofExcept_ne_runs
  case h_5 => nofun
  case h_6 =>
    unfold BoardCall.beginItem
    split
    case h_1 | h_2 => nofun
    case h_3 =>
      split
      case h_1 => nofun
      case h_2 =>
        split
        case isTrue => nofun
        case isFalse =>
          unfold BoardCall.applyAction
          split
          case h_1 => split <;> nofun
          case h_2 =>
            split
            · nofun
            · exact applyUpdate_ne_runs
          case h_3 | h_4 | h_5 => exact applyUpdate_ne_runs
          case h_6 | h_7 => nofun

/-- A call that writes has run a statement that the database accepted. -/
theorem proceed_wrote {written : BoardStore} {touched : Bool}
    (proceeded : call.proceed org now store = .wrote written touched) :
    ∃ statement, call.next org store.tasks = .runs statement ∧
      store.rejects org statement = none ∧
      written = store.execute org now statement := by
  unfold BoardCall.proceed at proceeded
  split at proceeded
  case h_1 | h_2 | h_3 | h_4 => cases proceeded
  case h_5 statement runs =>
    split at proceeded
    case h_1 accepted =>
      cases proceeded
      exact ⟨statement, runs, accepted, rfl⟩
    case h_2 => split at proceeded <;> cases proceeded

/-- An edit the database accepts finds its row, and finds it unmoved. -/
theorem row_of_accepted {edit : TaskEdit}
    (accepted : store.rejects org (.update task tenant edit) = none) :
    ∃ row, getRow store.tasks tenant task = some row ∧
      Repo.unmoved edit row = true := by
  simp only [BoardStore.rejects] at accepted
  split at accepted
  case h_1 => cases accepted
  case h_2 row read =>
    split at accepted
    case isTrue => cases accepted
    case isFalse unmoved => exact ⟨row, read, by simpa using unmoved⟩

/-- A write keeps integrity exactly when it meets the conditions of its
statement. -/
theorem integral_wrote_iff (integral : Integral org store.tasks) (numbered : Numbered store)
    (held : Held org store call) {written : BoardStore} {touched : Bool}
    (proceeded : call.proceed org now store = .wrote written touched) :
    Integral org written.tasks ↔ WriteTimely org store call := by
  obtain ⟨statement, runs, accepted, rfl⟩ := proceed_wrote proceeded
  unfold BoardCall.next at runs
  unfold Held at held
  unfold WriteTimely
  cases stage : call.stage with
  | begun =>
      rw [stage] at runs
      exact absurd runs start_ne_runs
  | position req new =>
      rw [stage] at runs
      cases runs
  | shape | children =>
      rw [stage] at runs
      dsimp only at runs
      split at runs
      · exact absurd runs providerError_ne_runs
      · cases runs
  | parent task shape req edit =>
      rw [stage] at runs
      exact absurd runs ofProvider_ne_runs
  | insert req new =>
      rw [stage] at runs held
      cases runs
      rw [integral_insert_iff integral numbered held]
      exact ⟨fun kept _ => kept, fun kept => kept accepted⟩
  | write task req edit =>
      rw [stage] at runs held
      cases runs
      obtain ⟨board, names, heldEdit⟩ := held
      obtain ⟨row, read, unmoved⟩ := row_of_accepted accepted
      rw [integral_update_iff integral names heldEdit read unmoved]
      constructor
      · intro kept _ other isOther
        rw [read] at isOther
        cases isOther
        exact kept
      · exact fun kept => kept accepted row read
  | place task column =>
      rw [stage] at runs held
      cases runs
      obtain ⟨_, board, names, onBoard⟩ := held
      exact iff_of_true (integral_setColumn integral names onBoard accepted) trivial
  | remove task =>
      rw [stage] at runs
      cases runs
      exact iff_of_true (integral_delete integral task call.tenant) trivial
  | release task =>
      rw [stage] at runs
      cases runs
      refine iff_of_true (integral.updateRow (fun row => ⟨rfl, rfl, rfl⟩) ?_ ?_ ?_ ?_)
        trivial <;> exact fun row => rfl
  | archive ident =>
      rw [stage] at runs
      dsimp only at runs
      split at runs <;> cases runs
      refine iff_of_true (integral.updateRow (fun row => ⟨rfl, rfl, rfl⟩) ?_ ?_ ?_ ?_)
        trivial <;> exact fun row => rfl
  | label task on =>
      rw [stage] at runs
      cases runs
      exact iff_of_true integral trivial

theorem resolveId_error {ident : TaskIdent}
    (refused : resolveId org tasks tenant ident = .error error) :
    error = .notFound ∨ (ident.form = .neither ∧ error ≠ .notFound) := by
  unfold resolveId at refused
  split at refused
  case h_1 =>
    split at refused <;> cases refused
    exact .inl rfl
  case h_2 =>
    split at refused <;> cases refused
    exact .inl rfl
  case h_3 form =>
    cases refused
    exact .inr ⟨form, nofun⟩

/-- The board of a card has a provider. -/
theorem providerForBoard_ok {row : TaskItem} (placed : Placed org row)
    (sameTenant : row.tenantId = call.tenant) :
    ∃ provider, providerForBoard org call.tenant row.boardId = .ok provider := by
  obtain ⟨board, isBoard⟩ := Option.isSome_iff_exists.mp placed.board
  rw [sameTenant] at isBoard
  exact ⟨board.provider, by rw [providerForBoard, isBoard]⟩

theorem providerError_of_bulk (bulk : call.work.isBulk = true) :
    call.providerError error = .skips (.provider error) := by
  rw [BoardCall.providerError, if_pos bulk]

/-- The provider refuses no card of a batch. -/
theorem ofProvider_ne_refuses (bulk : call.work.isBulk = true) :
    call.ofProvider answer ≠ .refuses error := by
  cases answer with
  | ok stage => nofun
  | error refusal =>
      rw [BoardCall.ofProvider, providerError_of_bulk bulk]
      nofun

theorem applyUpdate_ne_refuses (bulk : call.work.isBulk = true) {row : TaskItem}
    (placed : Placed org row) (sameTenant : row.tenantId = call.tenant) {req : UpdateTaskRequest} :
    call.applyUpdate org row req ≠ .refuses error := by
  obtain ⟨provider, provided⟩ := providerForBoard_ok placed sameTenant
  unfold BoardCall.applyUpdate
  rw [provided]
  dsimp only
  split
  · nofun
  · nofun
  · exact ofProvider_ne_refuses bulk

/-- A batch is refused at a card exactly when no reference names it. -/
theorem beginItem_refuses_iff (bulk : call.work.isBulk = true)
    (integral : Integral org store.tasks) {ident : TaskIdent} {action : BulkAction} :
    (∃ error, call.beginItem org store.tasks ident action = .refuses error) ↔
      ident.form = .neither := by
  unfold BoardCall.beginItem
  constructor
  · rintro ⟨error, refused⟩
    split at refused
    case h_1 => cases refused
    case h_2 notMissing unresolved =>
      rcases resolveId_error unresolved with missing | ⟨neither, _⟩
      · exact absurd missing notMissing
      · exact neither
    case h_3 =>
      split at refused
      case h_1 => cases refused
      case h_2 row read =>
        obtain ⟨member, _, sameTenant⟩ := getRow_some read
        have kept : ∀ req, call.applyUpdate org row req ≠ .refuses error :=
          fun req => applyUpdate_ne_refuses bulk (integral.placed row member)
            sameTenant
        split at refused
        case isTrue => cases refused
        case isFalse =>
          unfold BoardCall.applyAction at refused
          split at refused
          case h_1 => split at refused <;> cases refused
          case h_2 =>
            split at refused
            · cases refused
            · exact absurd refused (kept _)
          case h_3 | h_4 | h_5 => exact absurd refused (kept _)
          case h_6 | h_7 => cases refused
  · intro neither
    simp [resolveId, neither]

/-- A batch is refused at its next step exactly when its card is spoiled. -/
theorem refused_iff (bulk : call.work.isBulk = true)
    (integral : Integral org store.tasks) (held : Held org store call) :
    (∃ error, call.proceed org now store = .refused error) ↔
      Spoiled org store call = true := by
  have skipped : ∀ error, call.providerError error = .skips (.provider error) :=
    fun error => providerError_of_bulk bulk
  unfold Held at held
  unfold BoardCall.proceed BoardCall.next Spoiled
  cases stage : call.stage with
  | begun =>
      cases work : call.work with
      | create | update | move | delete => simp [work, BoardWork.isBulk] at bulk
      | bulk idents action =>
          cases idents with
          | nil => simp [BoardCall.start, work]
          | cons ident idents =>
              have exactly :=
                @beginItem_refuses_iff org store call bulk integral ident action
              have starts : call.start org store.tasks =
                  call.beginItem org store.tasks ident action := by
                simp only [BoardCall.start, work]
              simp only [starts, decide_eq_true_eq, ← exactly]
              cases begins : call.beginItem org store.tasks ident action with
              | runs statement => exact absurd (starts.trans begins) start_ne_runs
              | refuses | goesOn | skips | answers => simp
  | position | insert =>
      rw [stage] at held
      simp [held.single] at bulk
  | shape task req edit =>
      cases read : taskShape store.tasks call.tenant task <;> simp [skipped, read]
  | children task shape req edit =>
      cases checked : BoardCall.checkChildren store.tasks task shape edit <;>
        simp [skipped, checked]
  | parent task shape req edit =>
      dsimp only
      cases goes : call.ofProvider (call.finishEdit org store.tasks task shape req edit)
        with
      | runs statement => exact absurd goes ofProvider_ne_runs
      | refuses error => exact absurd goes (ofProvider_ne_refuses bulk)
      | goesOn | skips | answers => simp
  | write task req edit =>
      dsimp only
      cases work : call.work with
      | create | update | move | delete => simp [work, BoardWork.isBulk] at bulk
      | bulk idents action => split <;> simp
  | place task column =>
      rw [stage] at held
      simp [held.1] at bulk
  | remove task =>
      rw [stage] at held
      simp [bulk] at held
  | release task => simp [BoardStore.rejects]
  | archive ident =>
      dsimp only
      cases resolved : resolveId org store.tasks call.tenant ident with
      | error error => simp
      | ok id =>
          obtain ⟨row, member, rfl, sameTenant⟩ := resolveId_ok resolved
          have read := getRow_of_mem integral.keyed member
          rw [sameTenant] at read
          simp [BoardStore.rejects, read]
  | label task on =>
      cases on <;> cases present : store.stored task <;>
        simp [BoardStore.rejects, present]

end Steps

namespace Boards

/-- What a step owes the boards: every card keeps its place, and a request that
is refused has changed no row. -/
structure Right (org : Organization) (before : Boards) (label : BoardStep)
    (after : Boards) : Prop where
  integral : Integral org after.tasks
  refused : ∀ index now call error, label = .goOn index now →
    before.calls[index]? = some call →
    call.proceed org now before.toBoardStore = .refused error →
      after.toBoardStore = before.toBoardStore ∧ call.wrote = false

/-- What the checks of a call found is still so when it writes, and a batch that
has written meets no card it is refused at. -/
def Timely (org : Organization) (boards : Boards) : BoardStep → Prop
  | .call .. => True
  | .goOn index _ => ∀ call ∈ boards.calls[index]?,
      WriteTimely org boards.toBoardStore call ∧
        (call.wrote = true → Spoiled org boards.toBoardStore call = false)

instance (org : Organization) (boards : Boards) (label : BoardStep) :
    Decidable (Timely org boards label) :=
  match label with
  | .call .. => isTrue trivial
  | .goOn index _ => inferInstanceAs (Decidable (∀ call ∈ boards.calls[index]?, _ ∧ _))

/-- Integrity, and what the calls in flight hold. -/
structure Sound (org : Organization) (boards : Boards) : Prop where
  integral : Integral org boards.tasks
  numbered : Numbered boards.toBoardStore
  held : ∀ call ∈ boards.calls, Held org boards.toBoardStore call
  batches : ∀ call ∈ boards.calls, call.wrote = true → call.work.isBulk = true

variable {org : Organization} {before after : Boards} {label : BoardStep}

theorem step_goOn {index : Nat} {now : Instant}
    (taken : before.step org (.goOn index now) = some after) :
    ∃ call, before.calls[index]? = some call ∧
      after =
        { toBoardStore := storeAfter before.toBoardStore
            (call.proceed org now before.toBoardStore)
          calls := callsAfter index call before.calls
            (call.proceed org now before.toBoardStore) } := by
  obtain ⟨call, present, moved⟩ := Option.bind_eq_some_iff.mp taken
  exact ⟨call, present, (Option.some.inj moved).symm⟩

theorem rest_some {call left : BoardCall} (rests : call.rest = some left) :
    left.stage = .begun ∧ left.work.isBulk = true := by
  unfold BoardCall.rest at rests
  split at rests <;> cases rests
  exact ⟨rfl, rfl⟩

theorem mem_settle {index : Nat} {calls : List BoardCall} {call other : BoardCall}
    (member : other ∈ settle index call.rest calls) :
    other ∈ calls ∨ (other.stage = .begun ∧ other.work.isBulk = true) := by
  unfold settle at member
  split at member
  case h_1 => exact .inl (List.mem_of_mem_eraseIdx member)
  case h_2 left rests =>
    rcases List.mem_or_eq_of_mem_set member with old | rfl
    · exact .inl old
    · exact .inr (rest_some rests)

/-- After a step every call stood there before, or has gone on, or is a batch at
its next card. -/
theorem mem_callsAfter {index : Nat} {calls : List BoardCall} {call other : BoardCall}
    {progress : Progress} (member : other ∈ callsAfter index call calls progress) :
    other ∈ calls ∨ (∃ stage, progress = .goesOn stage ∧ other = { call with stage }) ∨
      (other.stage = .begun ∧ other.work.isBulk = true) := by
  unfold callsAfter at member
  cases progress with
  | goesOn stage =>
      rcases List.mem_or_eq_of_mem_set member with old | rfl
      · exact .inl old
      · exact .inr (.inl ⟨stage, rfl, rfl⟩)
  | wrote written touched | skipped reason =>
      rcases mem_settle member with old | atNext
      · exact .inl old
      · exact .inr (.inr atNext)
  | refused error | answered => exact .inl (List.mem_of_mem_eraseIdx member)

theorem held_of_begun {store : BoardStore} {call : BoardCall}
    (begun : call.stage = .begun) : Held org store call := by
  rw [Held, begun]
  trivial

/-- The tables after a step of a call have grown from those before it. -/
theorem grown_storeAfter {store : BoardStore} {call : BoardCall} {now : Instant}
    (numbered : Numbered store) :
    Grown store (storeAfter store (call.proceed org now store)) ∧
      Numbered (storeAfter store (call.proceed org now store)) := by
  cases proceeded : call.proceed org now store with
  | wrote written touched =>
      obtain ⟨statement, _, _, rfl⟩ := proceed_wrote proceeded
      exact grown_execute numbered statement
  | goesOn | skipped | refused | answered => exact ⟨.refl store, numbered⟩

/-- A call that goes on holds at its next stage what it must. -/
theorem held_goesOn {store : BoardStore} {call : BoardCall} {now : Instant} {stage : BoardStage}
    (keyed : Table.Keyed TaskItem.id store.tasks) (numbered : Numbered store)
    (held : Held org store call) (goes : call.proceed org now store = .goesOn stage) :
    Held org store { call with stage } := by
  unfold BoardCall.proceed at goes
  split at goes
  case h_1 onward =>
    cases goes
    exact held_next keyed numbered held onward
  case h_2 | h_3 | h_4 => cases goes
  case h_5 =>
    split at goes
    case h_1 => cases goes
    case h_2 => split at goes <;> cases goes

/-- The calls keep what they hold in every step after which integrity holds. -/
theorem Sound.step (sound : Sound org before) (taken : before.step org label = some after)
    (integral : Integral org after.tasks) : Sound org after := by
  cases label with
  | call tenant viewer isAdmin work =>
      cases taken
      constructor
      · exact integral
      · exact sound.numbered
      · intro call member
        rcases List.mem_append.mp member with old | isNew
        · exact sound.held call old
        · rw [List.mem_singleton.mp isNew]
          trivial
      · intro call member wrote
        rcases List.mem_append.mp member with old | isNew
        · exact sound.batches call old wrote
        · rw [List.mem_singleton.mp isNew] at wrote
          cases wrote
  | goOn index now =>
      obtain ⟨call, present, rfl⟩ := step_goOn taken
      have member := List.mem_of_getElem? present
      obtain ⟨grown, numbered⟩ :=
        @grown_storeAfter org before.toBoardStore call now sound.numbered
      constructor
      · exact integral
      · exact numbered
      · intro other after
        rcases mem_callsAfter after with old | ⟨stage, goes, rfl⟩ | ⟨begun, _⟩
        · exact (sound.held other old).grow grown
        · exact (held_goesOn sound.integral.keyed sound.numbered
            (sound.held call member) goes).grow grown
        · exact held_of_begun begun
      · intro other after wrote
        rcases mem_callsAfter after with old | ⟨stage, _, rfl⟩ | ⟨_, bulk⟩
        · exact sound.batches other old wrote
        · exact sound.batches call member wrote
        · exact bulk

/-- A step of a call keeps integrity exactly when its write, if it makes one, is
timely. -/
theorem integral_goOn_iff {call : BoardCall} {now : Instant} (sound : Sound org before)
    (member : call ∈ before.calls) :
    (∀ written touched,
        call.proceed org now before.toBoardStore = .wrote written touched →
          WriteTimely org before.toBoardStore call) ↔
      Integral org (storeAfter before.toBoardStore
        (call.proceed org now before.toBoardStore)).tasks := by
  have held := sound.held call member
  cases proceeded : call.proceed org now before.toBoardStore with
  | wrote written touched =>
      have exactly := integral_wrote_iff sound.integral sound.numbered held proceeded
      constructor
      · exact fun timely => exactly.mpr (timely written touched rfl)
      · exact fun integral _ _ _ => exactly.mp integral
  | goesOn | skipped | refused | answered =>
      exact iff_of_true (by nofun) sound.integral

/-- Only a statement that is run can be untimely. -/
theorem writeTimely_of_not_wrote {call : BoardCall} {now : Instant}
    {store : BoardStore}
    (timely : ∀ written touched, call.proceed org now store = .wrote written touched →
      WriteTimely org store call) : WriteTimely org store call := by
  unfold WriteTimely
  cases stage : call.stage with
  | insert req new =>
      intro accepted
      have wrote : call.proceed org now store =
          .wrote (store.execute org now (.insert new)) true := by
        simp only [BoardCall.proceed, BoardCall.next, stage, accepted,
          BoardStore.touches]
      have kept := timely _ _ wrote
      simp only [WriteTimely, stage] at kept
      exact kept accepted
  | write task req edit =>
      intro accepted
      have wrote : call.proceed org now store =
          .wrote (store.execute org now (.update task call.tenant edit)) true := by
        simp only [BoardCall.proceed, BoardCall.next, stage, accepted,
          BoardStore.touches]
      have kept := timely _ _ wrote
      simp only [WriteTimely, stage] at kept
      exact kept accepted
  | _ => trivial

/-- A step does right by the boards exactly when it is timely. -/
theorem right_iff (sound : Sound org before) (taken : before.step org label = some after) :
    Right org before label after ↔ Timely org before label := by
  cases label with
  | call tenant viewer isAdmin work =>
      cases taken
      refine iff_of_true ⟨sound.integral, ?_⟩ trivial
      intro index now other error isGoOn
      cases isGoOn
  | goOn index now =>
      obtain ⟨call, present, rfl⟩ := step_goOn taken
      have member := List.mem_of_getElem? present
      have spoils := fun bulk => @refused_iff org before.toBoardStore call now bulk
        sound.integral (sound.held call member)
      have exactly := @integral_goOn_iff org before call now sound member
      constructor
      · intro right other isOther
        rw [present] at isOther
        cases isOther
        constructor
        · exact writeTimely_of_not_wrote (exactly.mpr right.integral)
        · intro wrote
          by_contra spoiled
          obtain ⟨error, refused⟩ := (spoils (sound.batches call member wrote)).mpr
            (by simpa using spoiled)
          have unwritten := (right.refused index now call error rfl present refused).2
          rw [wrote] at unwritten
          cases unwritten
      · intro timely
        obtain ⟨writes, unspoiled⟩ := timely call present
        constructor
        · exact exactly.mp fun _ _ _ => writes
        · intro _ _ other error isStep isOther refused
          cases isStep
          rw [present] at isOther
          cases isOther
          refine ⟨by simp only [refused, storeAfter], ?_⟩
          cases wrote : call.wrote with
          | false => rfl
          | true =>
              have spoiled := (spoils (sound.batches call member wrote)).mp
                ⟨error, refused⟩
              rw [unspoiled wrote] at spoiled
              cases spoiled

/-- In a run from boards where every card is in its place, every card stays in
its place and a refused request changes no row exactly when every step is
timely. -/
theorem integrity_iff {start : Boards} {steps : List BoardStep}
    (integral : Integral org start.tasks) (numbered : Numbered start.toBoardStore)
    (idle : start.calls = []) :
    Along (step org) (Right org) start steps ↔
      Along (step org) (fun before label _ => Timely org before label) start steps := by
  apply along_iff_of_invariant (Sound org)
  · intro before label after sound taken right
    exact sound.step taken right.integral
  · intro before label after sound taken
    exact right_iff sound taken
  · constructor
    · exact integral
    · exact numbered
    · intro call member
      rw [idle] at member
      cases member
    · intro call member
      rw [idle] at member
      cases member

/-- Two tenants with a board each; the texts of the runs below are in the case
they are looked up in. -/
def neighbours : Organization :=
  { boards :=
      [{ id := 1, tenantId := 1, workspaceId := none, provider := "local",
         name := "Main", key := some "MAIN" },
       { id := 2, tenantId := 2, workspaceId := none, provider := "local",
         name := "Other", key := some "OTHER" }]
    columns :=
      [{ id := 1, boardId := 1, name := "todo", position := 0, type := .unstarted },
       { id := 2, boardId := 2, name := "todo", position := 0, type := .unstarted },
       { id := 3, boardId := 1, name := "done", position := 1, type := .completed }]
    workspaces := []
    toLowercase := id
    lower := id
    upper := id }

/-- No card yet. -/
def unused : Boards :=
  { tasks := [], agentReady := [], nextNumber := fun _ => 1, nextId := 0, calls := [] }

def filing (req : CreateTaskRequest) : BoardStep :=
  .call 1 7 false (.create 1 req)

/-- `MAIN-1` and so on. -/
def mainKey (number : Nat) : TaskIdent :=
  { text := "MAIN-" ++ toString number, form := .key "MAIN" number }

/-- A card is filed into a column of the other tenant. -/
def foreignColumn : List BoardStep :=
  [filing { title := "card", columnId := some 2 },
    .goOn 0 0, .goOn 0 0, .goOn 0 0]

/-- An epic is made a task under itself. -/
def ownParent : List BoardStep :=
  [filing { title := "epic", type := some "epic" }, .goOn 0 0, .goOn 0 0, .goOn 0 0,
    .call 1 7 false
      (.update (mainKey 1)
        { type := some "task", parent := some (some (mainKey 1)) }),
    .goOn 0 1, .goOn 0 1, .goOn 0 1, .goOn 0 1, .goOn 0 1]

/-- The second reference of a batch is none. -/
def spoiledBatch : List BoardStep :=
  [filing { title := "card" }, .goOn 0 0, .goOn 0 0, .goOn 0 0,
    .call 1 7 false
      (.bulk [mainKey 1, { text := "MAIN", form := .neither }] (.priority 3)),
    .goOn 0 1, .goOn 0 1, .goOn 0 1, .goOn 0 1, .goOn 0 1, .goOn 0 1]

/-- The call at an index is refused at its next step. -/
def refusedAt (org : Organization) (boards : Boards) (call : BoardCall)
    (now : Instant) : Bool :=
  match call.proceed org now boards.toBoardStore with
  | .refused _ => true
  | _ => false

/-- What a right step shows that can be evaluated. -/
def shows (org : Organization) (before : Boards) (label : BoardStep)
    (after : Boards) : Bool :=
  decide (Integral org after.tasks) &&
    match label with
    | .call .. => true
    | .goOn index now =>
        before.calls[index]?.all fun call =>
          !(refusedAt org before call now && call.wrote)

theorem Right.shows (right : Right org before label after) :
    shows org before label after = true := by
  unfold Boards.shows
  simp only [right.integral, decide_true, Bool.true_and]
  cases label with
  | call => rfl
  | goOn index now =>
      dsimp only
      cases present : before.calls[index]? with
      | none => rfl
      | some call =>
          rw [Option.all_some, Bool.not_eq_true', Bool.and_eq_false_iff]
          unfold refusedAt
          split
          case h_1 error refused =>
            exact .inr (right.refused index now call error rfl present refused).2
          case h_2 => exact .inl rfl

/-- Each of the three runs leaves a card out of its place, or refuses a request
that has changed a row. -/
theorem integrity_broken :
    ¬ Along (step neighbours) (Right neighbours) unused foreignColumn ∧
      ¬ Along (step neighbours) (Right neighbours) unused ownParent ∧
      ¬ Along (step neighbours) (Right neighbours) unused spoiledBatch := by
  have shown : ∀ steps ∈ [foreignColumn, ownParent, spoiledBatch],
      ¬ Along (step neighbours)
        (fun before label after => shows neighbours before label after = true)
        unused steps := by
    decide +kernel
  have broken (steps : List BoardStep)
      (isRun : steps ∈ [foreignColumn, ownParent, spoiledBatch]) :
      ¬ Along (step neighbours) (Right neighbours) unused steps := by
    intro right
    exact shown steps isRun (right.imp fun _ _ _ _ => Right.shows)
  exact ⟨broken _ (by simp), broken _ (by simp), broken _ (by simp)⟩

/-- An epic, a card filed under it, and a move of that card. -/
theorem integrity_iff_in_order :
    Along (step neighbours) (Right neighbours) unused
      [filing { title := "epic", type := some "epic" },
        .goOn 0 0, .goOn 0 0, .goOn 0 0,
        filing { title := "card", parent := some (mainKey 1) },
        .goOn 0 1, .goOn 0 1, .goOn 0 1,
        .call 1 7 false (.move (mainKey 2) (some "done") none),
        .goOn 0 2, .goOn 0 2] :=
  (integrity_iff (by decide) (fun _ member => absurd member List.not_mem_nil)
    rfl).mpr (by decide +kernel)

end Boards

end NookOs.Tasks
