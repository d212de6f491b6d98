/-
Module: NookOs.Tasks.BoardChecks
Purpose: What it means that every card keeps its place, what each write of a row
  must be given for that, and what the checks of a call hold on to.
Trusted boundary: none
Main exports: Placed, Parented, Integral, Integral.insert_iff, Held, held_next
-/
import NookOs.Lib.Fallible
import NookOs.Tasks.BoardCalls

namespace NookOs.Tasks

open Lib
open Lib.Fallible (bind_ok map_ok)
open Jobs (Instant TenantId TaskId WorkspaceId UserId)

/-!
Integrity is a property of the rows alone, so each write is first described by
what it must be given for integrity to survive it.  A call carries to its write
what it has read; what it has read of ids, tenants and boards stays true, and
what it has read of types and parents need not.
-/

variable {row : TaskItem}

section Rows

variable (org : Organization)

/-- A card stands in a column of its board, and its board and workspace are its
tenant's. -/
structure Placed (row : TaskItem) : Prop where
  column : org.onBoard row.columnId row.boardId = true
  board : (org.getBoard row.tenantId row.boardId).isSome = true
  workspace : ∀ workspace ∈ row.workspaceId,
    org.inTenant workspace row.tenantId = true

/-- An epic of a board and a tenant. -/
def EpicAt (tasks : List TaskItem) (tenant : TenantId) (board : BoardId)
    (id : TaskId) : Prop :=
  ∃ epic ∈ tasks, epic.id = id ∧ epic.type = .epic ∧ epic.boardId = board ∧
    epic.tenantId = tenant

/-- A card that has a parent is no epic, and its parent is an epic of the same
board and tenant. -/
def Parented (tasks : List TaskItem) (row : TaskItem) : Prop :=
  ∀ parent ∈ row.parentTaskId,
    row.type ≠ .epic ∧ EpicAt tasks row.tenantId row.boardId parent

/-- Every card keeps its place. -/
structure Integral (tasks : List TaskItem) : Prop where
  keyed : Table.Keyed TaskItem.id tasks
  placed : ∀ row ∈ tasks, Placed org row
  parented : ∀ row ∈ tasks, Parented tasks row

instance (row : TaskItem) : Decidable (Placed org row) :=
  decidable_of_iff
    (org.onBoard row.columnId row.boardId = true ∧
      (org.getBoard row.tenantId row.boardId).isSome = true ∧
      ∀ workspace ∈ row.workspaceId, org.inTenant workspace row.tenantId = true)
    ⟨fun ⟨column, board, workspace⟩ => ⟨column, board, workspace⟩,
      fun ⟨column, board, workspace⟩ => ⟨column, board, workspace⟩⟩

instance (tasks : List TaskItem) (tenant : TenantId) (board : BoardId)
    (id : TaskId) : Decidable (EpicAt tasks tenant board id) :=
  inferInstanceAs (Decidable (∃ epic ∈ tasks, _))

instance (tasks : List TaskItem) (row : TaskItem) : Decidable (Parented tasks row) :=
  inferInstanceAs (Decidable (∀ parent ∈ row.parentTaskId, _ ∧ _))

instance (tasks : List TaskItem) : Decidable (Integral org tasks) :=
  decidable_of_iff
    ((tasks.map TaskItem.id).Nodup ∧ (∀ row ∈ tasks, Placed org row) ∧
      ∀ row ∈ tasks, Parented tasks row)
    ⟨fun ⟨keyed, placed, parented⟩ => ⟨keyed, placed, parented⟩,
      fun ⟨keyed, placed, parented⟩ => ⟨keyed, placed, parented⟩⟩

variable {org} {tasks : List TaskItem}

/-- A card added to the table keeps integrity when it has its own place. -/
theorem Integral.insert_iff (integral : Integral org tasks) {new : TaskItem}
    (fresh : ∀ row ∈ tasks, row.id ≠ new.id) :
    Integral org (tasks ++ [new]) ↔ Placed org new ∧ Parented tasks new := by
  have grown : ∀ {tenant board id}, EpicAt tasks tenant board id →
      EpicAt (tasks ++ [new]) tenant board id :=
    fun ⟨epic, member, facts⟩ => ⟨epic, List.mem_append_left _ member, facts⟩
  have inserted : new ∈ tasks ++ [new] := by simp
  constructor
  · intro after
    refine ⟨after.placed new inserted, ?_⟩
    intro parent isParent
    obtain ⟨notEpic, epic, member, sameId, isEpic, place⟩ :=
      after.parented new inserted parent isParent
    rcases List.mem_append.mp member with old | isNew
    · exact ⟨notEpic, epic, old, sameId, isEpic, place⟩
    · rw [List.mem_singleton.mp isNew] at isEpic
      exact absurd isEpic notEpic
  · rintro ⟨placed, parented⟩
    constructor
    · exact integral.keyed.insert (Table.find_none_iff.mpr fresh)
    · intro row member
      rcases List.mem_append.mp member with old | isNew
      · exact integral.placed row old
      · rw [List.mem_singleton.mp isNew]
        exact placed
    · intro row member parent isParent
      rcases List.mem_append.mp member with old | isNew
      · obtain ⟨notEpic, epic⟩ := integral.parented row old parent isParent
        exact ⟨notEpic, grown epic⟩
      · rw [List.mem_singleton.mp isNew] at isParent ⊢
        obtain ⟨notEpic, epic⟩ := parented parent isParent
        exact ⟨notEpic, grown epic⟩

/-- The change of a row leaves the links of the table right: its own parent is
another card that is an epic of its board, and nothing hangs off it unless it
is an epic. -/
structure LinksKept (tasks : List TaskItem) (row new : TaskItem) : Prop where
  parent : ∀ parent ∈ new.parentTaskId, new.type ≠ .epic ∧ parent ≠ row.id ∧
    EpicAt tasks row.tenantId row.boardId parent
  children : new.type ≠ .epic → ∀ child ∈ tasks, child.parentTaskId ≠ some row.id

/-- The columns no edit writes. -/
structure SamePlace (row new : TaskItem) : Prop where
  id : new.id = row.id
  tenantId : new.tenantId = row.tenantId
  boardId : new.boardId = row.boardId

/-- A row changed in its place keeps integrity when it still has its own place
and leaves the links right. -/
theorem Integral.replace_iff (integral : Integral org tasks) (member : row ∈ tasks)
    {change : TaskItem → TaskItem} (keeps : ∀ row, SamePlace row (change row)) :
    Integral org (Table.update TaskItem.id row.id change tasks) ↔
      Placed org (change row) ∧ LinksKept tasks row (change row) := by
  have inUpdate := fun other : TaskItem =>
    @Table.Keyed.mem_update_iff _ _ _ TaskItem.id tasks row change other
      integral.keyed member
  constructor
  · intro after
    have changed := (inUpdate (change row)).mpr (.inl rfl)
    refine ⟨after.placed _ changed, ?_, ?_⟩
    · intro parent isParent
      obtain ⟨notEpic, epic, epicMember, rfl, isEpic, onBoard, inTenant⟩ :=
        after.parented _ changed parent isParent
      rw [(keeps row).boardId] at onBoard
      rw [(keeps row).tenantId] at inTenant
      rcases (inUpdate epic).mp epicMember with rfl | ⟨old, other⟩
      · exact absurd isEpic notEpic
      · exact ⟨notEpic, other, epic, old, rfl, isEpic, onBoard, inTenant⟩
    · intro notEpic child childMember hangs
      -- the child is another row, whose parent has become this one
      obtain ⟨childNotEpic, epic, epicMember, sameId, isEpic, _⟩ :=
        integral.parented child childMember row.id hangs
      have isRow : epic = row :=
        eq_of_id_eq integral.keyed member epicMember sameId
      subst isRow
      have apart : child.id ≠ epic.id := by
        intro same
        rw [eq_of_id_eq integral.keyed member childMember same] at childNotEpic
        exact childNotEpic isEpic
      obtain ⟨_, parent, parentMember, parentId, parentEpic, _⟩ :=
        after.parented child ((inUpdate child).mpr (.inr ⟨childMember, apart⟩))
          _ hangs
      rcases (inUpdate parent).mp parentMember with rfl | ⟨_, other⟩
      · exact notEpic parentEpic
      · exact other parentId
  · rintro ⟨placed, links⟩
    constructor
    · exact integral.keyed.update fun row _ => (keeps row).id
    · intro other otherMember
      rcases (inUpdate other).mp otherMember with rfl | ⟨old, _⟩
      · exact placed
      · exact integral.placed other old
    · intro other otherMember parent isParent
      rcases (inUpdate other).mp otherMember with rfl | ⟨old, _⟩
      · obtain ⟨notEpic, otherRow, epic, epicMember, rfl, facts⟩ :=
          links.parent parent isParent
        rw [(keeps row).tenantId, (keeps row).boardId]
        exact ⟨notEpic, epic, (inUpdate epic).mpr (.inr ⟨epicMember, otherRow⟩),
          rfl, facts⟩
      · obtain ⟨notEpic, epic, epicMember, rfl, isEpic, onBoard, inTenant⟩ :=
          integral.parented other old parent isParent
        refine ⟨notEpic, ?_⟩
        by_cases isRow : epic.id = row.id
        · have same := eq_of_id_eq integral.keyed member epicMember isRow
          subst same
          refine ⟨change epic, (inUpdate _).mpr (.inl rfl), (keeps epic).id, ?_,
            (keeps epic).boardId.trans onBoard,
            (keeps epic).tenantId.trans inTenant⟩
          by_contra notEpic
          exact links.children notEpic other old isParent
        · exact ⟨epic, (inUpdate epic).mpr (.inr ⟨epicMember, isRow⟩), rfl, isEpic,
            onBoard, inTenant⟩

/-- A row with its type and its parent as they were leaves the links right. -/
theorem Integral.linksKept (integral : Integral org tasks) {row new : TaskItem}
    (member : row ∈ tasks) (sameType : new.type = row.type)
    (sameParent : new.parentTaskId = row.parentTaskId) :
    LinksKept tasks row new := by
  constructor
  · intro parent isParent
    rw [sameParent] at isParent
    obtain ⟨notEpic, epic, epicMember, rfl, isEpic, place⟩ :=
      integral.parented row member parent isParent
    refine ⟨sameType ▸ notEpic, ?_, epic, epicMember, rfl, isEpic, place⟩
    intro same
    exact notEpic (eq_of_id_eq integral.keyed member epicMember same ▸ isEpic)
  · intro notEpic child childMember hangs
    obtain ⟨_, epic, epicMember, sameId, isEpic, _⟩ :=
      integral.parented child childMember row.id hangs
    rw [eq_of_id_eq integral.keyed member epicMember sameId] at isEpic
    exact notEpic (sameType.trans isEpic)

/-- Deleting a card, whose children lose the link, keeps integrity. -/
theorem Integral.delete (integral : Integral org tasks) (id : TaskId) :
    Integral org
      ((Table.delete TaskItem.id id tasks).map (BoardStore.orphan id)) := by
  have keeps : ∀ row, (BoardStore.orphan id row).id = row.id ∧
      (BoardStore.orphan id row).type = row.type ∧
      (BoardStore.orphan id row).boardId = row.boardId ∧
      (BoardStore.orphan id row).tenantId = row.tenantId ∧
      (BoardStore.orphan id row).columnId = row.columnId ∧
      (BoardStore.orphan id row).workspaceId = row.workspaceId := by
    intro row
    unfold BoardStore.orphan
    split <;> simp
  constructor
  · have sameKeys : ((Table.delete TaskItem.id id tasks).map
        (BoardStore.orphan id)).map TaskItem.id =
          (Table.delete TaskItem.id id tasks).map TaskItem.id := by
      rw [List.map_map]
      exact List.map_congr_left fun row _ => (keeps row).1
    unfold Table.Keyed
    rw [sameKeys]
    exact integral.keyed.delete
  · intro row member
    obtain ⟨old, kept, rfl⟩ := List.mem_map.mp member
    obtain ⟨column, board, workspace⟩ :=
      integral.placed old (List.mem_filter.mp kept).1
    obtain ⟨_, _, sameBoard, sameTenant, sameColumn, sameWorkspace⟩ := keeps old
    constructor
    · rw [sameColumn, sameBoard]
      exact column
    · rw [sameTenant, sameBoard]
      exact board
    · rw [sameWorkspace, sameTenant]
      exact workspace
  · intro row member parent isParent
    obtain ⟨old, kept, rfl⟩ := List.mem_map.mp member
    obtain ⟨_, sameType, sameBoard, sameTenant, _⟩ := keeps old
    have linked : old.parentTaskId = some parent ∧ parent ≠ id := by
      unfold BoardStore.orphan at isParent
      split at isParent
      case isTrue => cases isParent
      case isFalse other =>
        refine ⟨isParent, ?_⟩
        rintro rfl
        exact other isParent
    obtain ⟨notEpic, epic, epicMember, rfl, isEpic, onBoard, inTenant⟩ :=
      integral.parented old (List.mem_filter.mp kept).1 parent linked.1
    rw [sameType, sameBoard, sameTenant]
    refine ⟨notEpic, BoardStore.orphan id epic, List.mem_map_of_mem ?_,
      (keeps epic).1, (keeps epic).2.1.trans isEpic,
      (keeps epic).2.2.1.trans onBoard, (keeps epic).2.2.2.1.trans inTenant⟩
    exact List.mem_filter.mpr ⟨epicMember, by simpa using linked.2⟩

end Rows

variable {board : BoardId} {req : UpdateTaskRequest} {ident : TaskIdent} {column : ColumnId}

section Readings

variable {org : Organization} {tasks : List TaskItem} {tenant : TenantId}

/-- A reference names a card of the tenant. -/
theorem resolveId_ok {id : TaskId} (resolved : resolveId org tasks tenant ident = .ok id) :
    ∃ row ∈ tasks, row.id = id ∧ row.tenantId = tenant := by
  unfold resolveId at resolved
  split at resolved
  case h_1 =>
    split at resolved <;> cases resolved
    rename_i found
    obtain ⟨member, _, sameTenant⟩ := getRow_some found
    exact ⟨_, member, rfl, sameTenant⟩
  case h_2 =>
    split at resolved <;> cases resolved
    rename_i found
    obtain ⟨row, isRow, rfl⟩ := Option.map_eq_some_iff.mp found
    have holds := List.find?_some isRow
    simp only [Bool.and_eq_true, decide_eq_true_eq] at holds
    exact ⟨row, List.mem_of_find?_eq_some isRow, rfl, holds.1.1⟩
  case h_3 => cases resolved

theorem lookUp_ok (found : lookUp org tasks tenant ident = .ok row) :
    row ∈ tasks ∧ row.tenantId = tenant := by
  obtain ⟨id, _, read⟩ := bind_ok found
  split at read <;> cases read
  rename_i isRow
  exact ⟨(getRow_some isRow).1, (getRow_some isRow).2.2⟩

/-- The parent a check lets through is a card of the board and the tenant. -/
theorem validateParent_ok {viewer : UserId} {selfIsEpic : Bool} {parent : TaskId}
    (valid : validateParent org tasks tenant viewer board ident selfIsEpic = .ok parent) :
    selfIsEpic = false ∧ ∃ row ∈ tasks, row.id = parent ∧ row.tenantId = tenant ∧
      row.boardId = board := by
  unfold validateParent at valid
  split at valid
  case isTrue => cases valid
  case isFalse notEpic =>
    split at valid
    case h_1 => cases valid
    case h_2 row found =>
      split at valid
      case isTrue => cases valid
      case isFalse =>
        split at valid
        case isTrue => cases valid
        case isFalse =>
          split at valid
          case isTrue => cases valid
          case isFalse sameBoard =>
            cases valid
            obtain ⟨member, sameTenant⟩ := lookUp_ok found
            exact ⟨by simpa using notEpic, row, member, rfl, sameTenant,
              not_not.mp sameBoard⟩

theorem onBoard_of_mem {row : BoardColumn} (member : row ∈ org.columns) :
    org.onBoard row.id row.boardId = true :=
  List.any_eq_true.mpr ⟨row, member, by simp⟩

theorem onBoard_of_type {type : ColumnType}
    (found : columnOfType org.columns board type = some column) :
    org.onBoard column board = true := by
  obtain ⟨row, member, rfl, rfl, _⟩ := columnOfType_some found
  exact onBoard_of_mem member

theorem columnTyped_ok {type : String} (found : columnTyped org board type = .ok column) :
    org.onBoard column board = true := by
  unfold columnTyped at found
  split at found <;> cases found
  rename_i named
  unfold columnNamed at named
  split at named
  case h_1 => cases named
  case h_2 =>
    split at named <;> cases named
    rename_i ofType
    exact onBoard_of_type ofType

theorem firstColumn_some (found : org.firstColumn board = some column) :
    org.onBoard column board = true := by
  obtain ⟨row, first, rfl⟩ := Option.map_eq_some_iff.mp found
  have member := List.mem_filter.mp (firstByPosition_mem first)
  simp only [decide_eq_true_eq] at member
  rw [← member.2]
  exact onBoard_of_mem member.1

theorem columnByName_some {name : String} (found : org.columnByName board name = some column) :
    org.onBoard column board = true := by
  obtain ⟨row, isRow, rfl⟩ := Option.map_eq_some_iff.mp found
  have holds := List.find?_some isRow
  simp only [Bool.and_eq_true, decide_eq_true_eq] at holds
  rw [← holds.1]
  exact onBoard_of_mem (List.mem_of_find?_eq_some isRow)

/-- However a move names its column, it is one of the board's. -/
theorem columnId_ok {name : String} (found : columnId org board name = .ok column) :
    org.onBoard column board = true := by
  simp only [columnId] at found
  split at found
  case h_1 typed =>
    cases found
    obtain ⟨type, _, ofType⟩ := Option.bind_eq_some_iff.mp typed
    exact onBoard_of_type ofType
  case h_2 =>
    split at found
    case h_1 named =>
      cases found
      exact columnByName_some named
    case h_2 =>
      split at found <;> cases found
      rename_i first
      exact firstColumn_some first

/-- A column that is not the client's own choice is one of the board's. -/
theorem columnForNew_ok {req : CreateTaskRequest}
    (found : columnForNew org board req = .ok column) :
    req.columnId = some column ∨ org.onBoard column board = true := by
  unfold columnForNew at found
  split at found
  case h_1 explicit =>
    cases found
    exact .inl explicit
  case h_2 => exact .inr (columnTyped_ok found)
  case h_3 =>
    split at found <;> cases found
    rename_i first
    exact .inr (firstColumn_some first)

theorem columnForEdit_ok {written : Option ColumnId}
    (found : columnForEdit org board req = .ok written) :
    (∀ column ∈ req.columnId, written = some column) ∧
      ∀ column ∈ written,
        req.columnId = some column ∨ org.onBoard column board = true := by
  unfold columnForEdit at found
  split at found
  case h_1 explicit =>
    cases found
    refine ⟨fun column named => explicit.symm.trans named, ?_⟩
    rintro column ⟨⟩
    exact .inl explicit
  case h_2 noId _ =>
    obtain ⟨column, typed, rfl⟩ := map_ok found
    constructor
    · intro column named
      rw [noId] at named
      cases named
    · rintro column ⟨⟩
      exact .inr (columnTyped_ok typed)
  case h_3 noId _ =>
    cases found
    constructor
    · intro column named
      rw [noId] at named
      cases named
    · intro column named
      cases named

end Readings

section Held

/-- The id is one that has been given out, and a card that has it belongs to the
tenant and stands on the board. -/
structure Names (store : BoardStore) (id : TaskId) (tenant : TenantId)
    (board : BoardId) : Prop where
  used : id < store.nextId
  place : ∀ row ∈ store.tasks, row.id = id → row.tenantId = tenant ∧
    row.boardId = board

/-- Cards are filed under new ids and keep their tenant and board. -/
structure Grown (before after : BoardStore) : Prop where
  nextId : before.nextId ≤ after.nextId
  old : ∀ row ∈ after.tasks, row.id < before.nextId →
    ∃ earlier ∈ before.tasks, SamePlace earlier row

/-- Every id in the table has been given out. -/
def Numbered (store : BoardStore) : Prop :=
  ∀ row ∈ store.tasks, row.id < store.nextId

/-- The column is the one the client named, or one of the board's. -/
def Chosen (org : Organization) (explicit : Option ColumnId) (board : BoardId)
    (column : ColumnId) : Prop :=
  explicit = some column ∨ org.onBoard column board = true

/-- What a card about to be filed has been checked for. -/
structure HeldNew (org : Organization) (store : BoardStore) (call : BoardCall)
    (req : CreateTaskRequest) (new : NewTask) : Prop where
  single : call.work.isBulk = false
  tenant : new.tenant = call.tenant
  board : (org.getBoard call.tenant new.board).isSome = true
  column : Chosen org req.columnId new.board new.columnId
  explicit : ∀ column ∈ req.columnId, new.columnId = column
  parent : ∀ parent ∈ new.parentTaskId,
    new.type ≠ .epic ∧ Names store parent call.tenant new.board

/-- What an edit about to be written has been checked for. -/
structure HeldEdit (org : Organization) (store : BoardStore) (call : BoardCall)
    (board : BoardId) (req : UpdateTaskRequest) (edit : TaskEdit) : Prop where
  column : ∀ column ∈ edit.columnId, Chosen org req.columnId board column
  explicit : ∀ column ∈ req.columnId, edit.columnId = some column
  parent : ∀ parent ∈ edit.parentTaskId, Names store parent call.tenant board

/-- What a call has found out that stays true until its write. -/
def Held (org : Organization) (store : BoardStore) (call : BoardCall) : Prop :=
  match call.stage with
  | .begun | .release _ | .archive _ | .label _ _ => True
  | .position req new | .insert req new => HeldNew org store call req new
  | .shape task _ _ => ∃ board, Names store task call.tenant board
  | .children task shape _ _ | .parent task shape _ _ =>
      Names store task call.tenant shape.board
  | .write task req edit =>
      ∃ board, Names store task call.tenant board ∧
        HeldEdit org store call board req edit
  | .place task column =>
      call.work.isBulk = false ∧ ∃ board, Names store task call.tenant board ∧
        org.onBoard column board = true
  | .remove _ => call.work.isBulk = false

variable {org : Organization} {before after store : BoardStore} {call : BoardCall}

theorem Grown.refl (store : BoardStore) : Grown store store :=
  ⟨Nat.le_refl _, fun row member _ => ⟨row, member, rfl, rfl, rfl⟩⟩

theorem Names.grow {id : TaskId} {tenant : TenantId}
    (names : Names before id tenant board) (grown : Grown before after) :
    Names after id tenant board := by
  constructor
  · exact Nat.lt_of_lt_of_le names.used grown.nextId
  · rintro row member rfl
    obtain ⟨earlier, earlierMember, same⟩ := grown.old row member names.used
    rw [same.tenantId, same.boardId]
    exact names.place earlier earlierMember same.id.symm

theorem HeldNew.grow {req : CreateTaskRequest} {new : NewTask}
    (held : HeldNew org before call req new) (grown : Grown before after) :
    HeldNew org after call req new :=
  { held with
    parent := fun parent isParent =>
      ⟨(held.parent parent isParent).1,
        (held.parent parent isParent).2.grow grown⟩ }

theorem HeldEdit.grow {edit : TaskEdit}
    (held : HeldEdit org before call board req edit) (grown : Grown before after) :
    HeldEdit org after call board req edit :=
  { held with
    parent := fun parent isParent => (held.parent parent isParent).grow grown }

/-- What a call holds, it holds whatever the others do. -/
theorem Held.grow (held : Held org before call) (grown : Grown before after) :
    Held org after call := by
  unfold Held at held ⊢
  cases stage : call.stage with
  | begun | release | archive | label => trivial
  | position req new | insert req new =>
      rw [stage] at held
      exact HeldNew.grow held grown
  | shape task req edit =>
      rw [stage] at held
      obtain ⟨board, names⟩ := held
      exact ⟨board, names.grow grown⟩
  | children task shape req edit | parent task shape req edit =>
      rw [stage] at held
      exact Names.grow held grown
  | write task req edit =>
      rw [stage] at held
      obtain ⟨board, names, heldEdit⟩ := held
      exact ⟨board, names.grow grown, heldEdit.grow grown⟩
  | place task column =>
      rw [stage] at held
      obtain ⟨single, board, names, onBoard⟩ := held
      exact ⟨single, board, names.grow grown, onBoard⟩
  | remove task =>
      rw [stage] at held
      exact held

/-- A card that is read names its own tenant and board. -/
theorem names_of_mem (keyed : Table.Keyed TaskItem.id store.tasks)
    (numbered : Numbered store) (member : row ∈ store.tasks) :
    Names store row.id row.tenantId row.boardId := by
  constructor
  · exact numbered row member
  · intro other otherMember same
    rw [eq_of_id_eq keyed member otherMember same]
    exact ⟨rfl, rfl⟩

end Held

section NextStage

variable {org : Organization} {store : BoardStore} {call : BoardCall}
  (keyed : Table.Keyed TaskItem.id store.tasks) (numbered : Numbered store)

include keyed numbered

theorem names_of_validateParent {viewer : UserId} {tenant : TenantId} {selfIsEpic : Bool}
    {parent : TaskId}
    (valid : validateParent org store.tasks tenant viewer board ident selfIsEpic = .ok parent) :
    selfIsEpic = false ∧ Names store parent tenant board := by
  obtain ⟨notEpic, row, member, rfl, rfl, rfl⟩ := validateParent_ok valid
  exact ⟨notEpic, names_of_mem keyed numbered member⟩

variable {stage : BoardStage}

theorem held_beginCreate {req : CreateTaskRequest} (single : call.work.isBulk = false)
    (began : call.beginCreate org store.tasks board req = .ok stage) :
    Held org store { call with stage } := by
  unfold BoardCall.beginCreate at began
  obtain ⟨provider, provided, began⟩ := bind_ok began
  obtain ⟨_, _, began⟩ := bind_ok began
  obtain ⟨_, _, began⟩ := bind_ok began
  obtain ⟨type, _, began⟩ := bind_ok began
  obtain ⟨visibility, _, began⟩ := bind_ok began
  obtain ⟨parent, parented, began⟩ := bind_ok began
  obtain ⟨column, chosen, began⟩ := bind_ok began
  cases began
  constructor
  · exact single
  · rfl
  · unfold providerForBoard at provided
    split at provided
    case h_1 => cases provided
    case h_2 found => exact Option.isSome_iff_exists.mpr ⟨_, found⟩
  · exact columnForNew_ok chosen
  · intro explicit named
    have named : req.columnId = some explicit := named
    simp only [columnForNew, named, Except.ok.injEq] at chosen
    exact chosen.symm
  · intro id isParent
    have isParent : parent = some id := isParent
    subst isParent
    unfold BoardCall.parentForNew at parented
    split at parented
    case h_1 => cases parented
    case h_2 =>
      obtain ⟨found, valid, same⟩ := map_ok parented
      cases same
      obtain ⟨notEpic, names⟩ := names_of_validateParent keyed numbered valid
      refine ⟨?_, names⟩
      cases type with
      | none => simp
      | some type => simpa using notEpic

theorem held_validateUpdate (member : row ∈ store.tasks) (sameTenant : row.tenantId = call.tenant)
    (valid : BoardCall.validateUpdate row.id req = .ok stage) :
    Held org store { call with stage } := by
  obtain ⟨_, _, valid⟩ := bind_ok valid
  obtain ⟨_, _, valid⟩ := bind_ok valid
  cases valid
  have names := names_of_mem keyed numbered member
  rw [sameTenant] at names
  exact ⟨row.boardId, names⟩

theorem held_beginUpdate (began : call.beginUpdate org store.tasks ident req = .ok stage) :
    Held org store { call with stage } := by
  obtain ⟨existing, found, began⟩ := bind_ok began
  obtain ⟨member, sameTenant⟩ := lookUp_ok found
  split at began
  case isTrue => cases began
  case isFalse =>
    obtain ⟨_, _, began⟩ := bind_ok began
    obtain ⟨_, _, began⟩ := bind_ok began
    obtain ⟨_, _, began⟩ := bind_ok began
    obtain ⟨_, _, began⟩ := bind_ok began
    exact held_validateUpdate keyed numbered member sameTenant began

theorem held_place {id : TaskId} (single : call.work.isBulk = false)
    (read : getRow store.tasks call.tenant id = some row)
    (onBoard : org.onBoard column row.boardId = true) :
    Held org store { call with stage := .place row.id column } := by
  obtain ⟨member, _, sameTenant⟩ := getRow_some read
  have names := names_of_mem keyed numbered member
  rw [sameTenant] at names
  exact ⟨single, row.boardId, names, onBoard⟩

theorem held_beginMove {column columnType : Option String} (single : call.work.isBulk = false)
    (began : call.beginMove org store.tasks ident column columnType = .ok stage) :
    Held org store { call with stage } := by
  obtain ⟨id, _, began⟩ := bind_ok began
  split at began
  case h_1 => cases began
  case h_2 => cases began
  case h_3 =>
    split at began
    case h_1 => cases began
    case h_2 read =>
      obtain ⟨found, named, began⟩ := bind_ok began
      cases began
      exact held_place keyed numbered single read (columnId_ok named)
  case h_4 =>
    split at began
    case h_1 => cases began
    case h_2 read =>
      obtain ⟨found, typed, began⟩ := bind_ok began
      cases began
      exact held_place keyed numbered single read (columnTyped_ok typed)

theorem held_finishEdit {task : TaskId} {shape : TaskShape} {edit : TaskEdit}
    (names : Names store task call.tenant shape.board)
    (finished : call.finishEdit org store.tasks task shape req edit = .ok stage) :
    Held org store { call with stage } := by
  obtain ⟨parent, parented, finished⟩ := bind_ok finished
  split at finished
  case isTrue => cases finished
  case isFalse =>
    obtain ⟨column, chosen, finished⟩ := bind_ok finished
    cases finished
    obtain ⟨explicit, onBoard⟩ := columnForEdit_ok chosen
    refine ⟨shape.board, names, onBoard, explicit, ?_⟩
    intro id isParent
    have isParent : parent = some id := isParent
    subst isParent
    unfold BoardCall.parentForEdit at parented
    split at parented
    case h_1 =>
      obtain ⟨found, valid, same⟩ := map_ok parented
      cases same
      exact (names_of_validateParent keyed numbered valid).2
    case h_2 => cases parented

omit keyed numbered in
theorem ofExcept_goesOn {answer : Except BoardError BoardStage}
    (goes : BoardMove.ofExcept answer = .goesOn stage) : answer = .ok stage := by
  cases answer with
  | error error => cases goes
  | ok value =>
      cases goes
      rfl

omit keyed numbered in
/-- An error of the provider sends no call on. -/
theorem providerError_ne_goesOn {error : BoardError} :
    call.providerError error ≠ .goesOn stage := by
  unfold BoardCall.providerError
  split <;> nofun

omit keyed numbered in
theorem ofProvider_goesOn {answer : Except BoardError BoardStage}
    (goes : call.ofProvider answer = .goesOn stage) :
    answer = .ok stage := by
  cases answer with
  | error error => exact absurd goes providerError_ne_goesOn
  | ok value =>
      cases goes
      rfl

theorem held_applyUpdate (member : row ∈ store.tasks) (sameTenant : row.tenantId = call.tenant)
    (goes : call.applyUpdate org row req = .goesOn stage) :
    Held org store { call with stage } := by
  unfold BoardCall.applyUpdate at goes
  split at goes
  case h_1 => cases goes
  case h_2 =>
    split at goes
    case h_1 => cases goes
    case h_2 => cases goes
    case h_3 =>
      exact held_validateUpdate keyed numbered member sameTenant
        (ofProvider_goesOn goes)

theorem held_beginItem {action : BulkAction}
    (goes : call.beginItem org store.tasks ident action = .goesOn stage) :
    Held org store { call with stage } := by
  unfold BoardCall.beginItem at goes
  split at goes
  case h_1 => cases goes
  case h_2 => cases goes
  case h_3 =>
    split at goes
    case h_1 => cases goes
    case h_2 row read =>
      split at goes
      case isTrue => cases goes
      case isFalse =>
        obtain ⟨member, _, sameTenant⟩ := getRow_some read
        unfold BoardCall.applyAction at goes
        split at goes
        case h_1 | h_2 =>
          split at goes
          case isTrue => cases goes
          case isFalse =>
            first
            | exact held_applyUpdate keyed numbered member sameTenant goes
            | cases goes; trivial
        case h_3 | h_4 | h_5 =>
          exact held_applyUpdate keyed numbered member sameTenant goes
        case h_6 | h_7 =>
          cases goes
          trivial

theorem held_start (goes : call.start org store.tasks = .goesOn stage) :
    Held org store { call with stage } := by
  unfold BoardCall.start at goes
  split at goes
  case h_1 work =>
    exact held_beginCreate keyed numbered (by rw [work]; rfl) (ofExcept_goesOn goes)
  case h_2 => exact held_beginUpdate keyed numbered (ofExcept_goesOn goes)
  case h_3 work =>
    exact held_beginMove keyed numbered (by rw [work]; rfl) (ofExcept_goesOn goes)
  case h_4 ident work =>
    obtain ⟨id, _, rfl⟩ := map_ok (ofExcept_goesOn goes)
    simp [Held, work, BoardWork.isBulk]
  case h_5 => cases goes
  case h_6 => exact held_beginItem keyed numbered goes

/-- What a call has checked for at one stage it holds at the next. -/
theorem held_next (held : Held org store call) (goes : call.next org store.tasks = .goesOn stage) :
    Held org store { call with stage } := by
  unfold BoardCall.next at goes
  unfold Held at held
  cases current : call.stage with
  | begun =>
      rw [current] at goes
      exact held_start keyed numbered goes
  | position req new =>
      rw [current] at goes held
      cases goes
      exact { held with }
  | shape task req edit =>
      rw [current] at goes held
      obtain ⟨board, names⟩ := held
      dsimp only at goes
      cases read : taskShape store.tasks call.tenant task with
      | none =>
          rw [read] at goes
          exact absurd goes providerError_ne_goesOn
      | some shape =>
          rw [read] at goes
          cases goes
          obtain ⟨row, isRow, rfl⟩ := Option.map_eq_some_iff.mp read
          obtain ⟨member, rfl, sameTenant⟩ := getRow_some isRow
          have names := names_of_mem keyed numbered member
          rw [sameTenant] at names
          exact names
  | children task shape req edit =>
      rw [current] at goes held
      dsimp only at goes
      split at goes
      case h_1 => exact absurd goes providerError_ne_goesOn
      case h_2 =>
        cases goes
        exact held
  | parent task shape req edit =>
      rw [current] at goes held
      exact held_finishEdit keyed numbered held (ofProvider_goesOn goes)
  | archive ident =>
      rw [current] at goes
      dsimp only at goes
      split at goes <;> cases goes
  | insert | write | place | remove | release | label =>
      rw [current] at goes
      cases goes

end NextStage

end NookOs.Tasks
