/-
Module: NookOs.Tasks.Claims
Purpose: The claim handler in any interleaving with itself and with every other
  write of the cards, and when claims are exclusive, legal and given back whole.
Trusted boundary: none
Main exports: ClaimCall, claimInner, Claiming, Claiming.step, ClaimsRight, Steady, claims_right
-/
import NookOs.Lib.InFlight
import NookOs.Tasks.Leases
import NookOs.Tasks.Pick

namespace NookOs.Tasks

open Lib
open Jobs (Instant TenantId TaskId UserId)

/-!
`claim_inner` reads the card, refuses what it may refuse on that reading, looks
up the column it was asked to move the card to, and then runs one conditional
UPDATE.  The columns of a board are fixed, so their lookups are part of the
reads they go with.
-/

section Handler

/-- What `claim_inner` answers when the card is not claimed. -/
inductive ClaimError where
  | notFound
  | badRequest (message : String)
  | conflict (message : String)
deriving DecidableEq

/-- The refusals of a card the claimer can see, in the order they are made. -/
def claimRefusal (columns : List BoardColumn) (existing : TaskItem) :
    Option ClaimError :=
  let column := columnTypeOf columns existing.columnId
  if column = some .backlog then
    some (.badRequest "task is in the backlog — send it to the board first")
  else if existing.type = .epic then
    some (.badRequest "epics are containers and cannot be claimed")
  else if column = some .completed then
    some (.badRequest "this card is done — nothing to build")
  else if column = some .canceled then
    some (.badRequest "this card was canceled — nothing to build")
  else none

/-- The column types by the names the API gives them. -/
def ColumnType.parse : String → Option ColumnType
  | "backlog" => some .backlog
  | "unstarted" => some .unstarted
  | "started" => some .started
  | "review" => some .review
  | "completed" => some .completed
  | "canceled" => some .canceled
  | _ => none

/-- The service around `columnOfType`: the column that means a type. -/
def columnNamed (columns : List BoardColumn) (board : BoardId) (name : String) :
    Except ClaimError ColumnId :=
  match ColumnType.parse name with
  | none =>
      .error (.badRequest (name.quote ++ " is not a column type — expected one of " ++
        "backlog, unstarted, started, review, completed, canceled"))
  | some type =>
      match columnOfType columns board type with
      | none =>
          .error (.conflict ("this board has no " ++ name.quote ++
            " column — add one, or give an explicit column_id"))
      | some column => .ok column

/-- The statement a call runs next. -/
inductive ClaimStage where
  | readRow
  | boardOfTask (columnType : String)
  | update (target : Option ColumnId)
deriving DecidableEq

/-- A `claim_inner` call in progress. -/
structure ClaimCall where
  tenant : TenantId
  claimant : UserId
  id : TaskId
  columnType : Option String
  stage : ClaimStage
deriving DecidableEq

/-- The call has read its card and refused nothing. -/
def ClaimCall.hasRead (call : ClaimCall) : Bool :=
  call.stage ≠ .readRow

/-- The next reading of a call: it is refused, or it goes on to its next
stage. -/
def ClaimCall.check (columns : List BoardColumn) (tasks : List TaskItem)
    (call : ClaimCall) : Except ClaimError ClaimCall :=
  match call.stage with
  | .readRow =>
      match getRow tasks call.tenant call.id with
      | none => .error .notFound
      | some existing =>
          if !visibleTo existing call.claimant then .error .notFound
          else
            match claimRefusal columns existing with
            | some refusal => .error refusal
            | none =>
                match call.columnType with
                | none => .ok { call with stage := .update none }
                | some name => .ok { call with stage := .boardOfTask name }
  | .boardOfTask name =>
      match Table.find TaskItem.id tasks call.id with
      | none => .error .notFound
      | some row =>
          match columnNamed columns row.boardId name with
          | .error refusal => .error refusal
          | .ok column => .ok { call with stage := .update (some column) }
  | .update _ => .ok call

/-- A claim that takes the card into `started` carries a lease of
`max_claim_secs`. -/
def ClaimCall.lease (maxClaimSecs : Int) (call : ClaimCall) : Option Int :=
  if call.columnType = some "started" then some maxClaimSecs else none

/-- The conditional UPDATE of a call. -/
def ClaimCall.write (maxClaimSecs : Int) (now : Instant) (target : Option ColumnId)
    (call : ClaimCall) : LeaseWrite :=
  .claimTask call.id call.tenant now call.claimant target (call.lease maxClaimSecs)

/-- The row the UPDATE matches. -/
def ClaimCall.free (tasks : List TaskItem) (call : ClaimCall) : Option TaskItem :=
  (getRow tasks call.tenant call.id).filter (·.assigneeUserId.isNone)

/-- The UPDATE, and the answer where it matched no row. -/
def ClaimCall.update (columns : List BoardColumn) (maxClaimSecs : Int)
    (now : Instant) (tasks : List TaskItem) (target : Option ColumnId)
    (call : ClaimCall) : Except ClaimError TaskItem :=
  match call.free tasks with
  | some row => .ok ((call.write maxClaimSecs now target).apply columns row)
  | none =>
      if (getRow tasks call.tenant call.id).any (·.assigneeUserId.isSome) then
        .error (.conflict "somebody else claimed this first — pick another task")
      else .error .notFound

/-- A whole call with nothing else between its statements. -/
def claimInner (columns : List BoardColumn) (maxClaimSecs : Int) (now : Instant)
    (tasks : List TaskItem) (tenant : TenantId) (claimant : UserId) (id : TaskId)
    (columnType : Option String) : Except ClaimError TaskItem := do
  let read ← ClaimCall.check columns tasks
    { tenant, claimant, id, columnType, stage := .readRow }
  let resolved ← read.check columns tasks
  match resolved.stage with
  | .update target => resolved.update columns maxClaimSecs now tasks target
  | _ => .error .notFound

end Handler

/-- The cards, the calls in flight, and the claims in force: a claim is in force
from its UPDATE until the card's assignee is cleared or replaced, the card is
reaped, or it is deleted. -/
structure Claiming where
  tasks : List TaskItem
  calls : List ClaimCall
  inForce : List (TaskId × UserId)
deriving DecidableEq

/-- The statement gives the claim of the row it names back. -/
def LeaseWrite.givesBack (columns : List BoardColumn) (write : LeaseWrite)
    (row : TaskItem) : Bool :=
  match write with
  | .releaseAssignment .. | .releaseClaimOf .. | .reapLapsedClaims .. =>
      write.names row && (write.statement columns row).isSome
  | _ => false

/-- A statement that only `claim_inner` or the filing of a card runs. -/
def LeaseWrite.isClaim : LeaseWrite → Bool
  | .claimTask .. | .createTask .. => true
  | _ => false

/-- One step of one caller, or of anybody else. -/
inductive ClaimStep where
  | claim (tenant : TenantId) (claimant : UserId) (id : TaskId)
      (columnType : Option String)
  | goOn (call : Nat) (now : Instant)
  | write (write : LeaseWrite)
  | setArchived (id : TaskId) (tenant : TenantId) (now : Instant) (archived : Bool)
  | deleteTask (id : TaskId) (tenant : TenantId)

namespace Claiming

variable (columns : List BoardColumn) (maxClaimSecs : Int)

/-- The claims still in force once the table has changed. -/
def stillInForce (given : TaskId → Bool) (tasks : List TaskItem)
    (inForce : List (TaskId × UserId)) : List (TaskId × UserId) :=
  inForce.filter fun claim =>
    !given claim.1 && (Table.find TaskItem.id tasks claim.1).any
      (·.assigneeUserId = some claim.2)

/-- Run a statement on the table. -/
def writeTasks (store : Claiming) (write : LeaseWrite) : Claiming :=
  let tasks := store.tasks.map (write.apply columns)
  { store with
    tasks
    inForce := stillInForce
      (fun id => (Table.find TaskItem.id store.tasks id).any
        (write.givesBack columns)) tasks store.inForce }

/-- The call at an index takes its next step. -/
def goOn (store : Claiming) (index : Nat) (now : Instant) (call : ClaimCall) :
    Claiming :=
  let others := store.calls.eraseIdx index
  match call.stage with
  | .update target =>
      if (call.free store.tasks).isSome then
        { tasks := store.tasks.map
            ((call.write maxClaimSecs now target).apply columns)
          calls := others
          inForce := store.inForce ++ [(call.id, call.claimant)] }
      else { store with calls := others }
  | _ =>
      match call.check columns store.tasks with
      | .error _ => { store with calls := others }
      | .ok next => { store with calls := store.calls.set index next }

def step (store : Claiming) : ClaimStep → Option Claiming
  | .claim tenant claimant id columnType =>
      some { store with
        calls := store.calls ++
          [{ tenant, claimant, id, columnType, stage := .readRow }] }
  | .goOn index now => do
      let call ← store.calls[index]?
      some (store.goOn columns maxClaimSecs index now call)
  | .write write =>
      if write.isClaim then none else some (store.writeTasks columns write)
  | .setArchived id tenant now archived =>
      some { store with
        tasks := store.tasks.map fun row =>
          if row.id = id ∧ row.tenantId = tenant then
            Repo.setArchived now archived row
          else row }
  | .deleteTask id tenant =>
      let tasks := store.tasks.filter fun row =>
        !(row.id = id && row.tenantId = tenant)
      some { store with
        tasks
        inForce := stillInForce (fun _ => false) tasks store.inForce }

/-- The call whose UPDATE a step is, and matches a row. -/
def committing (store : Claiming) : ClaimStep → Option ClaimCall
  | .goOn index _ => store.calls[index]?.filter fun call =>
      match call.stage with
      | .update _ => (call.free store.tasks).isSome
      | _ => false
  | _ => none

end Claiming

/-- A card that is free is one the claimer could claim. -/
def Ready (columns : List BoardColumn) (claimant : UserId) (row : TaskItem) : Prop :=
  row.assigneeUserId = none → openTo columns claimant row = true

instance (columns : List BoardColumn) (claimant : UserId) (row : TaskItem) :
    Decidable (Ready columns claimant row) :=
  inferInstanceAs (Decidable (_ → _))

/-- The card is given back as claimable work: not archived, not an epic, and out
of the backlog and the finished columns, where the reaper puts it anyway.  The
reaper leaves the assignee, so the card it takes must have had none. -/
def LeaseWrite.givesBackWhole (columns : List BoardColumn) (write : LeaseWrite)
    (row : TaskItem) : Bool :=
  row.archivedAt.isNone && row.type ≠ .epic &&
    match write with
    | .reapLapsedClaims .. => row.assigneeUserId.isNone
    | _ => (columnTypeOf columns row.columnId).any
        (· ∉ [.backlog, .completed, .canceled])

namespace Claiming

/-- What a step owes the claims.  `claimableAgain` is the pick query's own
predicate, and a whole `claim_inner` call. -/
structure ClaimsRight (columns : List BoardColumn) (boards : List BoardRow)
    (maxClaimSecs : Int) (before : Claiming) (label : ClaimStep) (after : Claiming) :
    Prop where
  exclusive : (after.inForce.map Prod.fst).Nodup
  legal : ∀ call, before.committing label = some call →
    ∀ row ∈ before.tasks, row.id = call.id →
      row.assigneeUserId = none ∧ openTo columns call.claimant row = true
  claimableAgain : ∀ write, label = .write write → ∀ row ∈ before.tasks,
    write.givesBack columns row = true → ∀ viewer,
      visibleTo (write.apply columns row) viewer = true →
        (∀ ciMatch relations labels,
          picks ciMatch { boards, columns, tasks := after.tasks, relations, labels }
            row.tenantId viewer claimableWork (write.apply columns row) = true) ∧
        ∀ now columnType,
          (∀ name ∈ columnType,
            ∃ column, columnNamed columns row.boardId name = .ok column) →
          ∃ claimed, claimInner columns maxClaimSecs now after.tasks row.tenantId
            viewer row.id columnType = .ok claimed

/-- What the steps must not do: read an archived card, take from a card what a
call has read of it, or give a card back that is not claimable work. -/
def Steady (columns : List BoardColumn) (before : Claiming) : ClaimStep → Prop
  | .goOn index _ => ∀ call ∈ before.calls[index]?, call.stage = .readRow →
      ∀ row ∈ before.tasks, row.id = call.id → row.archivedAt = none
  | .write write =>
      (∀ row ∈ before.tasks, write.givesBack columns row = true →
        write.givesBackWhole columns row = true) ∧
      ∀ call ∈ before.calls, call.hasRead = true →
        ∀ row ∈ before.tasks, row.id = call.id →
          Ready columns call.claimant row →
            Ready columns call.claimant (write.apply columns row)
  | .setArchived id _ _ archived => archived = true →
      ∀ call ∈ before.calls, call.hasRead = true → call.id = id →
        ∀ row ∈ before.tasks, row.id = id → row.assigneeUserId.isSome = true
  | .claim .. | .deleteTask .. => True

instance (columns : List BoardColumn) (before : Claiming) (label : ClaimStep) :
    Decidable (before.Steady columns label) := by
  cases label <;> dsimp only [Steady] <;> infer_instance

/-- What holds of the store between two steps. -/
structure Sound (columns : List BoardColumn) (boards : List BoardRow)
    (store : Claiming) : Prop where
  keyed : Table.Keyed TaskItem.id store.tasks
  column : ∀ row ∈ store.tasks, LeaseWrite.columnExists columns row = true
  board : ∀ row ∈ store.tasks,
    (Table.find BoardRow.id boards row.boardId).isSome = true
  held : ∀ claim ∈ store.inForce, ∃ row ∈ store.tasks, row.id = claim.1 ∧
    row.assigneeUserId = some claim.2
  exclusive : (store.inForce.map Prod.fst).Nodup
  ready : ∀ call ∈ store.calls, call.hasRead = true → ∀ row ∈ store.tasks,
    row.id = call.id → Ready columns call.claimant row
  resolved : ∀ call ∈ store.calls, ∀ target, call.stage = .update (some target) →
    (columnTypeOf columns target).isSome = true

section OneCall

variable {columns : List BoardColumn} {tasks : List TaskItem} {call next : ClaimCall}
  {row : TaskItem}

/-- A card the claimer could claim is refused nothing. -/
theorem claimRefusal_of_openTo {viewer : UserId}
    (isOpen : openTo columns viewer row = true) : claimRefusal columns row = none := by
  obtain ⟨_, _, notEpic, type, found, allowed⟩ := openTo_iff.mp isOpen
  simp only [List.mem_cons, List.not_mem_nil, or_false, not_or] at allowed
  simp [claimRefusal, found, notEpic, allowed]

/-- A card that is seen, refused nothing and not archived could be claimed. -/
theorem openTo_of_claimRefusal {viewer : UserId} (visible : visibleTo row viewer = true)
    (refused : claimRefusal columns row = none) (live : row.archivedAt = none)
    (exists_ : LeaseWrite.columnExists columns row = true) :
    openTo columns viewer row = true := by
  obtain ⟨type, found⟩ := Option.isSome_iff_exists.mp exists_
  apply openTo_iff.mpr
  unfold claimRefusal at refused
  rw [found] at refused
  refine ⟨visible, live, ?_, type, found, ?_⟩
  · rintro isEpic
    cases type <;> simp [isEpic] at refused
  · by_cases isEpic : row.type = .epic <;> cases type <;>
      simp [isEpic] at refused ⊢

/-- A call that goes on from its first reading has seen its card and refused
nothing. -/
theorem check_readRow (stage : call.stage = .readRow)
    (checked : call.check columns tasks = .ok next) :
    ∃ row, getRow tasks call.tenant call.id = some row ∧
      visibleTo row call.claimant = true ∧ claimRefusal columns row = none := by
  simp only [ClaimCall.check, stage] at checked
  split at checked
  · cases checked
  · rename_i existing found
    split at checked
    · cases checked
    · rename_i visible
      split at checked
      · cases checked
      · rename_i allowed
        exact ⟨existing, found, by simpa using visible, allowed⟩

/-- A call stays a call of its claimer for its card. -/
theorem check_same (checked : call.check columns tasks = .ok next) :
    next.id = call.id ∧ next.claimant = call.claimant ∧ next.tenant = call.tenant := by
  unfold ClaimCall.check at checked
  split at checked
  · split at checked
    · cases checked
    · split at checked
      · cases checked
      · split at checked
        · cases checked
        · split at checked <;> cases checked <;> exact ⟨rfl, rfl, rfl⟩
  · split at checked
    · cases checked
    · split at checked <;> cases checked
      exact ⟨rfl, rfl, rfl⟩
  · cases checked
    exact ⟨rfl, rfl, rfl⟩

/-- The column a call resolves is there. -/
theorem check_resolved (earlier : ∀ target, call.stage ≠ .update target)
    (checked : call.check columns tasks = .ok next) (target : ColumnId)
    (stage : next.stage = .update (some target))
    (columnsKeyed : Table.Keyed BoardColumn.id columns) :
    (columnTypeOf columns target).isSome = true := by
  unfold ClaimCall.check at checked
  split at checked
  · split at checked
    · cases checked
    · split at checked
      · cases checked
      · split at checked
        · cases checked
        · split at checked <;> cases checked <;> cases stage
  · split at checked
    · cases checked
    · split at checked
      · cases checked
      · rename_i column named
        cases checked
        cases stage
        unfold columnNamed at named
        split at named
        · cases named
        · split at named
          · cases named
          · rename_i found
            cases named
            rw [columnTypeOf_columnOfType columnsKeyed found]
            rfl
  · rename_i target atUpdate
    exact absurd atUpdate (earlier target)

/-- A free card that its claimer could claim is claimed, where the column asked
for is there. -/
theorem claimInner_ok {maxClaimSecs : Int} {now : Instant} {viewer : UserId}
    {columnType : Option String} (keyed : Table.Keyed TaskItem.id tasks) (member : row ∈ tasks)
    (free : row.assigneeUserId = none) (isOpen : openTo columns viewer row = true)
    (resolves : ∀ name ∈ columnType, ∃ column, columnNamed columns row.boardId name = .ok column) :
    ∃ claimed, claimInner columns maxClaimSecs now tasks row.tenantId viewer row.id
      columnType = .ok claimed := by
  have found := getRow_of_mem keyed member
  have visible := (openTo_iff.mp isOpen).1
  have allowed := claimRefusal_of_openTo isOpen
  cases columnType with
  | none =>
      simp [claimInner, ClaimCall.check, found, visible, allowed, bind, Except.bind,
        ClaimCall.update, ClaimCall.free, Option.filter, free]
  | some name =>
      obtain ⟨column, named⟩ := resolves name rfl
      have isRow := keyed.find_of_mem member
      simp [claimInner, ClaimCall.check, found, visible, allowed, bind, Except.bind,
        ClaimCall.update, ClaimCall.free, Option.filter, free, isRow, named]

/-- The UPDATE of a call gives the free row it names to the claimer. -/
theorem apply_write {maxClaimSecs : Int} {now : Instant} {target : Option ColumnId}
    (exists_ : LeaseWrite.columnExists columns row = true)
    (targetExists : ∀ column ∈ target, (columnTypeOf columns column).isSome = true)
    (sameId : row.id = call.id) (sameTenant : row.tenantId = call.tenant)
    (free : row.assigneeUserId = none) :
    ((call.write maxClaimSecs now target).apply columns row).assigneeUserId =
      some call.claimant := by
  have lands : (columnTypeOf columns (target.getD row.columnId)).isSome = true := by
    cases target with
    | none => exact exists_
    | some column => exact targetExists column rfl
  simp [LeaseWrite.apply, ClaimCall.write, LeaseWrite.names, LeaseWrite.statement,
    Repo.claimTask, LeaseWrite.columnExists, sameId, sameTenant, free, lands,
    Option.filter]

/-- The UPDATE of a call leaves the rows of other cards alone. -/
theorem apply_write_other {maxClaimSecs : Int} {now : Instant}
    {target : Option ColumnId} (other : row.id ≠ call.id) :
    (call.write maxClaimSecs now target).apply columns row = row := by
  simp [LeaseWrite.apply, ClaimCall.write, LeaseWrite.names, other]

end OneCall

section Steps

variable {columns : List BoardColumn} {boards : List BoardRow} {maxClaimSecs : Int}
  {before after : Claiming} {label : ClaimStep}

/-- What a change that keeps each card the card it was does to the store, apart
from the calls: the claims that stay in force are held. -/
theorem Sound.ofTasks (sound : before.Sound columns boards)
    {change : TaskItem → TaskItem}
    (same : ∀ row, (change row).id = row.id ∧ (change row).boardId = row.boardId)
    (column : ∀ row, LeaseWrite.columnExists columns row = true →
      LeaseWrite.columnExists columns (change row) = true)
    {inForce : List (TaskId × UserId)}
    (held : ∀ claim ∈ inForce, ∃ row ∈ before.tasks, row.id = claim.1 ∧
      (change row).assigneeUserId = some claim.2)
    (exclusive : (inForce.map Prod.fst).Nodup)
    (ready : ∀ call ∈ before.calls, call.hasRead = true →
      ∀ row ∈ before.tasks, row.id = call.id →
        Ready columns call.claimant row → Ready columns call.claimant (change row)) :
    Sound columns boards
      { before with tasks := before.tasks.map change, inForce } where
  keyed := by
    have sameIds : (before.tasks.map change).map TaskItem.id =
        before.tasks.map TaskItem.id := by
      rw [List.map_map]
      apply List.map_congr_left
      intro row _
      exact (same row).1
    rw [Table.Keyed, sameIds]
    exact sound.keyed
  column := by
    intro row member
    obtain ⟨earlier, wasThere, rfl⟩ := List.mem_map.mp member
    exact column earlier (sound.column earlier wasThere)
  board := by
    intro row member
    obtain ⟨earlier, wasThere, rfl⟩ := List.mem_map.mp member
    rw [(same earlier).2]
    exact sound.board earlier wasThere
  held := by
    intro claim isHeld
    obtain ⟨row, member, sameId, assigned⟩ := held claim isHeld
    exact ⟨change row, List.mem_map_of_mem member, (same row).1.trans sameId, assigned⟩
  exclusive := exclusive
  ready := by
    intro call inFlight hasRead row member sameId
    obtain ⟨earlier, wasThere, rfl⟩ := List.mem_map.mp member
    have sameBefore : earlier.id = call.id := (same earlier).1.symm.trans sameId
    exact ready call inFlight hasRead earlier wasThere sameBefore
      (sound.ready call inFlight hasRead earlier wasThere sameBefore)
  resolved := sound.resolved

/-- Fewer calls in flight are fine. -/
theorem Sound.ofCalls (sound : before.Sound columns boards) {calls : List ClaimCall}
    (ready : ∀ call ∈ calls, call ∈ before.calls ∨
      ((call.hasRead = true → ∀ row ∈ before.tasks, row.id = call.id →
          Ready columns call.claimant row) ∧
        ∀ target, call.stage = .update (some target) →
          (columnTypeOf columns target).isSome = true)) :
    Sound columns boards { before with calls } where
  keyed := sound.keyed
  column := sound.column
  board := sound.board
  held := sound.held
  exclusive := sound.exclusive
  ready := fun call inFlight => (ready call inFlight).elim (sound.ready call) (·.1)
  resolved := fun call inFlight => (ready call inFlight).elim (sound.resolved call) (·.2)

/-- A call at its UPDATE that finds its card free finds it claimable. -/
theorem Sound.legal (sound : before.Sound columns boards) {call : ClaimCall}
    (inFlight : call ∈ before.calls) (hasRead : call.hasRead = true) {row : TaskItem}
    (isFree : call.free before.tasks = some row) :
    row ∈ before.tasks ∧ row.id = call.id ∧ row.tenantId = call.tenant ∧
      row.assigneeUserId = none ∧ openTo columns call.claimant row = true := by
  obtain ⟨found, free⟩ := Option.filter_eq_some_iff.mp isFree
  obtain ⟨member, sameId, sameTenant⟩ := getRow_some found
  have unassigned := Option.isNone_iff_eq_none.mp free
  exact ⟨member, sameId, sameTenant, unassigned,
    sound.ready call inFlight hasRead row member sameId unassigned⟩

/-- A committed claim keeps the store sound. -/
theorem Sound.commit (sound : before.Sound columns boards) {index : Nat} {now : Instant}
    {call : ClaimCall} {target : Option ColumnId} (present : before.calls[index]? = some call)
    (stage : call.stage = .update target) (isFree : (call.free before.tasks).isSome = true) :
    Sound columns boards
      { tasks := before.tasks.map ((call.write maxClaimSecs now target).apply columns)
        calls := before.calls.eraseIdx index
        inForce := before.inForce ++ [(call.id, call.claimant)] } := by
  have inFlight := List.mem_of_getElem? present
  have hasRead : call.hasRead = true := by simp [ClaimCall.hasRead, stage]
  obtain ⟨row, isRow⟩ := Option.isSome_iff_exists.mp isFree
  obtain ⟨member, sameId, sameTenant, unassigned, _⟩ :=
    sound.legal inFlight hasRead isRow
  have taken : ((call.write maxClaimSecs now target).apply columns row).assigneeUserId =
      some call.claimant :=
    apply_write (sound.column row member)
      (fun column isTarget => sound.resolved call inFlight column (isTarget ▸ stage))
      sameId sameTenant unassigned
  have others : ∀ claim ∈ before.inForce, claim.1 ≠ call.id := by
    intro claim isHeld same
    obtain ⟨holding, holdingMember, holdingId, assigned⟩ := sound.held claim isHeld
    have sameRow := eq_of_id_eq sound.keyed member holdingMember
      (holdingId.trans (same.trans sameId.symm))
    rw [sameRow, unassigned] at assigned
    cases assigned
  have fewer : (before.calls.eraseIdx index) ⊆ before.calls :=
    List.eraseIdx_subset
  have handled : Sound columns boards
      { before with calls := before.calls.eraseIdx index } :=
    sound.ofCalls fun other stays => .inl (fewer stays)
  apply handled.ofTasks
  · intro row
    have same := @LeaseWrite.apply_same columns (call.write maxClaimSecs now target) row
    exact ⟨same.1, same.2.2⟩
  · intro row exists_
    exact (call.write maxClaimSecs now target).columnExists_apply exists_
  · intro claim isHeld
    rcases List.mem_append.mp isHeld with old | new
    · obtain ⟨holding, holdingMember, holdingId, assigned⟩ := sound.held claim old
      refine ⟨holding, holdingMember, holdingId, ?_⟩
      rw [apply_write_other (holdingId ▸ others claim old)]
      exact assigned
    · rw [List.mem_singleton.mp new]
      exact ⟨row, member, sameId, taken⟩
  · rw [List.map_append, List.nodup_append]
    refine ⟨sound.exclusive, List.nodup_singleton _, ?_⟩
    rintro id known other isNew rfl
    obtain ⟨claim, isHeld, rfl⟩ := List.mem_map.mp known
    simp only [List.map_cons, List.map_nil, List.mem_singleton] at isNew
    exact others claim isHeld isNew
  · intro other _ _ seen seenMember _ ready free
    by_cases same : seen.id = call.id
    · have sameRow := eq_of_id_eq sound.keyed member seenMember
        (same.trans sameId.symm)
      rw [sameRow, taken] at free
      cases free
    · rw [apply_write_other same] at free ⊢
      exact ready free

theorem mem_stillInForce {given : TaskId → Bool} {tasks : List TaskItem}
    {inForce : List (TaskId × UserId)} {claim : TaskId × UserId}
    (stays : claim ∈ stillInForce given tasks inForce) :
    ∃ row ∈ tasks, row.id = claim.1 ∧ row.assigneeUserId = some claim.2 := by
  have kept := (List.mem_filter.mp stays).2
  simp only [Bool.and_eq_true, Option.any_eq_true, decide_eq_true_eq] at kept
  obtain ⟨_, row, isRow, assigned⟩ := kept
  obtain ⟨member, sameId⟩ := Table.find_some isRow
  exact ⟨row, member, sameId, assigned⟩

theorem nodup_stillInForce {given : TaskId → Bool} {tasks : List TaskItem}
    {inForce : List (TaskId × UserId)} (exclusive : (inForce.map Prod.fst).Nodup) :
    ((stillInForce given tasks inForce).map Prod.fst).Nodup :=
  exclusive.sublist (List.filter_sublist.map Prod.fst)

/-- A change of the cards after which the claims still held stay in force. -/
theorem Sound.ofTasksStill (sound : before.Sound columns boards)
    {change : TaskItem → TaskItem} {given : TaskId → Bool}
    (same : ∀ row, (change row).id = row.id ∧ (change row).boardId = row.boardId)
    (column : ∀ row, LeaseWrite.columnExists columns row = true →
      LeaseWrite.columnExists columns (change row) = true)
    (ready : ∀ call ∈ before.calls, call.hasRead = true →
      ∀ row ∈ before.tasks, row.id = call.id →
        Ready columns call.claimant row → Ready columns call.claimant (change row)) :
    Sound columns boards
      { before with
        tasks := before.tasks.map change
        inForce := stillInForce given (before.tasks.map change) before.inForce } := by
  apply sound.ofTasks same column
  · intro claim stays
    obtain ⟨row, member, sameId, assigned⟩ := mem_stillInForce stays
    obtain ⟨earlier, wasThere, rfl⟩ := List.mem_map.mp member
    exact ⟨earlier, wasThere, (same earlier).1.symm.trans sameId, assigned⟩
  · exact nodup_stillInForce sound.exclusive
  · exact ready

/-- The reading of a card, or of its board, keeps the store sound. -/
theorem Sound.reads (sound : before.Sound columns boards) {index : Nat} {call next : ClaimCall}
    (present : before.calls[index]? = some call) (earlier : ∀ target, call.stage ≠ .update target)
    (checked : call.check columns before.tasks = .ok next)
    (live : call.stage = .readRow → ∀ row ∈ before.tasks, row.id = call.id → row.archivedAt = none)
    (columnsKeyed : Table.Keyed BoardColumn.id columns) :
    Sound columns boards { before with calls := before.calls.set index next } := by
  have inFlight := List.mem_of_getElem? present
  obtain ⟨sameId, sameClaimant, _⟩ := check_same checked
  apply sound.ofCalls
  intro other member
  rcases List.mem_or_eq_of_mem_set member with old | rfl
  · exact .inl old
  · right
    refine ⟨fun _ row rowMember rowId => ?_, fun target stage =>
      check_resolved earlier checked target stage columnsKeyed⟩
    rw [sameId] at rowId
    rw [sameClaimant]
    cases stage : call.stage with
    | readRow =>
        -- what it has just read could be claimed
        obtain ⟨seen, found, visible, allowed⟩ := check_readRow stage checked
        obtain ⟨seenMember, seenId, _⟩ := getRow_some found
        have sameRow := eq_of_id_eq sound.keyed seenMember rowMember
          (rowId.trans seenId.symm)
        rw [sameRow]
        exact fun _ => openTo_of_claimRefusal visible allowed
          (live stage seen seenMember seenId) (sound.column seen seenMember)
    | boardOfTask name =>
        exact sound.ready call inFlight (by simp [ClaimCall.hasRead, stage]) row
          rowMember rowId
    | update target => exact absurd stage (earlier target)

/-- Every step of a steady run keeps the store sound. -/
theorem Sound.step (sound : before.Sound columns boards)
    (columnsKeyed : Table.Keyed BoardColumn.id columns)
    (taken : before.step columns maxClaimSecs label = some after)
    (steady : before.Steady columns label) : after.Sound columns boards := by
  cases label with
  | claim tenant claimant id columnType =>
      cases taken
      apply sound.ofCalls
      intro call member
      rcases List.mem_append.mp member with old | new
      · exact .inl old
      · right
        rw [List.mem_singleton.mp new]
        -- a new call has read nothing
        exact ⟨fun hasRead => by simp [ClaimCall.hasRead] at hasRead,
          fun target stage => by simp at stage⟩
  | goOn index now =>
      rw [Claiming.step] at taken
      cases present : before.calls[index]? with
      | none =>
          rw [present] at taken
          cases taken
      | some call =>
          rw [present] at taken
          cases taken
          have handled : Sound columns boards
              { before with calls := before.calls.eraseIdx index } :=
            sound.ofCalls fun other stays => .inl (List.eraseIdx_subset stays)
          unfold goOn
          split
          case h_1 target stage =>
            split
            case isTrue isFree => exact sound.commit present stage isFree
            case isFalse => exact handled
          case h_2 earlier =>
            split
            case h_1 => exact handled
            case h_2 next checked =>
              exact sound.reads present (fun target => earlier target) checked
                (steady call present) columnsKeyed
  | write write =>
      rw [Claiming.step] at taken
      split at taken
      · cases taken
      · cases taken
        apply sound.ofTasksStill
        · intro row
          have same := @LeaseWrite.apply_same columns write row
          exact ⟨same.1, same.2.2⟩
        · intro row exists_
          exact write.columnExists_apply exists_
        · exact steady.2
  | setArchived id tenant now archived =>
      cases taken
      apply sound.ofTasks
      · intro row
        split <;> exact ⟨rfl, rfl⟩
      · intro row exists_
        split <;> exact exists_
      · intro claim isHeld
        obtain ⟨row, member, sameId, assigned⟩ := sound.held claim isHeld
        refine ⟨row, member, sameId, ?_⟩
        split <;> exact assigned
      · exact sound.exclusive
      · intro call inFlight hasRead row member sameId ready
        split
        case isFalse => exact ready
        case isTrue named =>
          intro free
          cases archived with
          | true =>
              have assigned := steady rfl call inFlight hasRead
                (sameId.symm.trans named.1) row member named.1
              rw [show row.assigneeUserId = none from free] at assigned
              cases assigned
          | false =>
              obtain ⟨visible, _, rest⟩ := openTo_iff.mp (ready free)
              exact openTo_iff.mpr ⟨visible, rfl, rest⟩
  | deleteTask id tenant =>
      cases taken
      exact
        { keyed := sound.keyed.sublist (List.filter_sublist.map _)
          column := fun row member => sound.column row (List.mem_filter.mp member).1
          board := fun row member => sound.board row (List.mem_filter.mp member).1
          held := fun claim stays => @mem_stillInForce (fun _ => false) _ _ claim stays
          exclusive := sound.exclusive.sublist (List.filter_sublist.map Prod.fst)
          ready := fun call inFlight hasRead row member =>
            sound.ready call inFlight hasRead row (List.mem_filter.mp member).1
          resolved := sound.resolved }

/-- A card given back whole is free, and open to everyone who sees it. -/
theorem openTo_of_givesBackWhole {write : LeaseWrite} {row : TaskItem}
    (columnsKeyed : Table.Keyed BoardColumn.id columns)
    (exists_ : LeaseWrite.columnExists columns row = true)
    (gives : write.givesBack columns row = true) (whole : write.givesBackWhole columns row = true) :
    (write.apply columns row).assigneeUserId = none ∧
      ∀ viewer, visibleTo (write.apply columns row) viewer = true →
        openTo columns viewer (write.apply columns row) = true := by
  simp only [LeaseWrite.givesBackWhole, Bool.and_eq_true, decide_eq_true_eq,
    Option.isNone_iff_eq_none] at whole
  obtain ⟨⟨live, notEpic⟩, placed⟩ := whole
  -- a release leaves the column, which is one of claimable work
  have released : ∀ now,
      (columnTypeOf columns row.columnId).any
          (· ∉ [.backlog, .completed, .canceled]) = true →
      ∀ viewer, visibleTo (Repo.releaseAssignment now row) viewer = true →
        openTo columns viewer (Repo.releaseAssignment now row) = true := by
    intro now stays viewer visible
    simp only [Option.any_eq_true, decide_eq_true_eq] at stays
    exact openTo_iff.mpr ⟨visible, live, notEpic, stays⟩
  cases write <;> simp only [LeaseWrite.givesBack, Bool.and_eq_true,
    Bool.false_eq_true] at gives
  case releaseAssignment id tenant now =>
    have isAfter : (LeaseWrite.releaseAssignment id tenant now).apply columns row =
        Repo.releaseAssignment now row := by
      have still : LeaseWrite.columnExists columns (Repo.releaseAssignment now row) =
          true := exists_
      rw [LeaseWrite.apply, if_pos gives.1, LeaseWrite.statement, Option.filter_some,
        if_pos still, Option.getD_some]
    rw [isAfter]
    exact ⟨rfl, released now placed⟩
  case releaseClaimOf id tenant holder now =>
    obtain ⟨named, matched⟩ := gives
    simp only [LeaseWrite.statement, Repo.releaseClaimOf] at matched
    split at matched
    case isFalse => cases matched
    case isTrue holds =>
      have isAfter : (LeaseWrite.releaseClaimOf id tenant holder now).apply columns
          row = Repo.releaseAssignment now row := by
        have still : LeaseWrite.columnExists columns
            (Repo.releaseAssignment now row) = true := exists_
        rw [LeaseWrite.apply, if_pos named, LeaseWrite.statement, Repo.releaseClaimOf,
          if_pos holds, Option.filter_some, if_pos still, Option.getD_some]
      rw [isAfter]
      exact ⟨rfl, released now placed⟩
  case reapLapsedClaims id now graceSecs sessions =>
    obtain ⟨named, matched⟩ := gives
    simp only [LeaseWrite.statement, Repo.reapLapsedClaims] at matched
    split at matched
    case h_1 => cases matched
    case h_2 unstarted isUnstarted =>
      split at matched
      case isFalse => cases matched
      case isTrue lapsed =>
        have type := columnTypeOf_columnOfType columnsKeyed isUnstarted
        have unassigned := Option.isNone_iff_eq_none.mp placed
        simp only [LeaseWrite.apply, named, LeaseWrite.statement,
          Repo.reapLapsedClaims, isUnstarted, if_pos lapsed, Option.filter_some,
          LeaseWrite.columnExists, type, Option.isSome_some, if_true,
          Option.getD_some]
        exact ⟨unassigned, fun viewer visible => openTo_iff.mpr
          ⟨visible, live, notEpic, .unstarted, type, by decide⟩⟩

/-- A step of a steady run owes the claims nothing. -/
theorem Sound.claimsRight (sound : before.Sound columns boards)
    (columnsKeyed : Table.Keyed BoardColumn.id columns)
    (taken : before.step columns maxClaimSecs label = some after)
    (steady : before.Steady columns label) :
    ClaimsRight columns boards maxClaimSecs before label after where
  exclusive := (sound.step columnsKeyed taken steady).exclusive
  legal := by
    intro call commits row member sameId
    cases label with
    | goOn index now =>
        obtain ⟨present, atUpdate⟩ := Option.filter_eq_some_iff.mp commits
        split at atUpdate
        case h_1 target stage =>
          obtain ⟨seen, isFree⟩ := Option.isSome_iff_exists.mp atUpdate
          obtain ⟨seenMember, seenId, _, unassigned, isOpen⟩ :=
            sound.legal (List.mem_of_getElem? present)
              (by simp [ClaimCall.hasRead, stage]) isFree
          have sameRow := eq_of_id_eq sound.keyed member seenMember
            (seenId.trans sameId.symm)
          rw [← sameRow]
          exact ⟨unassigned, isOpen⟩
        case h_2 => cases atUpdate
    | claim | write | setArchived | deleteTask => cases commits
  claimableAgain := by
    rintro write rfl row member gives viewer visible
    have soundAfter := sound.step columnsKeyed taken steady
    rw [Claiming.step] at taken
    split at taken
    · cases taken
    · cases taken
      obtain ⟨free, isOpen⟩ := openTo_of_givesBackWhole columnsKeyed
        (sound.column row member) gives (steady.1 row member gives)
      obtain ⟨sameId, sameTenant, sameBoard⟩ :=
        @LeaseWrite.apply_same columns write row
      have isThere : write.apply columns row ∈ before.tasks.map (write.apply columns) :=
        List.mem_map_of_mem member
      constructor
      · intro ciMatch relations labels
        rw [← sameTenant]
        apply picks_claimableWork_iff.mpr
        exact ⟨soundAfter.board _ isThere, free, isOpen viewer visible⟩
      · intro now columnType resolves
        rw [← sameTenant, ← sameId]
        rw [← sameBoard] at resolves
        exact claimInner_ok soundAfter.keyed isThere free (isOpen viewer visible)
          resolves

/-- In every run in which no call reads an archived card, nothing takes from a
free card what a call has read of it, and cards are given back as claimable
work, claims are exclusive, legal where they commit, and given back whole. -/
theorem claims_right {tasks : List TaskItem} {steps : List ClaimStep}
    (columnsKeyed : Table.Keyed BoardColumn.id columns)
    (keyed : Table.Keyed TaskItem.id tasks)
    (column : ∀ row ∈ tasks, (columnTypeOf columns row.columnId).isSome = true)
    (board : ∀ row ∈ tasks, (Table.find BoardRow.id boards row.boardId).isSome = true)
    (steady : Along (Claiming.step columns maxClaimSecs)
      (fun before label _ => before.Steady columns label)
      { tasks, calls := [], inForce := [] } steps) :
    Along (Claiming.step columns maxClaimSecs)
      (ClaimsRight columns boards maxClaimSecs)
      { tasks, calls := [], inForce := [] } steps := by
  apply steady.of_invariant (Claiming.Sound columns boards)
  · intro before label after sound taken isSteady
    exact sound.step columnsKeyed taken isSteady
  · intro before label after sound taken isSteady
    exact sound.claimsRight columnsKeyed taken isSteady
  · exact
      { keyed
        column
        board
        held := List.forall_mem_nil _
        exclusive := List.nodup_nil
        ready := List.forall_mem_nil _
        resolved := List.forall_mem_nil _ }

/-- The reaper leaves the assignee of the card it takes. -/
theorem reapLapsedClaims_assignee (id : TaskId) (now : Instant) (graceSecs : Int)
    (sessions : SessionId → Option SessionRow) (row : TaskItem) :
    ((LeaseWrite.reapLapsedClaims id now graceSecs sessions).apply columns
      row).assigneeUserId = row.assigneeUserId := by
  rcases (LeaseWrite.reapLapsedClaims id now graceSecs sessions).apply_cases row with
    same | ⟨_, result, _⟩
  · rw [same]
  · simp only [LeaseWrite.statement, Repo.reapLapsedClaims] at result
    split at result
    · cases result
    · split at result
      · rw [← Option.some.inj result]
      · cases result

/-- A card that was claimed is not claimable work once it is reaped. -/
theorem not_picks_reaped {ciMatch : String → String → Bool} {tables : PickTables} {viewer : UserId}
    {row : TaskItem} (assigned : row.assigneeUserId.isSome = true) (id : TaskId) (now : Instant)
    (graceSecs : Int) (sessions : SessionId → Option SessionRow) :
    picks ciMatch tables row.tenantId viewer claimableWork
      ((LeaseWrite.reapLapsedClaims id now graceSecs sessions).apply columns row) =
        false := by
  have sameTenant := (@LeaseWrite.apply_same columns
    (.reapLapsedClaims id now graceSecs sessions) row).2.1
  rw [← sameTenant, Bool.eq_false_iff]
  intro picked
  have free := (picks_claimableWork_iff.mp picked).2.1
  rw [reapLapsedClaims_assignee] at free
  rw [free] at assigned
  cases assigned

/-- A board of three columns with one card in To-Do. -/
def oneBoard : List BoardRow := [{ id := 1, tenantId := 1, key := some "NOOK" }]

def filedCard : TaskItem :=
  Repo.createTask 0 1 1
    { tenant := 1, board := 1, columnId := 1, title := "card", createdBy := some 7 }

/-- A member claims the card for work. -/
def claimForWork (claimant : UserId) (now : Instant) : List ClaimStep :=
  [.claim 1 claimant 1 (some "started"), .goOn 0 now, .goOn 0 now, .goOn 0 now]

/-- The card is archived, and then it is claimed. -/
theorem archived_card_claimed :
    (∃ store, run (Claiming.step threeColumns 14400)
        { tasks := [filedCard], calls := [], inForce := [] }
        (.setArchived 1 1 5 true :: claimForWork 8 10) = some store ∧
      store.inForce = [(1, 8)] ∧ ∀ row ∈ store.tasks, row.archivedAt = some 5) ∧
    ¬ Along (Claiming.step threeColumns 14400) (ClaimsRight threeColumns oneBoard 14400)
        { tasks := [filedCard], calls := [], inForce := [] }
        (.setArchived 1 1 5 true :: claimForWork 8 10) := by
  constructor
  · exact ⟨_, rfl, by decide, by decide⟩
  · intro right
    have archived := (along_cons rfl).mp right
    have begun := (along_cons rfl).mp archived.2
    have seen := (along_cons rfl).mp begun.2
    have resolved := (along_cons rfl).mp seen.2
    have commits := ((along_cons rfl).mp resolved.2).1
    have isOpen := commits.legal _ rfl _ (List.mem_singleton_self _) rfl
    exact absurd isOpen.2 (by decide)

/-- The card is claimed, given up, and claimed again. -/
theorem claims_right_again :
    Along (Claiming.step threeColumns 14400) (ClaimsRight threeColumns oneBoard 14400)
      { tasks := [filedCard], calls := [], inForce := [] }
      (claimForWork 8 10 ++ .write (.releaseAssignment 1 1 20) :: claimForWork 9 30) :=
  claims_right (by unfold Table.Keyed; decide) (by unfold Table.Keyed; decide)
    (by decide) (by decide) (by decide)

end Steps

end Claiming

end NookOs.Tasks
