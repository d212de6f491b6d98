/-
Module: NookOs.Tasks.PickWalk
Purpose: The pick listing followed from its first page by its cursor, and the
  boards on which this offers every card.
Trusted boundary: none
Main exports: pageLimit, pickPage, pickWalk, matching, pick_walks_iff
-/
import NookOs.Lib.Walk
import NookOs.Tasks.Pick

namespace NookOs.Tasks

open Lib
open Lib.Walk (Aligned follow)
open Jobs (Instant TenantId TaskId UserId)

section Walk

variable (ciMatch : String → String → Bool) (tables : PickTables) (tenant : TenantId)
  (viewer : UserId) (p : PickParams) (limit : Option Int)

/-- `limit.unwrap_or(50).clamp(1, 200)`. -/
def pageLimit : Nat := (min (max (limit.getD 50) 1) 200).toNat

/-- A page of the listing, and its continuation: the `created_at` of its last row. -/
def pickPage (tables : PickTables) (cursor : Option Instant) : List TaskItem × Option Instant :=
  let rows := pickTasks ciMatch tables tenant viewer
    { p with limit := pageLimit limit, createdAfter := cursor }
  (rows, rows.getLast?.map TaskItem.createdAt)

/-- The pages of a board that nobody writes to, until none is left. -/
def pickWalk : Option (List TaskItem) :=
  follow (pickPage ciMatch tenant viewer p limit)
    (List.replicate (tables.tasks.length + 1) tables) none

/-- The cards that the filter is for, with no cursor. -/
def matching : List TaskItem :=
  tables.tasks.filter (picks ciMatch tables tenant viewer { p with createdAfter := none })

end Walk

section Order

instance : IsTrans TaskItem sortsBefore where
  trans first second third := by
    rintro (before | ⟨same, earlier⟩) (after | ⟨alike, later⟩)
    · exact .inl (before.trans after)
    · exact .inl (alike ▸ before)
    · exact .inl (same ▸ after)
    · exact .inr ⟨same.trans alike, earlier.trans later⟩

instance : Std.Total sortsBefore where
  total first second := by
    rcases lt_trichotomy (priorityRank first) (priorityRank second) with before | same | after
    · exact .inl (.inl before)
    · exact (le_total first.createdAt second.createdAt).imp (fun earlier => .inr ⟨same, earlier⟩)
        fun later => .inr ⟨same.symm, later⟩
    · exact .inr (.inl after)

end Order

section Completeness

variable {ciMatch : String → String → Bool} {tables : PickTables} {tenant : TenantId}
  {viewer : UserId} {p : PickParams} {limit : Option Int}

theorem pageLimit_pos : 0 < pageLimit limit := by
  unfold pageLimit
  omega

/-- The cursor is one more clause of the filter. -/
theorem picks_createdAfter {size : Nat} {cursor : Option Instant} {task : TaskItem} :
    picks ciMatch tables tenant viewer { p with limit := size, createdAfter := cursor } task =
      (cursor.all (· < task.createdAt) &&
        picks ciMatch tables tenant viewer { p with createdAfter := none } task) := by
  unfold picks
  cases boardOf tables task with
  | none => exact (Bool.and_false _).symm
  | some board =>
      cases columnTypeOf tables.columns task.columnId with
      | none => exact (Bool.and_false _).symm
      | some column =>
          simp only [picksRow, hasLabels, Option.all_none, Bool.and_true]
          cases cursor.all fun reached => decide (reached < task.createdAt) with
          | true => simp only [Bool.and_true, Bool.true_and]
          | false => simp only [Bool.and_false, Bool.false_and]

/-- A page holds the first of the ordered cards that were created after the cursor. -/
theorem pickPage_eq (cursor : Option Instant) :
    pickPage ciMatch tenant viewer p limit tables cursor =
      Walk.stampPage TaskItem.createdAt (pageLimit limit)
        ((matching ciMatch tables tenant viewer p).insertionSort sortsBefore) cursor := by
  have rows : pickTasks ciMatch tables tenant viewer
      { p with limit := pageLimit limit, createdAfter := cursor } =
        (Walk.after TaskItem.createdAt
          ((matching ciMatch tables tenant viewer p).insertionSort sortsBefore) cursor).take
          (pageLimit limit) := by
    have clauses := funext fun task =>
      @picks_createdAfter ciMatch tables tenant viewer p (pageLimit limit) cursor task
    rw [Walk.after, Walk.filter_insertionSort, matching, List.filter_filter, pickTasks, clauses]
  rw [pickPage, Walk.stampPage, rows]

theorem pickWalk_eq : pickWalk ciMatch tables tenant viewer p limit =
    follow (fun _ => Walk.stampPage TaskItem.createdAt (pageLimit limit)
      ((matching ciMatch tables tenant viewer p).insertionSort sortsBefore))
      (List.replicate (tables.tasks.length + 1) tables) none := by
  apply Walk.follow_congr
  intro world isWorld
  rw [List.eq_of_mem_replicate isWorld]
  exact funext pickPage_eq

/-- The listing offers every card that the filter is for once, in its order, exactly where
for every page the cards created after its last card are those that stand after it. -/
theorem pick_walks_iff (keyed : Table.Keyed TaskItem.id tables.tasks) :
    (∃ rows, pickWalk ciMatch tables tenant viewer p limit = some rows ∧
        rows.Perm (matching ciMatch tables tenant viewer p) ∧ rows.Pairwise sortsBefore) ↔
      Aligned TaskItem.createdAt (pageLimit limit)
        ((matching ciMatch tables tenant viewer p).insertionSort sortsBefore) := by
  have ordered := List.perm_insertionSort sortsBefore (matching ciMatch tables tenant viewer p)
  have distinct : ((matching ciMatch tables tenant viewer p).insertionSort sortsBefore).Nodup :=
    ordered.nodup_iff.mpr ((List.Nodup.of_map _ keyed).filter _)
  have enough : ((matching ciMatch tables tenant viewer p).insertionSort sortsBefore).length <
      tables.tasks.length + 1 := by
    rw [List.length_insertionSort, matching]
    exact Nat.lt_succ_of_le (List.length_filter_le _ _)
  have readsAll := @Walk.follow_perm_iff PickTables _ _ _ TaskItem.createdAt
    (pageLimit limit) ((matching ciMatch tables tenant viewer p).insertionSort sortsBefore)
    pageLimit_pos distinct _ enough tables
  constructor
  · rintro ⟨rows, walked, whole, -⟩
    exact readsAll.mp ⟨rows, pickWalk_eq ▸ walked, whole.trans ordered.symm⟩
  · intro aligned
    refine ⟨_, pickWalk_eq.trans (Walk.follow_whole pageLimit_pos aligned enough tables),
      ordered, ?_⟩
    exact List.pairwise_insertionSort sortsBefore _

/-- A card of a board with one column. -/
def plainCard (id : TaskId) (priority : Int) (createdAt : Instant) : TaskItem where
  id := id
  tenantId := 1
  boardId := 1
  columnId := 1
  number := some id
  title := "card"
  description := none
  type := .task
  position := 0
  priority := priority
  visibility := .team
  createdBy := none
  assigneeUserId := none
  workspaceId := none
  parentTaskId := none
  assignedNodeId := none
  branch := none
  worktreePath := none
  worktreeNodeId := none
  checkoutId := none
  sessionId := none
  claimExpiresAt := none
  unblockedAt := none
  buildLadderClearedAt := none
  prUrl := none
  archivedAt := none
  createdAt := createdAt
  updatedAt := createdAt

def plainBoard (tasks : List TaskItem) : PickTables where
  boards := [⟨1, 1, some "MAIN"⟩]
  columns := [⟨1, 1, "Todo", 0, .unstarted⟩]
  tasks := tasks
  relations := []
  labels := []

/-- Three cards, the more urgent ones older, two to a page. -/
theorem pick_walks_inOrder :
    Aligned TaskItem.createdAt (pageLimit (some 2))
      ((matching (fun _ _ => false) (plainBoard [plainCard 3 2 9, plainCard 1 1 7,
        plainCard 2 1 8]) 1 1 {}).insertionSort sortsBefore) :=
  (pick_walks_iff (by unfold Table.Keyed; decide)).mp
    ⟨[plainCard 1 1 7, plainCard 2 1 8, plainCard 3 2 9], by decide +kernel, by decide +kernel,
      by decide +kernel⟩

/-- The more urgent card is the younger one. -/
def overtaken : PickTables := plainBoard [plainCard 1 2 7, plainCard 2 1 8]

/-- A card that is less urgent and older than the last of a page is never offered. -/
theorem pick_walks_past :
    pickWalk (fun _ _ => false) overtaken 1 1 {} (some 1) = some [plainCard 2 1 8] ∧
      plainCard 1 2 7 ∈ matching (fun _ _ => false) overtaken 1 1 {} := by
  decide +kernel

end Completeness

end NookOs.Tasks
