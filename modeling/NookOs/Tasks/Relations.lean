/-
Module: NookOs.Tasks.Relations
Purpose: The link handler in any interleaving with itself, with unlink and with
  task deletion, and exactly when the blocks relation stays without a cycle.
Trusted boundary: none
Main exports: RelationKind, TaskRelation, LinkCall, Linking, blocks_acyclic_iff, timely_of_alone
-/
import NookOs.Lib.InFlight
import NookOs.Lib.Reach
import NookOs.Lib.Run
import NookOs.Tasks.Task

namespace NookOs.Tasks

open Lib
open Jobs (Instant TenantId TaskId UserId)

/-!
A link call runs its checks one query at a time and inserts its row last; no
lock and no transaction holds the checks and the insert together.  Any number
of calls may stand between any two of their statements while others unlink,
delete tasks or change them.
-/

section Rows

/-- The values the `task_relations_kind_check` constraint admits. -/
inductive RelationKind where
  | blocks
  | relates
  | duplicates
deriving DecidableEq

/-- `KINDS.contains(&kind)`. -/
def RelationKind.parse : String → Option RelationKind
  | "blocks" => some .blocks
  | "relates" => some .relates
  | "duplicates" => some .duplicates
  | _ => none

/-- One row of `task_relations`. -/
structure TaskRelation where
  id : Nat
  tenantId : TenantId
  fromTask : TaskId
  toTask : TaskId
  kind : RelationKind
  createdAt : Instant
deriving DecidableEq

/-- The edges the rows of kind `blocks` draw. -/
def blocksEdges (relations : List TaskRelation) : List (TaskId × TaskId) :=
  (relations.filter (·.kind = .blocks)).map fun row => (row.fromTask, row.toTask)

/-- The recursive query: does `start` reach `target` by `blocks` edges? -/
def blocksReaches (relations : List TaskRelation) (start target : TaskId) : Bool :=
  target ∈ reachable (blocksEdges relations) start

/-- What a reader of one of its ends is told that a relation is. -/
inductive RelatedKind where
  | blockedBy
  | blocking
  | relates
  | duplicates
deriving DecidableEq

/-- The `kind` column of `related_tasks`, which rewrites the stored direction to
the reader's side. -/
def relatedKind (reader : TaskId) (row : TaskRelation) : RelatedKind :=
  match row.kind with
  | .blocks => if row.toTask = reader then .blockedBy else .blocking
  | .relates => .relates
  | .duplicates => .duplicates

/-- The relations a task takes part in, with its side of each. -/
def relatedOf (relations : List TaskRelation) (reader : TaskId) :
    List (TaskId × RelatedKind) :=
  (relations.filter fun row => row.fromTask = reader || row.toTask = reader).map
    fun row =>
      (if row.fromTask = reader then row.toTask else row.fromTask,
        relatedKind reader row)

end Rows

section Handler

/-- What `link` answers when it does not link. -/
inductive LinkError where
  | badRequest (message : String)
  | notFound
  | conflict (message : String)
deriving DecidableEq

def cycleMessage : String :=
  "that would create a cycle: the blocked task already blocks this one, " ++
    "directly or through a chain, and neither could ever start"

def kindMessage (kind : String) : String :=
  kind.quote ++
    " is not a relation kind — expected one of blocks, relates, duplicates"

/-- The statement a call runs next. -/
inductive LinkStage where
  | readFrom
  | readTo
  | checkCycle
  | insert
deriving DecidableEq

/-- A `link` call in progress. -/
structure LinkCall where
  tenant : TenantId
  viewer : UserId
  fromTask : TaskId
  toTask : TaskId
  kind : RelationKind
  stage : LinkStage
deriving DecidableEq

/-- The checks of the arguments alone, before the first query. -/
def LinkCall.start (tenant : TenantId) (viewer : UserId)
    (fromTask toTask : TaskId) (kind : String) : Except LinkError LinkCall :=
  match RelationKind.parse kind with
  | none => .error (.badRequest (kindMessage kind))
  | some kind =>
      if fromTask = toTask then
        .error (.badRequest "a task cannot relate to itself")
      else .ok { tenant, viewer, fromTask, toTask, kind, stage := .readFrom }

/-- One end of the relation, as the caller may see it. -/
def endVisible (tasks : List TaskItem) (call : LinkCall) (id : TaskId) : Bool :=
  (getRow tasks call.tenant id).any (visibleTo · call.viewer)

/-- The next check of a call: it is refused, or it goes on to its next stage. -/
def LinkCall.check (tasks : List TaskItem) (relations : List TaskRelation)
    (call : LinkCall) : Except LinkError LinkCall :=
  match call.stage with
  | .readFrom =>
      if endVisible tasks call call.fromTask then
        .ok { call with stage := .readTo }
      else .error .notFound
  | .readTo =>
      if endVisible tasks call call.toTask then
        .ok { call with
          stage := if call.kind = .blocks then .checkCycle else .insert }
      else .error .notFound
  | .checkCycle =>
      if blocksReaches relations call.toTask call.fromTask then
        .error (.conflict cycleMessage)
      else .ok { call with stage := .insert }
  | .insert => .ok call

end Handler

/-- The tables, the id the next `Uuid::now_v7` returns, and the calls in
flight. -/
structure Linking where
  tasks : List TaskItem
  relations : List TaskRelation
  nextId : Nat
  calls : List LinkCall
deriving DecidableEq

namespace Linking

/-- A task a foreign key may name. -/
def stored (store : Linking) (id : TaskId) : Bool :=
  (Table.find TaskItem.id store.tasks id).isSome

/-- `INSERT … ON CONFLICT (from_task, to_task, kind) DO UPDATE SET kind =
EXCLUDED.kind`: the foreign keys and the check that the ends differ may fail
it. -/
def upsertRelation (now : Instant) (call : LinkCall) (store : Linking) : Linking :=
  if call.fromTask = call.toTask ∨ !store.stored call.fromTask ∨
      !store.stored call.toTask then store
  else if store.relations.any fun row =>
      row.fromTask = call.fromTask && row.toTask = call.toTask &&
        row.kind = call.kind then
    store
  else
    { store with
      relations := store.relations ++
        [{ id := store.nextId
           tenantId := call.tenant
           fromTask := call.fromTask
           toTask := call.toTask
           kind := call.kind
           createdAt := now }]
      nextId := store.nextId + 1 }

/-- `DELETE FROM task_relations WHERE id = $1 AND tenant_id = $2`. -/
def deleteRelation (id : Nat) (tenant : TenantId) (store : Linking) : Linking :=
  { store with
    relations := store.relations.filter fun row =>
      !(row.id = id && row.tenantId = tenant) }

/-- `DELETE FROM tasks …`, which cascades to the relations of the task. -/
def deleteTask (id : TaskId) (tenant : TenantId) (store : Linking) : Linking :=
  if (getRow store.tasks tenant id).isSome then
    { store with
      tasks := Table.delete TaskItem.id id store.tasks
      relations := store.relations.filter fun row =>
        row.fromTask ≠ id && row.toTask ≠ id }
  else store

end Linking

/-- One step of one client. -/
inductive LinkStep where
  | link (tenant : TenantId) (viewer : UserId) (fromTask toTask : TaskId)
      (kind : String)
  | goOn (call : Nat) (now : Instant)
  | unlink (id : Nat) (tenant : TenantId)
  | deleteTask (id : TaskId) (tenant : TenantId)
  | writeTasks (tasks : List TaskItem)
deriving DecidableEq

namespace Linking

/-- The call takes its next step.  A refused call and one that has inserted are
over. -/
def goOn (store : Linking) (index : Nat) (now : Instant) (call : LinkCall) :
    Linking :=
  match call.stage with
  | .insert =>
      { upsertRelation now call store with calls := store.calls.eraseIdx index }
  | _ =>
      match call.check store.tasks store.relations with
      | .error _ => { store with calls := store.calls.eraseIdx index }
      | .ok next => { store with calls := store.calls.set index next }

/-- Any client may take its step; tasks may be filed and edited in any way, as
long as those that relations name are there. -/
def step (store : Linking) : LinkStep → Option Linking
  | .link tenant viewer fromTask toTask kind =>
      match LinkCall.start tenant viewer fromTask toTask kind with
      | .error _ => some store
      | .ok call => some { store with calls := store.calls ++ [call] }
  | .goOn index now => do
      let call ← store.calls[index]?
      some (store.goOn index now call)
  | .unlink id tenant => some (deleteRelation id tenant store)
  | .deleteTask id tenant => some (deleteTask id tenant store)
  | .writeTasks tasks =>
      if ∀ row ∈ store.tasks, (Table.find TaskItem.id tasks row.id).isSome then
        some { store with tasks }
      else none

end Linking

section Graph

variable {relations : List TaskRelation}

theorem edge_iff {source target : TaskId} :
    Edge (blocksEdges relations) source target ↔
      ∃ row ∈ relations, row.kind = .blocks ∧ row.fromTask = source ∧
        row.toTask = target := by
  simp only [Edge, blocksEdges, List.mem_map, List.mem_filter,
    decide_eq_true_eq, Prod.mk.injEq]
  constructor
  · rintro ⟨row, ⟨member, kind⟩, from_, to_⟩
    exact ⟨row, member, kind, from_, to_⟩
  · rintro ⟨row, member, kind, from_, to_⟩
    exact ⟨row, ⟨member, kind⟩, from_, to_⟩

/-- Fewer rows draw fewer edges. -/
theorem edge_of_subset {fewer : List TaskRelation} (subset : fewer ⊆ relations) :
    Edge (blocksEdges fewer) ≤ Edge (blocksEdges relations) := by
  intro source target edge
  obtain ⟨row, member, ends⟩ := edge_iff.mp edge
  exact edge_iff.mpr ⟨row, subset member, ends⟩

/-- The recursive query decides reachability by one or more edges. -/
theorem blocksReaches_iff {start target : TaskId} :
    blocksReaches relations start target = true ↔
      Relation.TransGen (Edge (blocksEdges relations)) start target := by
  rw [blocksReaches, decide_eq_true_eq, mem_reachable_iff]

/-- What one end reads as being blocked by is what blocks it. -/
theorem blockedBy_iff {reader other : TaskId} :
    (other, RelatedKind.blockedBy) ∈ relatedOf relations reader ↔
      Edge (blocksEdges relations) other reader := by
  simp only [relatedOf, List.mem_map, List.mem_filter, Bool.or_eq_true,
    decide_eq_true_eq, Prod.mk.injEq]
  rw [edge_iff]
  constructor
  · rintro ⟨row, ⟨member, _⟩, side, kind⟩
    cases stored : row.kind <;> simp only [relatedKind, stored] at kind
    · split at kind
      case isTrue toReader =>
        refine ⟨row, member, stored, ?_, toReader⟩
        split at side
        case isTrue fromReader => rw [fromReader, ← toReader, side]
        case isFalse => exact side
      case isFalse => contradiction
    · contradiction
    · contradiction
  · rintro ⟨row, member, stored, rfl, rfl⟩
    refine ⟨row, ⟨member, .inr rfl⟩, ?_, ?_⟩
    · split
      case isTrue same => exact same.symm
      case isFalse => rfl
    · simp [relatedKind, stored]

/-- What one end reads as blocking is what it blocks. -/
theorem blocking_iff {reader other : TaskId} (apart : other ≠ reader) :
    (other, RelatedKind.blocking) ∈ relatedOf relations reader ↔
      Edge (blocksEdges relations) reader other := by
  simp only [relatedOf, List.mem_map, List.mem_filter, Bool.or_eq_true,
    decide_eq_true_eq, Prod.mk.injEq]
  rw [edge_iff]
  constructor
  · rintro ⟨row, ⟨member, ends⟩, side, kind⟩
    cases stored : row.kind <;> simp only [relatedKind, stored] at kind
    · split at kind
      case isTrue => contradiction
      case isFalse notReader =>
        have fromReader := ends.resolve_right notReader
        rw [if_pos fromReader] at side
        exact ⟨row, member, stored, fromReader, side⟩
    · contradiction
    · contradiction
  · rintro ⟨row, member, stored, rfl, rfl⟩
    exact ⟨row, ⟨member, .inl rfl⟩, if_pos rfl, by simp [relatedKind, stored, apart]⟩

/-- One more row draws its edge, if it is a `blocks` row. -/
theorem edge_append {row : TaskRelation} {source target : TaskId} :
    Edge (blocksEdges (relations ++ [row])) source target ↔
      Edge (blocksEdges relations) source target ∨
        (row.kind = .blocks ∧ source = row.fromTask ∧ target = row.toTask) := by
  rw [edge_iff, edge_iff]
  constructor
  · rintro ⟨found, member, kind, rfl, rfl⟩
    rcases List.mem_append.mp member with old | new
    · exact .inl ⟨found, old, kind, rfl, rfl⟩
    · rw [List.mem_singleton.mp new] at kind ⊢
      exact .inr ⟨kind, rfl, rfl⟩
  · rintro (⟨found, old, ends⟩ | ⟨kind, rfl, rfl⟩)
    · exact ⟨found, List.mem_append_left _ old, ends⟩
    · exact ⟨row, List.mem_append_right _ (List.mem_singleton_self _), kind, rfl, rfl⟩

end Graph

namespace Linking

/-- The graph of the stored `blocks` rows. -/
def blocks (store : Linking) : TaskId → TaskId → Prop :=
  Edge (blocksEdges store.relations)

instance (store : Linking) (source target : TaskId) :
    Decidable (store.blocks source target) :=
  inferInstanceAs (Decidable (Edge _ _ _))

/-- The foreign keys of `task_relations` hold. -/
def ForeignKeys (store : Linking) : Prop :=
  ∀ row ∈ store.relations, store.stored row.fromTask = true ∧
    store.stored row.toTask = true

section Insert

variable {store : Linking} {call : LinkCall} {now : Instant}

/-- A path leads from a stored task to a stored task. -/
theorem ForeignKeys.of_path (keys : store.ForeignKeys) {first last : TaskId}
    (path : Relation.TransGen store.blocks first last) :
    store.stored first = true ∧ store.stored last = true := by
  obtain ⟨next, firstEdge, _⟩ := Relation.TransGen.head'_iff.mp path
  obtain ⟨previous, _, lastEdge⟩ := Relation.TransGen.tail'_iff.mp path
  obtain ⟨firstRow, firstMember, _, rfl, _⟩ := edge_iff.mp firstEdge
  obtain ⟨lastRow, lastMember, _, _, rfl⟩ := edge_iff.mp lastEdge
  exact ⟨(keys firstRow firstMember).1, (keys lastRow lastMember).2⟩

/-- What the insert of a call does to the rows: nothing, or it appends the
call's relation. -/
theorem upsertRelation_relations :
    ((upsertRelation now call store).relations = store.relations ∧
        (call.fromTask = call.toTask ∨ store.stored call.fromTask = false ∨
          store.stored call.toTask = false ∨
          ∃ row ∈ store.relations, row.fromTask = call.fromTask ∧
            row.toTask = call.toTask ∧ row.kind = call.kind)) ∨
      (call.fromTask ≠ call.toTask ∧ store.stored call.fromTask = true ∧
        store.stored call.toTask = true ∧
        ∃ row : TaskRelation, row.fromTask = call.fromTask ∧
          row.toTask = call.toTask ∧ row.kind = call.kind ∧
          (upsertRelation now call store).relations =
            store.relations ++ [row]) := by
  unfold upsertRelation
  split
  case isTrue refused =>
    rcases refused with same | noFrom | noTo
    · exact .inl ⟨rfl, .inl same⟩
    · exact .inl ⟨rfl, .inr (.inl (by simpa using noFrom))⟩
    · exact .inl ⟨rfl, .inr (.inr (.inl (by simpa using noTo)))⟩
  case isFalse admitted =>
    split
    case isTrue conflict =>
      have found := List.any_eq_true.mp conflict
      simp only [Bool.and_eq_true, decide_eq_true_eq, and_assoc] at found
      exact .inl ⟨rfl, .inr (.inr (.inr found))⟩
    case isFalse =>
      simp only [not_or, Bool.not_eq_true, Bool.not_eq_false'] at admitted
      exact .inr ⟨admitted.1, admitted.2.1, admitted.2.2, _, rfl, rfl, rfl, rfl⟩

/-- The insert of a call keeps the graph without a cycle exactly when the task
it blocks does not reach the blocking one as the graph then is. -/
theorem acyclic_upsertRelation_iff (keys : store.ForeignKeys) (acyclic : Acyclic store.blocks) :
    Acyclic (upsertRelation now call store).blocks ↔
      (call.kind = .blocks →
        blocksReaches store.relations call.toTask call.fromTask = false) := by
  rw [← Bool.not_eq_true, blocksReaches_iff]
  rcases @upsertRelation_relations store call now with
    ⟨same, reason⟩ | ⟨apart, _, _, row, fromRow, toRow, kindRow, appended⟩
  · have unchanged : (upsertRelation now call store).blocks = store.blocks := by
      rw [blocks, blocks, same]
    rw [unchanged]
    refine ⟨fun _ isBlocks back => ?_, fun _ => acyclic⟩
    -- a way back would have been a cycle, or a path over a task that is gone
    have ends := keys.of_path back
    rcases reason with sameEnd | noFrom | noTo | ⟨row, member, rowEnds⟩
    · rw [sameEnd] at back
      exact acyclic call.toTask back
    · rw [ends.2] at noFrom
      contradiction
    · rw [ends.1] at noTo
      contradiction
    · have edge : store.blocks call.fromTask call.toTask :=
        edge_iff.mpr ⟨row, member, rowEnds.2.2.trans isBlocks, rowEnds.1, rowEnds.2.1⟩
      exact acyclic call.fromTask (.trans (.single edge) back)
  · by_cases isBlocks : call.kind = .blocks
    · have extended : (upsertRelation now call store).blocks =
          fun a b => store.blocks a b ∨ (a = call.fromTask ∧ b = call.toTask) := by
        funext a b
        apply propext
        rw [blocks, appended, edge_append, kindRow, fromRow, toRow]
        simp only [isBlocks, true_and]
        exact Iff.rfl
      rw [extended, acyclic_or_iff, Relation.reflTransGen_iff_eq_or_transGen]
      constructor
      · rintro ⟨_, noWayBack⟩ _ back
        exact noWayBack (.inr back)
      · intro noWayBack
        refine ⟨acyclic, ?_⟩
        rintro (sameEnd | back)
        · exact apart sameEnd
        · exact noWayBack isBlocks back
    · have unchanged : (upsertRelation now call store).blocks = store.blocks := by
        funext a b
        apply propext
        rw [blocks, appended, edge_append, kindRow]
        simp only [isBlocks, false_and, or_false]
        exact Iff.rfl
      rw [unchanged]
      exact ⟨fun _ isBlocks' => absurd isBlocks' isBlocks, fun _ => acyclic⟩

/-- The insert of a call keeps the foreign keys. -/
theorem ForeignKeys.upsertRelation (keys : store.ForeignKeys) :
    (upsertRelation now call store).ForeignKeys := by
  have sameTasks : (Linking.upsertRelation now call store).tasks = store.tasks := by
    unfold Linking.upsertRelation
    split
    · rfl
    · split <;> rfl
  intro row member
  simp only [stored, sameTasks]
  rcases @upsertRelation_relations store call now with
    ⟨same, _⟩ | ⟨_, fromStored, toStored, new, fromNew, toNew, _, appended⟩
  · rw [same] at member
    exact keys row member
  · rw [appended] at member
    rcases List.mem_append.mp member with old | isNew
    · exact keys row old
    · rw [List.mem_singleton.mp isNew, fromNew, toNew]
      exact ⟨fromStored, toStored⟩

end Insert

/-- The call whose insert a step is. -/
def inserting (store : Linking) : LinkStep → Option LinkCall
  | .goOn index _ => store.calls[index]?.filter (·.stage = .insert)
  | _ => none

variable {call : LinkCall}

section Steps

variable {before after : Linking} {label : LinkStep}

theorem inserting_some (inserts : before.inserting label = some call) :
    ∃ index now, label = .goOn index now ∧ before.calls[index]? = some call ∧
      call.stage = .insert := by
  cases label with
  | goOn index now =>
      obtain ⟨present, stage⟩ := Option.filter_eq_some_iff.mp inserts
      exact ⟨index, now, rfl, present, of_decide_eq_true stage⟩
  | link | unlink | deleteTask | writeTasks => cases inserts

/-- A step that is an insert does to the tables what the insert does. -/
theorem step_inserting (inserts : before.inserting label = some call)
    (taken : before.step label = some after) :
    ∃ index now, before.calls[index]? = some call ∧
      after = { upsertRelation now call before with
        calls := before.calls.eraseIdx index } := by
  obtain ⟨index, now, rfl, present, stage⟩ := inserting_some inserts
  rw [step, present] at taken
  cases taken
  exact ⟨index, now, present, by rw [goOn, stage]⟩

/-- A step that is not an insert adds no relation. -/
theorem relations_subset (other : before.inserting label = none)
    (taken : before.step label = some after) :
    after.relations ⊆ before.relations := by
  cases label with
  | link tenant viewer fromTask toTask kind =>
      rw [step] at taken
      split at taken <;> cases taken <;> exact List.Subset.refl _
  | goOn index now =>
      rw [step] at taken
      cases present : before.calls[index]? with
      | none =>
          rw [present] at taken
          cases taken
      | some call =>
          rw [present] at taken
          cases taken
          have notInsert : call.stage ≠ .insert := by
            simpa [inserting, present, Option.filter] using other
          unfold goOn
          split
          case h_1 stage => exact absurd stage notInsert
          case h_2 => split <;> exact List.Subset.refl _
  | unlink id tenant =>
      cases taken
      exact List.filter_subset_self _
  | deleteTask id tenant =>
      cases taken
      unfold Linking.deleteTask
      split
      · exact List.filter_subset_self _
      · exact List.Subset.refl _
  | writeTasks tasks =>
      rw [step] at taken
      split at taken
      · cases taken
        exact List.Subset.refl _
      · cases taken

/-- Every step keeps the foreign keys. -/
theorem ForeignKeys.step (keys : before.ForeignKeys)
    (taken : before.step label = some after) : after.ForeignKeys := by
  cases label with
  | link tenant viewer fromTask toTask kind =>
      rw [Linking.step] at taken
      split at taken <;> cases taken <;> exact keys
  | goOn index now =>
      rw [Linking.step] at taken
      cases present : before.calls[index]? with
      | none =>
          rw [present] at taken
          cases taken
      | some call =>
          rw [present] at taken
          cases taken
          unfold goOn
          split
          · exact keys.upsertRelation
          · split <;> exact keys
  | unlink id tenant =>
      cases taken
      intro row member
      exact keys row (List.mem_filter.mp member).1
  | deleteTask id tenant =>
      cases taken
      unfold Linking.deleteTask
      split
      · intro row member
        obtain ⟨old, ends⟩ := List.mem_filter.mp member
        simp only [ne_eq, Bool.and_eq_true, decide_eq_true_eq] at ends
        simp only [stored]
        rw [Table.find_delete, Table.find_delete, if_neg ends.1, if_neg ends.2]
        exact keys row old
      · exact keys
  | writeTasks tasks =>
      rw [Linking.step] at taken
      split at taken
      case isTrue kept =>
        cases taken
        have stays : ∀ id, before.stored id = true →
            (Table.find TaskItem.id tasks id).isSome = true := by
          intro id isStored
          obtain ⟨row, found⟩ := Option.isSome_iff_exists.mp isStored
          obtain ⟨member, rfl⟩ := Table.find_some found
          exact kept row member
        intro row member
        have ends := keys row member
        exact ⟨stays _ ends.1, stays _ ends.2⟩
      case isFalse => cases taken

end Steps

/-- What a step owes the graph: no cycle, both ends telling one story, and a
refusal only of an edge that would have closed a cycle. -/
structure LinksRight (before : Linking) (label : LinkStep) (after : Linking) :
    Prop where
  acyclic : Acyclic after.blocks
  mirrored : ∀ source target,
    (source, RelatedKind.blockedBy) ∈ relatedOf after.relations target ↔
      (target, RelatedKind.blocking) ∈ relatedOf after.relations source
  refused : ∀ index now call error, label = .goOn index now →
    before.calls[index]? = some call →
    call.check before.tasks before.relations = .error error →
      after.relations = before.relations ∧
        ∀ message, error = .conflict message →
          ¬ Acyclic fun source target => before.blocks source target ∨
            (source = call.fromTask ∧ target = call.toTask)

/-- A link is inserted while the task it blocks does not reach the blocking
one. -/
def Timely (store : Linking) (label : LinkStep) : Prop :=
  ∀ call ∈ store.inserting label, call.kind = .blocks →
    blocksReaches store.relations call.toTask call.fromTask = false

instance (store : Linking) (label : LinkStep) : Decidable (Timely store label) := by
  unfold Timely
  cases store.inserting label with
  | none => exact isTrue (fun _ member => nomatch member)
  | some call =>
      exact decidable_of_iff
        (call.kind = .blocks →
          blocksReaches store.relations call.toTask call.fromTask = false)
        (by simp only [Option.mem_some_iff, forall_eq'])

section Runs

variable {before after : Linking} {label : LinkStep}

/-- Without a cycle both ends of every edge tell one story. -/
theorem mirrored_of_acyclic {relations : List TaskRelation}
    (acyclic : Acyclic (Edge (blocksEdges relations))) (source target : TaskId) :
    (source, RelatedKind.blockedBy) ∈ relatedOf relations target ↔
      (target, RelatedKind.blocking) ∈ relatedOf relations source := by
  rw [blockedBy_iff]
  by_cases apart : target = source
  · subst apart
    constructor
    · intro loop
      exact absurd loop (acyclic.irreflexive target)
    · intro shown
      -- a row both of whose ends are the reader is shown as blocked by
      obtain ⟨row, member, side⟩ := List.mem_map.mp shown
      have ends := (List.mem_filter.mp member).2
      simp only [Bool.or_eq_true, decide_eq_true_eq] at ends
      simp only [Prod.mk.injEq] at side
      obtain ⟨other, kind⟩ := side
      cases stored : row.kind <;> simp only [relatedKind, stored] at kind
      · split at kind
        case isTrue => contradiction
        case isFalse notReader =>
          rw [if_pos (ends.resolve_right notReader)] at other
          exact absurd other notReader
      · contradiction
      · contradiction
  · exact (blocking_iff apart).symm

/-- A call that is refused leaves the relations as they are, and is refused for
a cycle only where its edge would have closed one. -/
theorem refused_of_step {index : Nat} {now : Instant}
    {error : LinkError} (present : before.calls[index]? = some call)
    (refused : call.check before.tasks before.relations = .error error)
    (taken : before.step (.goOn index now) = some after) :
    after.relations = before.relations ∧
      ∀ message, error = .conflict message →
        ¬ Acyclic fun source target => before.blocks source target ∨
          (source = call.fromTask ∧ target = call.toTask) := by
  rw [step, present] at taken
  cases taken
  cases stage : call.stage with
  | insert => simp [LinkCall.check, stage] at refused
  | readFrom | readTo =>
      constructor
      · simp [goOn, stage, refused]
      · rintro message rfl
        simp only [LinkCall.check, stage] at refused
        split at refused <;> cases refused
  | checkCycle =>
      constructor
      · simp [goOn, stage, refused]
      · rintro message rfl acyclic
        simp only [LinkCall.check, stage] at refused
        split at refused
        case isTrue reaches =>
          exact (acyclic_or_iff.mp acyclic).2
            (blocksReaches_iff.mp reaches).to_reflTransGen
        case isFalse => cases refused

/-- From a graph without a cycle, a step does right by it exactly when it is
timely. -/
theorem linksRight_iff (keys : before.ForeignKeys) (acyclic : Acyclic before.blocks)
    (taken : before.step label = some after) :
    LinksRight before label after ↔ Timely before label := by
  have right : Acyclic after.blocks → LinksRight before label after :=
    fun stays => ⟨stays, mirrored_of_acyclic stays,
      fun index now call error isStep present refused => by
        subst isStep
        exact refused_of_step present refused taken⟩
  cases inserts : before.inserting label with
  | none =>
      have stays : Acyclic after.blocks :=
        acyclic.mono (edge_of_subset (relations_subset inserts taken))
      exact ⟨fun _ => by simp [Timely, inserts], fun _ => right stays⟩
  | some call =>
      obtain ⟨index, now, _, rfl⟩ := step_inserting inserts taken
      have exactly : Acyclic (upsertRelation now call before).blocks ↔ _ :=
        acyclic_upsertRelation_iff keys acyclic
      simp only [Timely, inserts, Option.mem_some_iff, forall_eq']
      exact ⟨fun links => exactly.mp links.acyclic,
        fun timely => right (exactly.mpr timely)⟩

/-- In a run from a graph without a cycle, every step keeps the graph without a
cycle and refuses only what would close one exactly when every insert comes
while the task it blocks does not reach the blocking one. -/
theorem blocks_acyclic_iff {start : Linking} {steps : List LinkStep}
    (keys : start.ForeignKeys) (acyclic : Acyclic start.blocks) :
    Along step LinksRight start steps ↔
      Along step (fun before label _ => Timely before label) start steps := by
  apply along_iff_of_invariant
    (fun store => store.ForeignKeys ∧ Acyclic store.blocks)
  · rintro before label after ⟨keys, _⟩ taken links
    exact ⟨keys.step taken, links.acyclic⟩
  · rintro before label after ⟨keys, acyclic⟩ taken
    exact linksRight_iff keys acyclic taken
  · exact ⟨keys, acyclic⟩

/-- No other `blocks` link stands between its check and its insert. -/
def Alone (store : Linking) (label : LinkStep) : Prop :=
  ∀ index now call, label = .goOn index now → store.calls[index]? = some call →
    call.stage = .insert → call.kind = .blocks →
      ∀ other ∈ store.calls.eraseIdx index,
        ¬ (other.stage = .insert ∧ other.kind = .blocks)

/-- Every `blocks` link that has passed its check still would. -/
def Fresh (store : Linking) : Prop :=
  ∀ call ∈ store.calls, call.stage = .insert → call.kind = .blocks →
    blocksReaches store.relations call.toTask call.fromTask = false

/-- With fewer relations a check that passed still passes. -/
theorem Fresh.of_subset (fresh : before.Fresh) (fewer : after.relations ⊆ before.relations)
    (member : call ∈ before.calls) (stage : call.stage = .insert) (kind : call.kind = .blocks) :
    blocksReaches after.relations call.toTask call.fromTask = false := by
  have passed := fresh call member stage kind
  rw [← Bool.not_eq_true, blocksReaches_iff] at passed ⊢
  intro back
  exact passed (Relation.TransGen.mono (edge_of_subset fewer) _ _ back)

/-- A `blocks` link reaches its insert by the check of the graph. -/
theorem check_to_insert {tasks : List TaskItem} {relations : List TaskRelation}
    {call next : LinkCall} (checked : call.check tasks relations = .ok next)
    (earlier : call.stage ≠ .insert) (stage : next.stage = .insert) (kind : next.kind = .blocks) :
    blocksReaches relations next.toTask next.fromTask = false := by
  cases stageBefore : call.stage with
  | insert => exact absurd stageBefore earlier
  | readFrom =>
      simp only [LinkCall.check, stageBefore] at checked
      split at checked <;> cases checked
      cases stage
  | readTo =>
      simp only [LinkCall.check, stageBefore] at checked
      split at checked <;> cases checked
      simp only at kind
      simp [kind] at stage
  | checkCycle =>
      simp only [LinkCall.check, stageBefore] at checked
      split at checked
      case isTrue => cases checked
      case isFalse noWayBack =>
        cases checked
        simpa using noWayBack

/-- An insert that no other `blocks` link awaits keeps the others' checks
fresh. -/
theorem Fresh.insert (fresh : before.Fresh) {index : Nat} {now : Instant}
    (alone : call.kind = .blocks → ∀ other ∈ before.calls.eraseIdx index,
      ¬ (other.stage = .insert ∧ other.kind = .blocks)) :
    Fresh { upsertRelation now call before with
      calls := before.calls.eraseIdx index } := by
  intro other stays stage kind
  have passed := fresh other (List.mem_of_mem_eraseIdx stays) stage kind
  by_cases isBlocks : call.kind = .blocks
  · exact absurd ⟨stage, kind⟩ (alone isBlocks other stays)
  · -- the row is of another kind and draws no edge
    rw [← Bool.not_eq_true, blocksReaches_iff] at passed ⊢
    have included : Edge (blocksEdges (upsertRelation now call before).relations) ≤
        Edge (blocksEdges before.relations) := by
      intro source target edge
      rcases @upsertRelation_relations before call now with
        ⟨same, _⟩ | ⟨_, _, _, row, _, _, kindRow, appended⟩
      · rwa [same] at edge
      · rw [appended, edge_append, kindRow] at edge
        exact edge.resolve_right fun new => isBlocks new.1
    intro back
    exact passed (Relation.TransGen.mono included _ _ back)

/-- A check keeps the others fresh, and leaves its own call fresh. -/
theorem Fresh.goOn (fresh : before.Fresh) {index : Nat} {now : Instant}
    (notInsert : call.stage ≠ .insert) :
    (before.goOn index now call).Fresh := by
  intro other member stage kind
  unfold Linking.goOn at member ⊢
  split at member
  case h_1 isInsert => exact absurd isInsert notInsert
  case h_2 =>
    split at member
    case h_1 => exact fresh other (List.mem_of_mem_eraseIdx member) stage kind
    case h_2 next checked =>
      rcases List.mem_or_eq_of_mem_set member with old | rfl
      · exact fresh other old stage kind
      · exact check_to_insert checked notInsert stage kind

/-- A new call is at its first query. -/
theorem start_stage {tenant : TenantId} {viewer : UserId} {fromTask toTask : TaskId} {kind : String}
    (started : LinkCall.start tenant viewer fromTask toTask kind = .ok call) :
    call.stage = .readFrom := by
  unfold LinkCall.start at started
  split at started
  · cases started
  · split at started <;> cases started
    rfl

/-- While `blocks` links are alone with their inserts, their checks stay
fresh. -/
theorem Fresh.step (fresh : before.Fresh) (taken : before.step label = some after)
    (alone : Alone before label) : after.Fresh := by
  cases label with
  | link tenant viewer fromTask toTask kind =>
      rw [Linking.step] at taken
      split at taken
      case h_1 =>
        cases taken
        exact fresh
      case h_2 started starts =>
        cases taken
        intro call member stage
        rcases List.mem_append.mp member with old | new
        · exact fresh call old stage
        · rw [List.mem_singleton.mp new, start_stage starts] at stage
          cases stage
  | goOn index now =>
      rw [Linking.step] at taken
      cases present : before.calls[index]? with
      | none =>
          rw [present] at taken
          cases taken
      | some call =>
          rw [present] at taken
          cases taken
          by_cases stage : call.stage = .insert
          · rw [Linking.goOn, stage]
            exact fresh.insert (alone index now call rfl present stage)
          · exact fresh.goOn stage
  | unlink id tenant =>
      cases taken
      exact fun call member => fresh.of_subset (List.filter_subset_self _) member
  | deleteTask id tenant =>
      have notInsert : before.inserting (.deleteTask id tenant) = none := rfl
      have fewer := relations_subset notInsert taken
      cases taken
      intro call member
      apply fresh.of_subset fewer
      unfold Linking.deleteTask at member
      split at member <;> exact member
  | writeTasks tasks =>
      rw [Linking.step] at taken
      split at taken <;> cases taken
      exact fresh

/-- One link after the other is timely: while no two `blocks` links stand
between check and insert at once, no insert closes a cycle. -/
theorem timely_of_alone {start : Linking} {steps : List LinkStep} (idle : start.calls = [])
    (alone : Along step (fun before label _ => Alone before label) start steps) :
    Along step (fun before label _ => Timely before label) start steps := by
  apply alone.of_invariant Fresh
  · intro before label after fresh taken alone
    exact fresh.step taken alone
  · intro before label after fresh taken alone call inserts kind
    obtain ⟨index, now, _, present, stage⟩ := inserting_some inserts
    exact fresh call (List.mem_of_getElem? present) stage kind
  · intro call member
    rw [idle] at member
    cases member

/-- Two cards of one tenant that everyone there sees, and no relation. -/
def twoTasks : Linking :=
  let new : NewTask :=
    { tenant := 1, board := 1, columnId := 1, title := "card", createdBy := some 7 }
  { tasks := [Repo.createTask 0 1 1 new, Repo.createTask 0 2 2 new]
    relations := [], nextId := 0, calls := [] }

/-- Two opposite links, each of which checks before either inserts. -/
def oppositeLinks : List LinkStep :=
  [.link 1 7 1 2 "blocks", .link 1 7 2 1 "blocks",
    .goOn 0 0, .goOn 0 0, .goOn 0 0, .goOn 1 0, .goOn 1 0, .goOn 1 0,
    .goOn 0 1, .goOn 0 2]

/-- The two cards then block each other. -/
theorem opposite_links_close_cycle :
    ∃ final, run step twoTasks oppositeLinks = some final ∧
      final.blocks 1 2 ∧ final.blocks 2 1 ∧ ¬ Acyclic final.blocks := by
  have ran : (run step twoTasks oppositeLinks).isSome = true := by decide
  obtain ⟨final, reached⟩ := Option.isSome_iff_exists.mp ran
  have both : ∀ store ∈ run step twoTasks oppositeLinks,
      store.blocks 1 2 ∧ store.blocks 2 1 := by decide
  obtain ⟨there, back⟩ := both final reached
  refine ⟨final, reached, there, back, fun acyclic => acyclic 1 ?_⟩
  exact .tail (.single there) back

/-- The same links one after the other: the second is refused. -/
theorem blocks_acyclic_iff_in_turn :
    Along step LinksRight twoTasks
      [.link 1 7 1 2 "blocks", .goOn 0 0, .goOn 0 0, .goOn 0 0, .goOn 0 1,
        .link 1 7 2 1 "blocks", .goOn 0 2, .goOn 0 2, .goOn 0 2] :=
  (blocks_acyclic_iff (fun _ member => absurd member (List.not_mem_nil))
    (fun _ cycle =>
      let ⟨_, edge, _⟩ := Relation.TransGen.head'_iff.mp cycle
      absurd edge (List.not_mem_nil))).mpr (by decide)

end Runs

end Linking

end NookOs.Tasks
