/-
Module: NookOs.Tasks.MergeReconcile
Purpose: The merge reconciler's passes on any number of replicas beside the people who
  edit and label the cards, and what every merged pull request does to its card.
Trusted boundary: none
Main exports: Todo, Stage, Phase, Reconciliation, Undisturbed, merges_close_once
-/
import NookOs.Jobs.PullUrl
import NookOs.Lib.Run
import NookOs.Tasks.Task

namespace NookOs.Tasks

open Lib
open Jobs (Instant TenantId TaskId WorkspaceId prNumber prWebUrl closesKey)

/-- How a pull request stands on the forge. -/
inductive MergeState where
  | «open»
  | merged
  | closedUnmerged
deriving DecidableEq

/-- One merged pull request of the forge's listing. -/
structure MergedPr where
  number : Nat
  body : String
deriving DecidableEq

/-- What a pass is about. -/
structure Scope where
  tenant : TenantId
  workspace : WorkspaceId
  repo : Jobs.Repo
deriving DecidableEq

/-- What a comment says of a pull request.  A merge names the move it is about by its place
among all moves. -/
inductive Outcome where
  | merged (move : Nat)
  | closedUnmerged
deriving DecidableEq

def Outcome.move : Outcome → Option Nat
  | .merged move => some move
  | .closedUnmerged => none

/-- A comment of the reconciler. -/
structure ReconcileComment where
  task : TaskId
  prUrl : String
  outcome : Outcome
deriving DecidableEq

/-- The move a comment is about. -/
def ReconcileComment.place (comment : ReconcileComment) : Option Nat := comment.outcome.move

/-- A card that a pass moved, and the pull request it moved it for. -/
structure Move where
  task : TaskId
  repo : Jobs.Repo
  prUrl : String
deriving DecidableEq

def Move.number (move : Move) : Option Nat := prNumber move.prUrl

/-- The card and the pull request. -/
def Move.pull (move : Move) : TaskId × Jobs.Repo × Option Nat :=
  (move.task, move.repo, move.number)

/-- What a pass still has to act on: a card with its recorded pull request as the forge
answered, or a merged pull request of the listing. -/
inductive Todo where
  | recorded (task : TaskId) (prUrl : String) (state : MergeState)
  | closes (pr : MergedPr)
deriving DecidableEq

/-- Where a pass is between two repository calls of its writing half. -/
inductive Stage where
  | ready
  | completing (task : TaskId) (prUrl : String)
  | checked (task : TaskId) (prUrl : String)
  | located (task : TaskId) (prUrl : String) (column : ColumnId)
  | announcing (task : TaskId) (prUrl : String) (outcome : Outcome)
deriving DecidableEq

/-- Where a pass is: it reads first, then it writes. -/
inductive Phase where
  | idle
  | reading (scope : Scope) (pending : List (TaskId × String)) (recorded : List Todo)
  | writing (scope : Scope) (todo : List Todo) (stage : Stage)
  | concluded (scope : Scope) (finished : Bool)
deriving DecidableEq

/-- The board, the labels `needs-human-review`, the reconciler's comments, what has merged
on the forge, and every pass.  `moves`, `writers` and `backfilled` record what the passes
did: each move, each write, and each URL that was filled in. -/
structure Reconciliation (PassId : Type) where
  tasks : List TaskItem
  labelled : List TaskId
  comments : List ReconcileComment
  merged : List (Jobs.Repo × Nat)
  passes : PassId → Phase
  moves : List Move
  writers : List PassId
  backfilled : List (TaskId × Jobs.Repo × Nat)

/-- A step: of people, of the forge, or the next call of a pass.  `closed` is whether an
unmerged pull request is closed, `posts` whether the comment is stored. -/
inductive ReconcileStep (PassId : Type) where
  | create (row : TaskItem)
  | edit (row : TaskItem)
  | delete (task : TaskId)
  | label (task : TaskId)
  | unlabel (task : TaskId)
  | merge (repo : Jobs.Repo) (number : Nat)
  | begin (pass : PassId) (scope : Scope)
  | ask (pass : PassId) (closed : Bool)
  | list (pass : PassId) (prs : List MergedPr)
  | stop (pass : PassId)
  | advance (pass : PassId) (now : Instant) (posts : Bool)
deriving DecidableEq

/-- Record a URL on a card in flight that has none. -/
def Repo.backfillPrUrl (columns : List BoardColumn) (now : Instant) (url : String)
    (task : TaskItem) : Option TaskItem :=
  if task.prUrl = none ∧ task.archivedAt = none ∧ Repo.inFlight columns task then
    some { task with prUrl := some url, updatedAt := now }
  else none

/-- The cards of a workspace in flight with their recorded pull requests. -/
def inFlightTasksWithPr (columns : List BoardColumn) (tenant : TenantId)
    (workspace : WorkspaceId) (tasks : List TaskItem) : List (TaskId × String) :=
  tasks.filterMap fun task =>
    if task.tenantId = tenant ∧ task.workspaceId = some workspace ∧ task.archivedAt = none ∧
        Repo.inFlight columns task then
      task.prUrl.map fun url => (task.id, url)
    else none

variable {prUrl : String} {task : TaskId}

theorem mem_inFlightTasksWithPr_iff {columns : List BoardColumn} {tenant : TenantId}
    {workspace : WorkspaceId} {tasks : List TaskItem} :
    (task, prUrl) ∈ inFlightTasksWithPr columns tenant workspace tasks ↔
      ∃ row ∈ tasks, row.id = task ∧ row.prUrl = some prUrl ∧ row.tenantId = tenant ∧
        row.workspaceId = some workspace ∧ row.archivedAt = none ∧
          Repo.inFlight columns row = true := by
  rw [inFlightTasksWithPr, List.mem_filterMap]
  constructor
  · rintro ⟨row, member, found⟩
    split at found
    case isFalse => cases found
    case isTrue offered =>
      obtain ⟨url, isUrl, same⟩ := Option.map_eq_some_iff.mp found
      cases same
      exact ⟨row, member, rfl, isUrl, offered⟩
  · rintro ⟨row, member, rfl, isUrl, offered⟩
    refine ⟨row, member, ?_⟩
    rw [if_pos offered, isUrl]
    rfl

variable {phase : Phase}

namespace Reconciliation

variable {PassId : Type} [DecidableEq PassId]

def enter (pass : PassId) (phase : Phase) (store : Reconciliation PassId) :
    Reconciliation PassId :=
  { store with passes := Function.update store.passes pass phase }

theorem passes_enter_self {pass : PassId} {store : Reconciliation PassId} :
    (store.enter pass phase).passes pass = phase :=
  Function.update_self ..

theorem passes_enter_of_ne {pass other : PassId}
    {store : Reconciliation PassId} (differs : other ≠ pass) :
    (store.enter pass phase).passes other = store.passes other :=
  Function.update_of_ne differs ..

/-- A pass has written. -/
def wrote (pass : PassId) (store : Reconciliation PassId) : Reconciliation PassId :=
  { store with writers := store.writers ++ [pass] }

def setRow (row : TaskItem) (store : Reconciliation PassId) : Reconciliation PassId :=
  { store with tasks := Table.update TaskItem.id row.id (fun _ => row) store.tasks }

def attachLabel (task : TaskId) (store : Reconciliation PassId) : Reconciliation PassId :=
  { store with labelled := store.labelled ++ [task] }

def record (move : Move) (store : Reconciliation PassId) : Reconciliation PassId :=
  { store with moves := store.moves ++ [move] }

def say (comment : ReconcileComment) (store : Reconciliation PassId) :
    Reconciliation PassId :=
  { store with comments := store.comments ++ [comment] }

def fillIn (task : TaskId) (repo : Jobs.Repo) (number : Nat)
    (store : Reconciliation PassId) : Reconciliation PassId :=
  { store with backfilled := store.backfilled ++ [(task, repo, number)] }

section Writing

variable (columns : List BoardColumn)
  (resolveId : List TaskItem → TenantId → String → Option TaskId) (now : Instant)
  (pass : PassId) (scope : Scope) (todo : List Todo)

/-- `escalate` as far as the label, whose insert fails for a card that is gone. -/
def escalate (task : TaskId) (prUrl : String) (store : Reconciliation PassId) :
    Reconciliation PassId :=
  if task ∈ store.labelled then store.enter pass (.writing scope todo .ready)
  else if (getRow store.tasks scope.tenant task).isSome then
    ((store.attachLabel task).wrote pass).enter pass
      (.writing scope todo (.announcing task prUrl .closedUnmerged))
  else store.enter pass (.concluded scope false)

/-- The second join: the card the body closes is given the URL where it has none. -/
def backfill (pr : MergedPr) (store : Reconciliation PassId) : Reconciliation PassId :=
  let url := prWebUrl scope.repo pr.number
  let card := do
    let key ← closesKey pr.body
    let task ← resolveId store.tasks scope.tenant key
    let row ← getRow store.tasks scope.tenant task
    Repo.backfillPrUrl columns now url row
  match card with
  | none => store.enter pass (.writing scope todo .ready)
  | some row =>
      (((store.setRow row).fillIn row.id scope.repo pr.number).wrote pass).enter pass
        (.writing scope todo (.completing row.id url))

/-- The next card or pull request. -/
def takeUp (item : Todo) (store : Reconciliation PassId) : Reconciliation PassId :=
  match item with
  | .recorded task prUrl state =>
      match state with
      | .open => store.enter pass (.writing scope todo .ready)
      | .merged => store.enter pass (.writing scope todo (.completing task prUrl))
      | .closedUnmerged => store.escalate pass scope todo task prUrl
  | .closes pr => store.backfill columns resolveId now pass scope todo pr

/-- The label check of `complete`. -/
def check (task : TaskId) (prUrl : String) (store : Reconciliation PassId) :
    Reconciliation PassId :=
  store.enter pass
    (.writing scope todo (if task ∈ store.labelled then .ready else .checked task prUrl))

/-- `complete_in_flight_card` as far as the destination. -/
def locate (task : TaskId) (prUrl : String) (store : Reconciliation PassId) :
    Reconciliation PassId :=
  match getRow store.tasks scope.tenant task with
  | none => store.enter pass (.concluded scope false)
  | some row =>
      match columnOfType columns row.boardId .completed with
      | none => store.enter pass (.writing scope todo .ready)
      | some column => store.enter pass (.writing scope todo (.located task prUrl column))

/-- The guarded move. -/
def complete (task : TaskId) (prUrl : String) (column : ColumnId)
    (store : Reconciliation PassId) : Reconciliation PassId :=
  match (getRow store.tasks scope.tenant task).bind
      (Repo.completeIfInFlight columns now column) with
  | none => store.enter pass (.writing scope todo .ready)
  | some row =>
      (((store.setRow row).record ⟨task, scope.repo, prUrl⟩).wrote pass).enter pass
        (.writing scope todo (.announcing task prUrl (.merged store.moves.length)))

/-- The comment of `announce`, whose failure nobody sees. -/
def announce (posts : Bool) (task : TaskId) (prUrl : String) (outcome : Outcome)
    (store : Reconciliation PassId) : Reconciliation PassId :=
  if posts then
    ((store.say ⟨task, prUrl, outcome⟩).wrote pass).enter pass (.writing scope todo .ready)
  else store.enter pass (.writing scope todo .ready)

/-- The next call of a pass that writes. -/
def goOn (posts : Bool) (stage : Stage) (store : Reconciliation PassId) :
    Reconciliation PassId :=
  match stage with
  | .ready =>
      match todo with
      | [] => store.enter pass (.concluded scope true)
      | item :: rest => store.takeUp columns resolveId now pass scope rest item
  | .completing task prUrl => store.check pass scope todo task prUrl
  | .checked task prUrl => store.locate columns pass scope todo task prUrl
  | .located task prUrl column => store.complete columns now pass scope todo task prUrl column
  | .announcing task prUrl outcome => store.announce pass scope todo posts task prUrl outcome

end Writing

/-- The forge's answer for a pull request. -/
def mergeState (repo : Jobs.Repo) (number : Nat) (closed : Bool)
    (store : Reconciliation PassId) : MergeState :=
  if (repo, number) ∈ store.merged then .merged
  else if closed then .closedUnmerged
  else .open

variable (columns : List BoardColumn)
  (resolveId : List TaskItem → TenantId → String → Option TaskId)

/-- A pull request that merged stays merged, and the listing holds merged ones only.  Card
ids are never used twice. -/
def step (store : Reconciliation PassId) :
    ReconcileStep PassId → Option (Reconciliation PassId)
  | .create row =>
      if Table.find TaskItem.id store.tasks row.id = none ∧
          ∀ move ∈ store.moves, move.task ≠ row.id then
        some { store with tasks := store.tasks ++ [row] }
      else none
  | .edit row =>
      if (getRow store.tasks row.tenantId row.id).isSome then some (store.setRow row) else none
  | .delete task =>
      some
        { store with
          tasks := Table.delete TaskItem.id task store.tasks
          labelled := store.labelled.filter (· ≠ task) }
  | .label task => some (store.attachLabel task)
  | .unlabel task => some { store with labelled := store.labelled.filter (· ≠ task) }
  | .merge repo number => some { store with merged := store.merged ++ [(repo, number)] }
  | .begin pass scope =>
      match store.passes pass with
      | .idle =>
          some (store.enter pass (.reading scope
            (inFlightTasksWithPr columns scope.tenant scope.workspace store.tasks) []))
      | _ => none
  | .ask pass closed =>
      match store.passes pass with
      | .reading scope ((task, prUrl) :: pending) recorded =>
          match prNumber prUrl with
          | none => some (store.enter pass (.reading scope pending recorded))
          | some number =>
              let item := .recorded task prUrl (store.mergeState scope.repo number closed)
              some (store.enter pass (.reading scope pending (recorded ++ [item])))
      | _ => none
  | .list pass prs =>
      match store.passes pass with
      | .reading scope [] recorded =>
          if ∀ pr ∈ prs, (scope.repo, pr.number) ∈ store.merged ∧ pr.number < 2 ^ 64 then
            some (store.enter pass
              (.writing scope (recorded ++ prs.map .closes) .ready))
          else none
      | _ => none
  | .stop pass =>
      match store.passes pass with
      | .reading scope _ _ | .writing scope _ _ => some (store.enter pass (.concluded scope false))
      | _ => none
  | .advance pass now posts =>
      match store.passes pass with
      | .writing scope todo stage =>
          some (store.goOn columns resolveId now pass scope todo posts stage)
      | _ => none

/-- What a step found, and what it did. -/
inductive Steps (store : Reconciliation PassId) :
    ReconcileStep PassId → Reconciliation PassId → Prop where
  | create {row : TaskItem} (unused : Table.find TaskItem.id store.tasks row.id = none)
      (unmoved : ∀ move ∈ store.moves, move.task ≠ row.id) :
      Steps store (.create row) { store with tasks := store.tasks ++ [row] }
  | edit {row : TaskItem} : Steps store (.edit row) (store.setRow row)
  | delete {task : TaskId} :
      Steps store (.delete task)
        { store with
          tasks := Table.delete TaskItem.id task store.tasks
          labelled := store.labelled.filter (· ≠ task) }
  | label {task : TaskId} : Steps store (.label task) (store.attachLabel task)
  | unlabel {task : TaskId} :
      Steps store (.unlabel task) { store with labelled := store.labelled.filter (· ≠ task) }
  | merge {repo : Jobs.Repo} {number : Nat} :
      Steps store (.merge repo number) { store with merged := store.merged ++ [(repo, number)] }
  | begin {pass : PassId} {scope : Scope} (isIdle : store.passes pass = .idle) :
      Steps store (.begin pass scope) (store.enter pass (.reading scope
        (inFlightTasksWithPr columns scope.tenant scope.workspace store.tasks) []))
  | skip {pass : PassId} {closed : Bool} {scope : Scope} {task : TaskId} {prUrl : String}
      {pending : List (TaskId × String)} {recorded : List Todo}
      (here : store.passes pass = .reading scope ((task, prUrl) :: pending) recorded)
      (unread : prNumber prUrl = none) :
      Steps store (.ask pass closed) (store.enter pass (.reading scope pending recorded))
  | ask {pass : PassId} {closed : Bool} {scope : Scope} {task : TaskId} {prUrl : String}
      {pending : List (TaskId × String)} {recorded : List Todo} {number : Nat}
      (here : store.passes pass = .reading scope ((task, prUrl) :: pending) recorded)
      (isNumber : prNumber prUrl = some number) :
      Steps store (.ask pass closed) (store.enter pass (.reading scope pending
        (recorded ++
          [.recorded task prUrl (store.mergeState scope.repo number closed)])))
  | list {pass : PassId} {prs : List MergedPr} {scope : Scope} {recorded : List Todo}
      (here : store.passes pass = .reading scope [] recorded)
      (merged : ∀ pr ∈ prs, (scope.repo, pr.number) ∈ store.merged ∧ pr.number < 2 ^ 64) :
      Steps store (.list pass prs)
        (store.enter pass (.writing scope (recorded ++ prs.map .closes) .ready))
  | stop {pass : PassId} {scope : Scope} :
      Steps store (.stop pass) (store.enter pass (.concluded scope false))
  | advance {pass : PassId} {now : Instant} {posts : Bool} {scope : Scope} {todo : List Todo}
      {stage : Stage} (here : store.passes pass = .writing scope todo stage) :
      Steps store (.advance pass now posts)
        (store.goOn columns resolveId now pass scope todo posts stage)

theorem step_cases {store after : Reconciliation PassId} {label : ReconcileStep PassId}
    (stepped : store.step columns resolveId label = some after) :
    Steps columns resolveId store label after := by
  cases label with
  | create row =>
      rw [step] at stepped
      split at stepped
      case isFalse => cases stepped
      case isTrue fresh =>
        cases stepped
        exact .create fresh.1 fresh.2
  | edit row =>
      rw [step] at stepped
      split at stepped
      case isFalse => cases stepped
      case isTrue =>
        cases stepped
        exact .edit
  | delete task =>
      cases stepped
      exact .delete
  | label task =>
      cases stepped
      exact .label
  | unlabel task =>
      cases stepped
      exact .unlabel
  | merge repo number =>
      cases stepped
      exact .merge
  | begin pass scope =>
      rw [step] at stepped
      split at stepped
      case h_2 => cases stepped
      case h_1 isIdle =>
        cases stepped
        exact .begin isIdle
  | ask pass closed =>
      rw [step] at stepped
      split at stepped
      case h_2 => cases stepped
      case h_1 here =>
        split at stepped
        case h_1 unread =>
          cases stepped
          exact .skip here unread
        case h_2 isNumber =>
          cases stepped
          exact .ask here isNumber
  | list pass prs =>
      rw [step] at stepped
      split at stepped
      case h_2 => cases stepped
      case h_1 here =>
        split at stepped
        case isFalse => cases stepped
        case isTrue merged =>
          cases stepped
          exact .list here merged
  | stop pass =>
      rw [step] at stepped
      split at stepped
      · cases stepped
        exact .stop
      · cases stepped
        exact .stop
      · cases stepped
  | advance pass now posts =>
      rw [step] at stepped
      split at stepped
      case h_2 => cases stepped
      case h_1 here =>
        cases stepped
        exact .advance here

/-- The board before the first pass. -/
def start (tasks : List TaskItem) : Reconciliation PassId where
  tasks := tasks
  labelled := []
  comments := []
  merged := []
  passes := fun _ => .idle
  moves := []
  writers := []
  backfilled := []

/-- What every step keeps: a merged pull request has moved its card at most once, each move
has at most one comment and each comment of a merge a move it is about, a card that carries
the label is not moved, and a pass that stops while it reads has written nothing. -/
structure MergesRight (before : Reconciliation PassId) (label : ReconcileStep PassId)
    (after : Reconciliation PassId) : Prop where
  once : (after.moves.map Move.pull).Nodup
  commentOnce : (after.comments.filterMap ReconcileComment.place).Nodup
  announced : ∀ comment ∈ after.comments, ∀ place ∈ comment.place,
    ∃ move, after.moves[place]? = some move ∧ move.task = comment.task ∧
      move.prUrl = comment.prUrl
  unlabelled : after.moves = before.moves ∨
    ∃ move, after.moves = before.moves ++ [move] ∧ move.task ∉ before.labelled
  held : ∀ pass, label = .stop pass → (∃ scope pending recorded,
    before.passes pass = .reading scope pending recorded) →
      pass ∉ before.writers ∧ after = before.enter pass (after.passes pass)

/-- A card in flight in a workspace of the repository that records the pull request, on a
board with a completed column. -/
structure RowWaits (columns : List BoardColumn) (scope : Scope) (number : Nat)
    (row : TaskItem) : Prop where
  tenant : row.tenantId = scope.tenant
  workspace : row.workspaceId = some scope.workspace
  prUrl : row.prUrl = some (prWebUrl scope.repo number)
  unarchived : row.archivedAt = none
  inFlight : Repo.inFlight columns row = true
  completable : (columnOfType columns row.boardId .completed).isSome = true

/-- People leave the card in flight, with the pull request and the workspace it has, and
without the label. -/
def LeftAlone (columns : List BoardColumn) (scope : Scope) (number : Nat) (task : TaskId)
    (label : ReconcileStep PassId) (after : Reconciliation PassId) : Prop :=
  task ∉ after.labelled ∧
    match label with
    | .edit row => row.id = task → RowWaits columns scope number row
    | .delete other => other ≠ task
    | _ => True

/-- A later pass over the card's workspace that comes to its end finds the card moved, as
long as people leave it alone. -/
def CompletedLater (columns : List BoardColumn)
    (resolveId : List TaskItem → TenantId → String → Option TaskId)
    (condition : Reconciliation PassId → ReconcileStep PassId → Prop)
    (store : Reconciliation PassId) (task : TaskId) (repo : Jobs.Repo) (number : Nat) : Prop :=
  ∀ (scope : Scope) (row : TaskItem) (pass : PassId) (labels : List (ReconcileStep PassId))
    (final : Reconciliation PassId), scope.repo = repo → row ∈ store.tasks → row.id = task →
      RowWaits columns scope number row → task ∉ store.labelled →
      store.passes pass = .idle →
      Along (step columns resolveId) (fun before label after =>
        condition before label ∧ LeftAlone columns scope number task label after) store labels →
      run (step columns resolveId) store labels = some final →
      final.passes pass = .concluded scope true →
      store.moves.countP (·.task = task) < final.moves.countP (·.task = task)

end Reconciliation

/-- The cards and numbers that an item still leads to. -/
def Todo.holds : Todo → List (TaskId × Option Nat)
  | .recorded task prUrl _ => [(task, prNumber prUrl)]
  | .closes _ => []

def Stage.holds : Stage → List (TaskId × Option Nat)
  | .ready | .announcing _ _ _ => []
  | .completing task prUrl | .checked task prUrl | .located task prUrl _ =>
      [(task, prNumber prUrl)]

/-- The cards and numbers that a pass may yet move. -/
def Phase.holds : Phase → List (TaskId × Option Nat)
  | .idle | .concluded _ _ => []
  | .reading _ pending recorded =>
      (pending.map fun (task, prUrl) => (task, prNumber prUrl)) ++
        recorded.flatMap Todo.holds
  | .writing _ todo stage => todo.flatMap Todo.holds ++ stage.holds

/-- The card whose label a pass has checked and that it has not yet moved. -/
def Phase.decided : Phase → Option TaskId
  | .writing _ _ (.checked task _) | .writing _ _ (.located task _ _) => some task
  | _ => none

/-- The card that a pass is about to label. -/
def Phase.escalates : Phase → Option TaskId
  | .writing _ (.recorded task _ .closedUnmerged :: _) .ready => some task
  | _ => none

def Phase.destination : Phase → Option ColumnId
  | .writing _ _ (.located _ _ column) => some column
  | _ => none

/-- The move that a pass is about to announce. -/
def Phase.announces : Phase → Option (TaskId × String × Nat)
  | .writing _ _ (.announcing task prUrl (.merged place)) => some (task, prUrl, place)
  | _ => none

/-- The pass has not begun to write. -/
def Phase.reads : Phase → Bool
  | .idle | .reading _ _ _ => true
  | .writing _ _ _ | .concluded _ _ => false

/-- The listed pull request of an item. -/
def Todo.listed (repo : Jobs.Repo) : Todo → Option (Jobs.Repo × Nat)
  | .closes pr => some (repo, pr.number)
  | .recorded _ _ _ => none

/-- The listed pull requests that a pass has not yet taken up. -/
def Phase.listed : Phase → List (Jobs.Repo × Nat)
  | .reading scope _ todo | .writing scope todo _ => todo.filterMap (Todo.listed scope.repo)
  | .idle | .concluded _ _ => []

/-- The stage is about the card. -/
def Stage.about (task : TaskId) (prUrl : String) (stage : Stage) : Prop :=
  stage = .completing task prUrl ∨ stage = .checked task prUrl ∨
    ∃ column, stage = .located task prUrl column

/-- A pass about the scope has not passed the card by. -/
def Phase.leads (scope : Scope) (task : TaskId) (prUrl : String) : Phase → Prop
  | .idle => True
  | .reading other pending recorded => other = scope →
      (task, prUrl) ∈ pending ∨ .recorded task prUrl .merged ∈ recorded
  | .writing other todo stage => other = scope →
      .recorded task prUrl .merged ∈ todo ∨ stage.about task prUrl
  | .concluded other finished => other = scope → finished = false

def Phase.scope : Phase → Option Scope
  | .idle => none
  | .reading scope _ _ | .writing scope _ _ | .concluded scope _ => some scope

/-- A pass about another workspace does not matter. -/
theorem Phase.leads_of_ne {about scope : Scope} (isAbout : phase.scope = some about)
    (differs : about ≠ scope) :
    phase.leads scope task prUrl := by
  cases phase with
  | idle => cases isAbout
  | reading | writing | concluded =>
      cases isAbout
      exact fun same => absurd same differs

/-- No statement of a pass touches the card. -/
def atRest (columns : List BoardColumn) (row : TaskItem) : Prop :=
  row.archivedAt ≠ none ∨ Repo.inFlight columns row = false

namespace Reconciliation

variable {PassId : Type} [DecidableEq PassId] (columns : List BoardColumn)

/-- A card may be in flight after a merge has moved it only with another pull request
recorded, and while no pass still holds the one it was moved for. -/
def MayStay (store : Reconciliation PassId) (row : TaskItem) : Prop :=
  atRest columns row ∨
    ∀ move ∈ store.moves, move.task = row.id →
      (∃ url ∈ row.prUrl, prNumber url ≠ move.number) ∧
        ∀ pass, (row.id, move.number) ∉ (store.passes pass).holds

/-- The label is not attached to a card between a pass's check and its move. -/
def MayLabel (store : Reconciliation PassId) (task : TaskId) : Prop :=
  ∀ pass, (store.passes pass).decided ≠ some task

/-- The condition on the state before a step: an edit does not bring a card that a merge
has moved back in flight for the same pull request, and no card is labelled, by a person or
by a pass, between a pass's check and its move. -/
def Undisturbed (store : Reconciliation PassId) : ReconcileStep PassId → Prop
  | .edit row => store.MayStay columns row
  | .label task => store.MayLabel task
  | .advance pass _ _ => ∀ task ∈ (store.passes pass).escalates, store.MayLabel task
  | _ => True

/-- What holds between two steps of an undisturbed run. -/
structure Sound (store : Reconciliation PassId) : Prop where
  keyed : Table.Keyed TaskItem.id store.tasks
  once : (store.moves.map Move.pull).Nodup
  stays : ∀ row ∈ store.tasks, store.MayStay columns row
  destination : ∀ pass, ∀ column ∈ (store.passes pass).destination,
    columnTypeOf columns column = some .completed
  decided : ∀ pass, ∀ task ∈ (store.passes pass).decided, task ∉ store.labelled
  commentOnce : (store.comments.filterMap ReconcileComment.place).Nodup
  announced : ∀ comment ∈ store.comments, ∀ place ∈ comment.place,
    ∃ move, store.moves[place]? = some move ∧ move.task = comment.task ∧
      move.prUrl = comment.prUrl
  announces : ∀ pass, ∀ about ∈ (store.passes pass).announces,
    about.2.2 ∉ store.comments.filterMap ReconcileComment.place ∧
      ∃ move, store.moves[about.2.2]? = some move ∧ move.task = about.1 ∧
        move.prUrl = about.2.1
  apart : ∀ pass other, ∀ about ∈ (store.passes pass).announces,
    ∀ same ∈ (store.passes other).announces, about.2.2 = same.2.2 → pass = other
  reads : ∀ pass, (store.passes pass).reads = true → pass ∉ store.writers

section Primitives

variable {columns} {store : Reconciliation PassId} {pass : PassId} {phase : Phase}

omit [DecidableEq PassId] in
/-- A card is at rest while a pass still holds the pull request it was moved for. -/
theorem Sound.spent (sound : store.Sound columns) {move : Move} {row : TaskItem}
    (moved : move ∈ store.moves) (member : row ∈ store.tasks) (same : row.id = move.task)
    (held : (move.task, move.number) ∈ (store.passes pass).holds) : atRest columns row := by
  rcases sound.stays row member with rests | others
  · exact rests
  · have free := (others move moved same.symm).2 pass
    rw [same] at free
    exact absurd held free

theorem Sound.enter (sound : store.Sound columns)
    (holds : ∀ item ∈ phase.holds, ∀ move ∈ store.moves,
      (move.task, move.number) = item → ∀ row ∈ store.tasks, row.id = move.task →
        atRest columns row)
    (destination : ∀ column ∈ phase.destination,
      columnTypeOf columns column = some .completed)
    (decided : ∀ task ∈ phase.decided, task ∉ store.labelled)
    (announces : ∀ about ∈ phase.announces,
      (about.2.2 ∉ store.comments.filterMap ReconcileComment.place ∧
        ∃ move, store.moves[about.2.2]? = some move ∧ move.task = about.1 ∧
          move.prUrl = about.2.1) ∧
      ∀ other, other ≠ pass → ∀ same ∈ (store.passes other).announces,
        about.2.2 ≠ same.2.2)
    (reads : phase.reads = true → pass ∉ store.writers) :
    (store.enter pass phase).Sound columns := by
  have here : (store.enter pass phase).passes pass = phase := passes_enter_self
  have elsewhere : ∀ other, other ≠ pass →
      (store.enter pass phase).passes other = store.passes other :=
    fun other differs => passes_enter_of_ne differs
  refine ⟨sound.keyed, sound.once, ?_, ?_, ?_, sound.commentOnce, sound.announced, ?_, ?_, ?_⟩
  · intro row member
    by_cases rests : atRest columns row
    · exact .inl rests
    · right
      intro move moved same
      rcases sound.stays row member with rests' | others
      · exact absurd rests' rests
      · obtain ⟨another, free⟩ := others move moved same
        refine ⟨another, ?_⟩
        intro other held
        by_cases isPass : other = pass
        · rw [isPass, here] at held
          rw [← same] at held
          exact rests (holds _ held move moved rfl row member same.symm)
        · rw [elsewhere other isPass] at held
          exact free other held
  · intro other column isDestination
    by_cases isPass : other = pass
    · rw [isPass, here] at isDestination
      exact destination column isDestination
    · rw [elsewhere other isPass] at isDestination
      exact sound.destination other column isDestination
  · intro other task isDecided
    by_cases isPass : other = pass
    · rw [isPass, here] at isDecided
      exact decided task isDecided
    · rw [elsewhere other isPass] at isDecided
      exact sound.decided other task isDecided
  · intro other about isAbout
    by_cases isPass : other = pass
    · rw [isPass, here] at isAbout
      exact (announces about isAbout).1
    · rw [elsewhere other isPass] at isAbout
      exact sound.announces other about isAbout
  · intro first second about isAbout same isSame equal
    by_cases isFirst : first = pass
    · by_cases isSecond : second = pass
      · rw [isFirst, isSecond]
      · rw [isFirst, here] at isAbout
        rw [elsewhere second isSecond] at isSame
        exact absurd equal ((announces about isAbout).2 second isSecond same isSame)
    · rw [elsewhere first isFirst] at isAbout
      by_cases isSecond : second = pass
      · rw [isSecond, here] at isSame
        exact absurd equal.symm ((announces same isSame).2 first isFirst about isAbout)
      · rw [elsewhere second isSecond] at isSame
        exact sound.apart first second about isAbout same isSame equal
  · intro other isReading
    by_cases isPass : other = pass
    · rw [isPass, here] at isReading
      rw [isPass]
      exact reads isReading
    · rw [elsewhere other isPass] at isReading
      exact sound.reads other isReading

/-- A pass goes on to a phase that holds nothing more. -/
theorem Sound.turn (sound : store.Sound columns) (holds : phase.holds ⊆ (store.passes pass).holds)
    (destination : phase.destination = none) (decided : phase.decided = none)
    (announces : phase.announces = none)
    (reads : phase.reads = true → (store.passes pass).reads = true) :
    (store.enter pass phase).Sound columns := by
  apply sound.enter
  · intro item held move moved same row member isRow
    apply sound.spent moved member isRow
    rw [same]
    exact holds held
  · intro column isDestination
    rw [destination] at isDestination
    cases isDestination
  · intro task isDecided
    rw [decided] at isDecided
    cases isDecided
  · intro about isAbout
    rw [announces] at isAbout
    cases isAbout
  · exact fun isReading => sound.reads pass (reads isReading)

omit [DecidableEq PassId] in
theorem Sound.wrote (sound : store.Sound columns)
    (writes : (store.passes pass).reads = false) : (store.wrote pass).Sound columns := by
  refine { sound with reads := ?_ }
  intro other isReading member
  rcases List.mem_append.mp member with old | new
  · exact sound.reads other isReading old
  · rw [List.mem_singleton.mp new] at isReading
    exact Bool.noConfusion (writes.symm.trans isReading)

omit [DecidableEq PassId] in
theorem Sound.attachLabel (sound : store.Sound columns)
    (may : store.MayLabel task) : (store.attachLabel task).Sound columns := by
  refine { sound with decided := ?_ }
  intro other card isDecided member
  rcases List.mem_append.mp member with old | new
  · exact sound.decided other card isDecided old
  · rw [List.mem_singleton.mp new] at isDecided
    exact may other isDecided

omit [DecidableEq PassId] in
theorem mem_setRow {row other : TaskItem} (member : other ∈ (store.setRow row).tasks) :
    other = row ∨ (other ∈ store.tasks ∧ other.id ≠ row.id) := by
  obtain ⟨old, isOld, rfl⟩ := List.mem_map.mp member
  split
  case isTrue => exact .inl rfl
  case isFalse differs => exact .inr ⟨isOld, differs⟩

omit [DecidableEq PassId] in
/-- A card is written, by a person or by a pass. -/
theorem Sound.setRow (sound : store.Sound columns) {row : TaskItem}
    (may : store.MayStay columns row) : (store.setRow row).Sound columns := by
  refine { sound with keyed := ?_, stays := ?_ }
  · exact sound.keyed.update fun other same => same.symm
  · intro other member
    rcases mem_setRow member with rfl | ⟨isOld, -⟩
    · exact may
    · exact sound.stays other isOld

omit [DecidableEq PassId] in
theorem Sound.record (sound : store.Sound columns) {move : Move}
    (rests : ∀ row ∈ store.tasks, row.id = move.task → atRest columns row)
    (fresh : move.pull ∉ store.moves.map Move.pull) :
    (store.record move).Sound columns := by
  have kept : ∀ (place : Nat) (old : Move), store.moves[place]? = some old →
      (store.moves ++ [move])[place]? = some old := by
    intro place old isOld
    obtain ⟨inside, -⟩ := List.getElem?_eq_some_iff.mp isOld
    rw [List.getElem?_append_left inside]
    exact isOld
  refine { sound with once := ?_, stays := ?_, announced := ?_, announces := ?_ }
  · change ((store.moves ++ [move]).map Move.pull).Nodup
    rw [List.map_append, List.nodup_append]
    refine ⟨sound.once, List.nodup_singleton _, ?_⟩
    intro old isOld new isNew same
    rw [List.map_singleton, List.mem_singleton] at isNew
    exact fresh (isNew ▸ same ▸ isOld)
  · intro row member
    by_cases isMoved : row.id = move.task
    · exact .inl (rests row member isMoved)
    · rcases sound.stays row member with rest | others
      · exact .inl rest
      · right
        intro other isOther same
        rcases List.mem_append.mp isOther with old | new
        · exact others other old same
        · rw [List.mem_singleton.mp new] at same
          exact absurd same.symm isMoved
  · intro comment member place isPlace
    obtain ⟨old, found, rest⟩ := sound.announced comment member place isPlace
    exact ⟨old, kept place old found, rest⟩
  · intro other about isAbout
    obtain ⟨fresh', old, found, rest⟩ := sound.announces other about isAbout
    exact ⟨fresh', old, kept _ old found, rest⟩

omit [DecidableEq PassId] in
/-- What was filled in is only noted. -/
theorem Sound.fillIn (sound : store.Sound columns) {repo : Jobs.Repo}
    {number : Nat} : (store.fillIn task repo number).Sound columns := { sound with }

omit [DecidableEq PassId] in
/-- A comment is stored, after the pass that posts it has gone on. -/
theorem Sound.say (sound : store.Sound columns) {comment : ReconcileComment}
    (about : ∀ place ∈ comment.place,
      (place ∉ store.comments.filterMap ReconcileComment.place ∧
        ∃ move, store.moves[place]? = some move ∧ move.task = comment.task ∧
          move.prUrl = comment.prUrl) ∧
      ∀ other, ∀ same ∈ (store.passes other).announces, same.2.2 ≠ place) :
    (store.say comment).Sound columns := by
  have places : (store.comments ++ [comment]).filterMap ReconcileComment.place =
      store.comments.filterMap ReconcileComment.place ++ comment.place.toList := by
    rw [List.filterMap_append]
    cases move : comment.place with
    | none => rw [List.filterMap_cons_none move]; rfl
    | some place => rw [List.filterMap_cons_some move]; rfl
  refine { sound with commentOnce := ?_, announced := ?_, announces := ?_ }
  · change ((store.comments ++ [comment]).filterMap ReconcileComment.place).Nodup
    rw [places, List.nodup_append]
    refine ⟨sound.commentOnce, ?_, ?_⟩
    · cases comment.place with
      | none => exact List.nodup_nil
      | some place => exact List.nodup_singleton place
    · intro old isOld new isNew same
      exact (about new (Option.mem_toList.mp isNew)).1.1 (same ▸ isOld)
  · intro other member place isPlace
    rcases List.mem_append.mp member with old | new
    · exact sound.announced other old place isPlace
    · rw [List.mem_singleton.mp new] at isPlace ⊢
      exact (about place isPlace).1.2
  · intro other same isSame
    obtain ⟨fresh, found⟩ := sound.announces other same isSame
    refine ⟨?_, found⟩
    intro member
    change _ ∈ (store.comments ++ [comment]).filterMap ReconcileComment.place at member
    rw [places] at member
    rcases List.mem_append.mp member with old | new
    · exact fresh old
    · exact (about _ (Option.mem_toList.mp new)).2 other same isSame rfl

end Primitives

variable {after : Reconciliation PassId} {pending : List (TaskId × String)}

section Calls

variable {columns} {resolveId : List TaskItem → TenantId → String → Option TaskId}
  {store : Reconciliation PassId} {pass : PassId} {scope : Scope} {todo : List Todo}
  {now : Instant}

theorem Sound.begin (sound : store.Sound columns) (isIdle : store.passes pass = .idle) :
    (store.enter pass (.reading scope
      (inFlightTasksWithPr columns scope.tenant scope.workspace store.tasks) [])).Sound
        columns := by
  apply sound.enter
  · intro item held move moved same row member isRow
    rw [Phase.holds, List.flatMap_nil, List.append_nil] at held
    obtain ⟨⟨task, prUrl⟩, pending, rfl⟩ := List.mem_map.mp held
    obtain ⟨listed, isListed, isId, isUrl, -⟩ := mem_inFlightTasksWithPr_iff.mp pending
    obtain ⟨isTask, isNumber⟩ := Prod.mk.inj same
    obtain rfl : row = listed := by
      apply eq_of_id_eq sound.keyed isListed member
      rw [isRow, isTask, isId]
    rcases sound.stays row member with rests | others
    · exact rests
    · obtain ⟨⟨url, recorded, differs⟩, -⟩ := others move moved isRow.symm
      rw [isUrl] at recorded
      cases recorded
      exact absurd isNumber.symm differs
  · intro column isDestination
    cases isDestination
  · intro task isDecided
    cases isDecided
  · intro about isAbout
    cases isAbout
  · intro _
    apply sound.reads
    rw [isIdle]
    rfl

/-- A pass that writes goes on to a stage without a decision. -/
theorem Sound.turnWriting (sound : store.Sound columns)
    (holds : phase.holds ⊆ (store.passes pass).holds) (reads : phase.reads = false)
    (destination : phase.destination = none) (decided : phase.decided = none)
    (announces : phase.announces = none) : (store.enter pass phase).Sound columns := by
  apply sound.turn holds destination decided announces
  intro isReading
  exact Bool.noConfusion (reads.symm.trans isReading)

theorem Sound.escalate (sound : store.Sound columns) (here : store.passes pass =
      .writing scope (.recorded task prUrl .closedUnmerged :: todo) .ready)
    (may : store.MayLabel task) : (store.escalate pass scope todo task prUrl).Sound columns := by
  have kept : ∀ stage : Stage, stage.holds = [] →
      (Phase.writing scope todo stage).holds ⊆ (store.passes pass).holds := by
    intro stage none item held
    rw [Phase.holds, none, List.append_nil] at held
    rw [here, Phase.holds, List.flatMap_cons]
    exact List.mem_append_left _ (List.mem_append_right _ held)
  rw [Reconciliation.escalate]
  split
  · exact sound.turnWriting (kept _ rfl) rfl rfl rfl rfl
  · split
    · have labelled : ((store.attachLabel task).wrote pass).Sound columns := by
        apply (sound.attachLabel may).wrote
        change (store.passes pass).reads = false
        rw [here]
        rfl
      exact labelled.turnWriting (kept _ rfl) rfl rfl rfl rfl
    · exact sound.turnWriting (List.nil_subset _) rfl rfl rfl rfl

/-- The backfill writes a card in flight that has no pull request recorded. -/
theorem backfillPrUrl_some {url : String} {row filled : TaskItem}
    (found : Repo.backfillPrUrl columns now url row = some filled) :
    row.prUrl = none ∧ row.archivedAt = none ∧ Repo.inFlight columns row = true ∧
      filled = { row with prUrl := some url, updatedAt := now } := by
  rw [Repo.backfillPrUrl] at found
  split at found
  case isFalse => cases found
  case isTrue fillable =>
    cases found
    exact ⟨fillable.1, fillable.2.1, fillable.2.2, rfl⟩

theorem not_atRest {row : TaskItem} (unarchived : row.archivedAt = none)
    (inFlight : Repo.inFlight columns row = true) : ¬atRest columns row := by
  rintro (archived | landed)
  · exact archived unarchived
  · exact Bool.noConfusion (inFlight.symm.trans landed)

theorem Sound.backfill (sound : store.Sound columns) {pr : MergedPr}
    (here : store.passes pass = .writing scope (.closes pr :: todo) .ready) :
    (store.backfill columns resolveId now pass scope todo pr).Sound columns := by
  have old : todo.flatMap Todo.holds ⊆ (store.passes pass).holds := by
    intro item held
    rw [here, Phase.holds, List.flatMap_cons]
    exact List.mem_append_left _ (List.mem_append_right _ held)
  rw [Reconciliation.backfill]
  split
  case h_1 =>
    apply sound.turnWriting _ rfl rfl rfl rfl
    rw [Phase.holds, Stage.holds, List.append_nil]
    exact old
  case h_2 filled isCard =>
    obtain ⟨key, -, found⟩ := Option.bind_eq_some_iff.mp isCard
    obtain ⟨task, -, found⟩ := Option.bind_eq_some_iff.mp found
    obtain ⟨row, isRow, found⟩ := Option.bind_eq_some_iff.mp found
    obtain ⟨noUrl, unarchived, inFlight, isFilled⟩ := backfillPrUrl_some found
    have sameId : filled.id = row.id := by rw [isFilled]
    -- no merge has moved a card that is in flight and records no pull request
    have unmoved : ∀ move ∈ store.moves, move.task ≠ filled.id := by
      intro move moved same
      rcases sound.stays row (getRow_some isRow).1 with rests | others
      · exact not_atRest unarchived inFlight rests
      · obtain ⟨⟨url, recorded, -⟩, -⟩ := others move moved (same.trans sameId)
        rw [noUrl] at recorded
        cases recorded
    have written : (store.setRow filled).Sound columns :=
      sound.setRow (.inr fun move moved same => absurd same (unmoved move moved))
    have noted : (((store.setRow filled).fillIn filled.id scope.repo pr.number).wrote
        pass).Sound columns := by
      apply written.fillIn.wrote
      change (store.passes pass).reads = false
      rw [here]
      rfl
    apply noted.enter
    · intro item held move moved same other member isOther
      rcases List.mem_append.mp held with pending | staged
      · apply noted.spent moved member isOther
        rw [same]
        exact old pending
      · rw [List.mem_singleton.mp staged] at same
        exact absurd (Prod.mk.inj same).1 (unmoved move moved)
    · intro column isDestination
      cases isDestination
    · intro decided isDecided
      cases isDecided
    · intro about isAbout
      cases isAbout
    · intro isReading
      cases isReading

theorem Sound.check (sound : store.Sound columns)
    (here : store.passes pass = .writing scope todo (.completing task prUrl)) :
    (store.check pass scope todo task prUrl).Sound columns := by
  rw [Reconciliation.check]
  split
  case isTrue =>
    apply sound.turnWriting _ rfl rfl rfl rfl
    rw [here]
    exact List.append_subset.mpr ⟨List.subset_append_left _ _, List.nil_subset _⟩
  case isFalse unlabelled =>
    apply sound.enter
    · intro item held move moved same row member isRow
      apply sound.spent moved member isRow
      rw [same, here]
      exact held
    · intro column isDestination
      cases isDestination
    · intro other isDecided
      cases isDecided
      exact unlabelled
    · intro about isAbout
      cases isAbout
    · intro isReading
      cases isReading

theorem Sound.locate (sound : store.Sound columns) (keyed : Table.Keyed BoardColumn.id columns)
    (here : store.passes pass = .writing scope todo (.checked task prUrl)) :
    (store.locate columns pass scope todo task prUrl).Sound columns := by
  rw [Reconciliation.locate]
  split
  case h_1 => exact sound.turnWriting (List.nil_subset _) rfl rfl rfl rfl
  case h_2 row isRow =>
    split
    case h_1 =>
      apply sound.turnWriting _ rfl rfl rfl rfl
      rw [here]
      exact List.append_subset.mpr ⟨List.subset_append_left _ _, List.nil_subset _⟩
    case h_2 column isColumn =>
      apply sound.enter
      · intro item held move moved same other member isOther
        apply sound.spent moved member isOther
        rw [same, here]
        exact held
      · intro other isDestination
        cases isDestination
        exact columnTypeOf_columnOfType keyed isColumn
      · intro other isDecided
        cases isDecided
        apply sound.decided pass
        rw [here]
        rfl
      · intro about isAbout
        cases isAbout
      · intro isReading
        cases isReading

/-- The guarded move writes a card in flight, and it is in flight no more. -/
theorem completeIfInFlight_some {column : ColumnId} {row moved : TaskItem}
    (found : Repo.completeIfInFlight columns now column row = some moved) :
    row.archivedAt = none ∧ Repo.inFlight columns row = true ∧ moved.id = row.id ∧
      moved.columnId = column := by
  rw [Repo.completeIfInFlight] at found
  split at found
  case isFalse => cases found
  case isTrue movable =>
    cases found
    exact ⟨movable.1, movable.2, rfl, rfl⟩

theorem atRest_of_completed {row : TaskItem}
    (completed : columnTypeOf columns row.columnId = some .completed) :
    atRest columns row := by
  right
  rw [Repo.inFlight, completed]
  rfl

theorem Sound.complete (sound : store.Sound columns) {column : ColumnId}
    (here : store.passes pass = .writing scope todo (.located task prUrl column)) :
    (store.complete columns now pass scope todo task prUrl column).Sound columns := by
  have held : (task, prNumber prUrl) ∈ (store.passes pass).holds := by
    rw [here]
    exact List.mem_append_right _ (List.mem_singleton_self _)
  have old : todo.flatMap Todo.holds ⊆ (store.passes pass).holds := by
    rw [here]
    exact List.subset_append_left _ _
  have completed : columnTypeOf columns column = some .completed := by
    apply sound.destination pass
    rw [here]
    rfl
  rw [Reconciliation.complete]
  split
  case h_1 =>
    apply sound.turnWriting _ rfl rfl rfl rfl
    rw [Phase.holds, Stage.holds, List.append_nil]
    exact old
  case h_2 row isCard =>
    obtain ⟨before, isRow, found⟩ := Option.bind_eq_some_iff.mp isCard
    obtain ⟨member, isId, -⟩ := getRow_some isRow
    obtain ⟨unarchived, inFlight, sameId, isColumn⟩ := completeIfInFlight_some found
    have rests : atRest columns row := by
      apply atRest_of_completed
      rw [isColumn]
      exact completed
    have written : (store.setRow row).Sound columns := sound.setRow (.inl rests)
    have recorded : ((store.setRow row).record ⟨task, scope.repo, prUrl⟩).Sound columns := by
      apply written.record
      · intro other isOther isTask
        rcases mem_setRow isOther with rfl | ⟨-, differs⟩
        · exact rests
        · exact absurd (isTask.trans (isId.symm.trans sameId.symm)) differs
      · -- a merge that had moved the card would have left it at rest
        intro again
        obtain ⟨move, moved, same⟩ := List.mem_map.mp again
        obtain ⟨isTask, isRest⟩ := Prod.mk.inj same
        obtain ⟨-, isNumber⟩ := Prod.mk.inj isRest
        have isHeld : (move.task, move.number) ∈ (store.passes pass).holds := by
          rw [isTask, isNumber]
          exact held
        exact not_atRest unarchived inFlight
          (sound.spent moved member (isId.trans isTask.symm) isHeld)
    have noted : (((store.setRow row).record ⟨task, scope.repo, prUrl⟩).wrote pass).Sound
        columns := by
      apply recorded.wrote
      change (store.passes pass).reads = false
      rw [here]
      rfl
    -- the move is the last one, and nothing has been said of it
    have unsaid : store.moves.length ∉ store.comments.filterMap ReconcileComment.place := by
      intro said
      obtain ⟨comment, isComment, isPlace⟩ := List.mem_filterMap.mp said
      obtain ⟨move, there, -⟩ := sound.announced comment isComment _ isPlace
      rw [List.getElem?_eq_none (Nat.le_refl _)] at there
      cases there
    apply noted.enter
    · intro item isHeld move moved same other isOther isTask
      rw [Phase.holds, Stage.holds, List.append_nil] at isHeld
      apply noted.spent moved isOther isTask
      rw [same]
      exact old isHeld
    · intro other isDestination
      cases isDestination
    · intro other isDecided
      cases isDecided
    · intro about isAbout
      cases isAbout
      refine ⟨⟨unsaid, ⟨task, scope.repo, prUrl⟩, ?_, rfl, rfl⟩, ?_⟩
      · exact List.getElem?_concat_length
      · intro other differs same isSame equal
        obtain ⟨-, move, there, -⟩ := sound.announces other same isSame
        rw [← equal, List.getElem?_eq_none (Nat.le_refl _)] at there
        cases there
    · intro isReading
      cases isReading

theorem Sound.announce (sound : store.Sound columns) {posts : Bool} {outcome : Outcome}
    (here : store.passes pass = .writing scope todo (.announcing task prUrl outcome)) :
    (store.announce pass scope todo posts task prUrl outcome).Sound columns := by
  have gone : (store.enter pass (.writing scope todo .ready)).Sound columns := by
    apply sound.turnWriting _ rfl rfl rfl rfl
    rw [here]
    exact List.Subset.refl _
  rw [Reconciliation.announce]
  split
  case isFalse => exact gone
  case isTrue =>
    have noted : ((store.enter pass (.writing scope todo .ready)).wrote pass).Sound columns := by
      apply gone.wrote
      rw [passes_enter_self]
      rfl
    have said : (((store.enter pass (.writing scope todo .ready)).wrote pass).say
        ⟨task, prUrl, outcome⟩).Sound columns := by
      apply noted.say
      intro place isPlace
      cases outcome with
      | closedUnmerged => cases isPlace
      | merged move =>
          cases isPlace
          have about : (task, prUrl, place) ∈ (store.passes pass).announces := by
            rw [here]
            rfl
          refine ⟨sound.announces pass _ about, ?_⟩
          intro other same isSame equal
          change same ∈ ((store.enter pass _).passes other).announces at isSame
          by_cases isPass : other = pass
          · rw [isPass, passes_enter_self] at isSame
            cases isSame
          · rw [passes_enter_of_ne isPass] at isSame
            exact isPass (sound.apart other pass same isSame _ about equal)
    exact said

theorem Sound.goOn (sound : store.Sound columns) (keyed : Table.Keyed BoardColumn.id columns)
    {posts : Bool} {stage : Stage} (here : store.passes pass = .writing scope todo stage)
    (undisturbed : store.Undisturbed columns (.advance pass now posts)) :
    (store.goOn columns resolveId now pass scope todo posts stage).Sound columns := by
  cases stage with
  | ready =>
      cases todo with
      | nil => exact sound.turnWriting (List.nil_subset _) rfl rfl rfl rfl
      | cons item rest =>
          have old : rest.flatMap Todo.holds ⊆ (store.passes pass).holds := by
            intro item held
            rw [here, Phase.holds, List.flatMap_cons]
            exact List.mem_append_left _ (List.mem_append_right _ held)
          cases item with
          | closes pr => exact sound.backfill here
          | recorded task prUrl state =>
              cases state with
              | «open» =>
                  apply sound.turnWriting _ rfl rfl rfl rfl
                  rw [Phase.holds, Stage.holds, List.append_nil]
                  exact old
              | merged =>
                  apply sound.turnWriting _ rfl rfl rfl rfl
                  rw [here]
                  intro item held
                  rw [Phase.holds, Stage.holds, List.append_nil, List.flatMap_cons]
                  rcases List.mem_append.mp held with pending | staged
                  · exact List.mem_append_right _ pending
                  · exact List.mem_append_left _ staged
              | closedUnmerged =>
                  rw [Undisturbed, here] at undisturbed
                  exact sound.escalate here (undisturbed task rfl)
  | completing task prUrl => exact sound.check here
  | checked task prUrl => exact sound.locate keyed here
  | located task prUrl column => exact sound.complete here
  | announcing task prUrl outcome => exact sound.announce here

/-- What the next call of a pass does to the board: nothing, or it fills in a URL that a card
did not have, or it moves the card it has decided on. -/
inductive Writes (store : Reconciliation PassId) (scope : Scope) (stage : Stage) :
    Reconciliation PassId → Prop where
  | nothing {after : Reconciliation PassId} (tasks : after.tasks = store.tasks)
      (moves : after.moves = store.moves) : Writes store scope stage after
  | fills {after : Reconciliation PassId} (old row : TaskItem) (member : old ∈ store.tasks)
      (same : row.id = old.id) (noUrl : old.prUrl = none)
      (tasks : after.tasks = (store.setRow row).tasks) (moves : after.moves = store.moves) :
      Writes store scope stage after
  | moves {after : Reconciliation PassId} (move : Move) (column : ColumnId) (row : TaskItem)
      (here : stage = .located move.task move.prUrl column) (same : row.id = move.task)
      (tasks : after.tasks = (store.setRow row).tasks)
      (moves : after.moves = store.moves ++ [move]) : Writes store scope stage after

/-- The next call of a pass moves that pass alone, takes up what was listed, and fills in
the URLs of listed pull requests only. -/
structure Goes (store : Reconciliation PassId) (pass : PassId) (scope : Scope)
    (todo : List Todo) (stage : Stage) (board : Reconciliation PassId) (phase : Phase) :
    Prop where
  isScope : phase.scope = some scope
  passes : board.passes = store.passes
  merged : board.merged = store.merged
  fewer : phase.listed ⊆ (Phase.writing scope todo stage).listed
  filled : ∀ entry ∈ board.backfilled, entry ∈ store.backfilled ∨
    entry.2 ∈ (Phase.writing scope todo stage).listed
  writes : Writes store scope stage (board.enter pass phase)

/-- A call that writes neither a card nor a URL. -/
theorem Goes.beside {stage : Stage} {board : Reconciliation PassId}
    (isScope : phase.scope = some scope) (passes : board.passes = store.passes)
    (merged : board.merged = store.merged) (backfilled : board.backfilled = store.backfilled)
    (tasks : board.tasks = store.tasks) (moves : board.moves = store.moves)
    (fewer : phase.listed ⊆ (Phase.writing scope todo stage).listed) :
    Goes store pass scope todo stage board phase :=
  ⟨isScope, passes, merged, fewer, fun _ member => .inl (backfilled ▸ member),
    .nothing tasks moves⟩

/-- A call that writes nothing. -/
theorem Goes.quiet {stage : Stage} (isScope : phase.scope = some scope)
    (fewer : phase.listed ⊆ (Phase.writing scope todo stage).listed) :
    Goes store pass scope todo stage store phase :=
  .beside isScope rfl rfl rfl rfl rfl fewer

theorem goOn_cases {posts : Bool} {stage : Stage} :
    ∃ (board : Reconciliation PassId) (phase : Phase),
      store.goOn columns resolveId now pass scope todo posts stage = board.enter pass phase ∧
        Goes store pass scope todo stage board phase := by
  cases stage with
  | ready =>
      cases todo with
      | nil => exact ⟨store, _, rfl, .quiet rfl (List.nil_subset _)⟩
      | cons item rest =>
          have fewer : ∀ stage : Stage, (Phase.writing scope rest stage).listed ⊆
              (Phase.writing scope (item :: rest) .ready).listed := by
            intro stage entry member
            exact (List.sublist_cons_self item rest).filterMap _ |>.subset member
          cases item with
          | closes pr =>
              rw [goOn, takeUp, Reconciliation.backfill]
              split
              case h_1 => exact ⟨store, _, rfl, .quiet rfl (fewer _)⟩
              case h_2 filled isCard =>
                obtain ⟨key, -, found⟩ := Option.bind_eq_some_iff.mp isCard
                obtain ⟨task, -, found⟩ := Option.bind_eq_some_iff.mp found
                obtain ⟨row, isRow, found⟩ := Option.bind_eq_some_iff.mp found
                obtain ⟨noUrl, -, -, isFilled⟩ := backfillPrUrl_some found
                have sameId : filled.id = row.id := by rw [isFilled]
                refine ⟨_, _, rfl, rfl, rfl, rfl, fewer _, ?_,
                  .fills row filled (getRow_some isRow).1 sameId noUrl rfl rfl⟩
                intro entry member
                rcases List.mem_append.mp member with old | new
                · exact .inl old
                · rw [List.mem_singleton.mp new]
                  exact .inr List.mem_cons_self
          | recorded task prUrl state =>
              cases state with
              | «open» | merged => exact ⟨store, _, rfl, .quiet rfl (fewer _)⟩
              | closedUnmerged =>
                  rw [goOn, takeUp, Reconciliation.escalate]
                  split
                  · exact ⟨store, _, rfl, .quiet rfl (fewer _)⟩
                  · split
                    · exact ⟨_, _, rfl, .beside rfl rfl rfl rfl rfl rfl (fewer _)⟩
                    · exact ⟨store, _, rfl, .quiet rfl (List.nil_subset _)⟩
  | completing task prUrl => exact ⟨store, _, rfl, .quiet rfl (List.Subset.refl _)⟩
  | checked task prUrl =>
      rw [goOn, Reconciliation.locate]
      split
      · exact ⟨store, _, rfl, .quiet rfl (List.nil_subset _)⟩
      · split
        · exact ⟨store, _, rfl, .quiet rfl (List.Subset.refl _)⟩
        · exact ⟨store, _, rfl, .quiet rfl (List.Subset.refl _)⟩
  | located task prUrl column =>
      rw [goOn, Reconciliation.complete]
      split
      case h_1 => exact ⟨store, _, rfl, .quiet rfl (List.Subset.refl _)⟩
      case h_2 row isCard =>
        obtain ⟨before, isRow, found⟩ := Option.bind_eq_some_iff.mp isCard
        have same : row.id = task :=
          (completeIfInFlight_some found).2.2.1.trans (getRow_some isRow).2.1
        exact ⟨_, _, rfl, rfl, rfl, rfl, List.Subset.refl _, fun _ member => .inl member,
          .moves ⟨task, scope.repo, prUrl⟩ column row rfl same rfl rfl⟩
  | announcing task prUrl outcome =>
      rw [goOn, Reconciliation.announce]
      split
      · exact ⟨_, _, rfl, .beside rfl rfl rfl rfl rfl rfl (List.Subset.refl _)⟩
      · exact ⟨store, _, rfl, .quiet rfl (List.Subset.refl _)⟩

theorem writes_goOn {posts : Bool} {stage : Stage} :
    Writes store scope stage (store.goOn columns resolveId now pass scope todo posts stage) := by
  obtain ⟨board, phase, isBoard, goes⟩ :=
    @goOn_cases _ _ columns resolveId store pass scope todo now posts stage
  rw [isBoard]
  exact goes.writes

theorem Sound.ask (sound : store.Sound columns) {recorded added : List Todo}
    (here : store.passes pass = .reading scope ((task, prUrl) :: pending) recorded)
    (own : added.flatMap Todo.holds ⊆ [(task, prNumber prUrl)]) :
    (store.enter pass (.reading scope pending (recorded ++ added))).Sound columns := by
  apply sound.turn _ rfl rfl rfl
  · rw [here]
    exact fun _ => rfl
  · intro item held
    rw [here, Phase.holds, List.map_cons]
    rw [Phase.holds, List.flatMap_append] at held
    rcases List.mem_append.mp held with waiting | asked
    · exact List.mem_append_left _ (List.mem_cons_of_mem _ waiting)
    · rcases List.mem_append.mp asked with old | new
      · exact List.mem_append_right _ old
      · rw [List.mem_singleton.mp (own new)]
        exact List.mem_append_left _ List.mem_cons_self

theorem Sound.list (sound : store.Sound columns) {recorded : List Todo} {prs : List MergedPr}
    (here : store.passes pass = .reading scope [] recorded) :
    (store.enter pass (.writing scope (recorded ++ prs.map .closes) .ready)).Sound columns := by
  apply sound.turnWriting _ rfl rfl rfl rfl
  intro item held
  rw [Phase.holds, Stage.holds, List.append_nil, List.flatMap_append] at held
  rw [here, Phase.holds, List.map_nil, List.nil_append]
  rcases List.mem_append.mp held with old | listed
  · exact old
  · obtain ⟨closing, isClosing, inside⟩ := List.mem_flatMap.mp listed
    obtain ⟨pr, -, rfl⟩ := List.mem_map.mp isClosing
    cases inside

theorem Sound.step (sound : store.Sound columns) (keyed : Table.Keyed BoardColumn.id columns)
    {label : ReconcileStep PassId} (stepped : store.step columns resolveId label = some after)
    (undisturbed : store.Undisturbed columns label) : after.Sound columns := by
  cases step_cases _ _ stepped with
  | create unused unmoved =>
      refine { sound with keyed := sound.keyed.insert unused, stays := ?_ }
      intro other member
      rcases List.mem_append.mp member with old | new
      · exact sound.stays other old
      · rw [List.mem_singleton.mp new]
        exact .inr fun move moved same => absurd same (unmoved move moved)
  | edit => exact sound.setRow undisturbed
  | delete =>
      refine { sound with keyed := sound.keyed.delete, stays := ?_, decided := ?_ }
      · exact fun row member => sound.stays row (List.mem_of_mem_filter member)
      · exact fun other card isDecided member =>
          sound.decided other card isDecided (List.mem_of_mem_filter member)
  | label => exact sound.attachLabel undisturbed
  | unlabel =>
      refine { sound with decided := ?_ }
      exact fun other card isDecided member =>
        sound.decided other card isDecided (List.mem_of_mem_filter member)
  | merge => exact { sound with }
  | begin isIdle => exact sound.begin isIdle
  | @skip pass _ scope task prUrl pending recorded here =>
      have skipped : (store.enter pass (.reading scope pending (recorded ++ []))).Sound
          columns := sound.ask here (List.nil_subset _)
      rw [List.append_nil] at skipped
      exact skipped
  | ask here => exact sound.ask here (List.Subset.refl _)
  | list here => exact sound.list here
  | stop => exact sound.turnWriting (List.nil_subset _) rfl rfl rfl rfl
  | advance here => exact sound.goOn keyed here undisturbed

/-- A step that is not a pass's next call leaves the moves as they are. -/
theorem unlabelled_step (sound : store.Sound columns) {label : ReconcileStep PassId}
    (stepped : store.step columns resolveId label = some after) :
    after.moves = store.moves ∨
      ∃ move, after.moves = store.moves ++ [move] ∧ move.task ∉ store.labelled := by
  cases step_cases _ _ stepped with
  | @advance pass now posts scope todo stage here =>
      rcases @writes_goOn _ _ columns resolveId store pass scope todo now posts stage with
        ⟨-, same⟩ | ⟨old, row, member, sameId, noUrl, tasks, same⟩ |
        ⟨move, column, row, rfl, sameId, tasks, moved⟩
      · exact .inl same
      · exact .inl same
      · refine .inr ⟨move, moved, ?_⟩
        apply sound.decided pass
        rw [here]
        rfl
  | create | edit | delete | label | unlabel | merge | begin | skip | ask | list | stop =>
      exact .inl rfl

theorem Sound.mergesRight (sound : store.Sound columns) {label : ReconcileStep PassId}
    (stepped : store.step columns resolveId label = some after) (soundAfter : after.Sound columns) :
    MergesRight store label after where
  once := soundAfter.once
  commentOnce := soundAfter.commentOnce
  announced := soundAfter.announced
  unlabelled := unlabelled_step sound stepped
  held := by
    rintro pass rfl ⟨scope, pending, recorded, here⟩
    rw [Reconciliation.step, here] at stepped
    cases stepped
    constructor
    · apply sound.reads
      rw [here]
      rfl
    · have entered : (store.enter pass (.concluded scope false)).passes pass =
          .concluded scope false := passes_enter_self
      rw [entered]

omit [DecidableEq PassId] in
theorem sound_start {tasks : List TaskItem} (keyed : Table.Keyed TaskItem.id tasks) :
    (start tasks : Reconciliation PassId).Sound columns where
  keyed := keyed
  once := List.nodup_nil
  stays := fun _ _ => .inr fun _ moved => absurd moved List.not_mem_nil
  destination := by
    intro pass column isDestination
    cases isDestination
  decided := by
    intro pass task isDecided
    cases isDecided
  commentOnce := List.nodup_nil
  announced := by
    intro comment member
    cases member
  announces := by
    intro pass about isAbout
    cases isAbout
  apart := by
    intro pass other about isAbout
    cases isAbout
  reads := fun _ _ => List.not_mem_nil

end Calls

section Later

variable {columns} {resolveId : List TaskItem → TenantId → String → Option TaskId}
  {store : Reconciliation PassId} {pass : PassId} {scope : Scope} {todo : List Todo}
  {now : Instant}

/-- Only merged pull requests are listed, and only their URLs are filled in. -/
structure Listed (store : Reconciliation PassId) : Prop where
  listed : ∀ pass, ∀ entry ∈ (store.passes pass).listed,
    entry ∈ store.merged ∧ entry.2 < 2 ^ 64
  filled : ∀ entry ∈ store.backfilled, entry.2 ∈ store.merged ∧ entry.2.2 < 2 ^ 64

theorem Listed.enter (listed : store.Listed)
    (fewer : ∀ entry ∈ phase.listed, entry ∈ store.merged ∧ entry.2 < 2 ^ 64) :
    (store.enter pass phase).Listed := by
  refine ⟨?_, listed.filled⟩
  intro other entry member
  by_cases isPass : other = pass
  · rw [isPass, passes_enter_self] at member
    exact fewer entry member
  · rw [passes_enter_of_ne isPass] at member
    exact listed.listed other entry member

omit [DecidableEq PassId] in
/-- A pass that has something listed takes up no more than that. -/
theorem Listed.mine (listed : store.Listed) (here : store.passes pass = phase) :
    ∀ entry ∈ phase.listed, entry ∈ store.merged ∧ entry.2 < 2 ^ 64 := by
  rw [← here]
  exact listed.listed pass

theorem Listed.step (listed : store.Listed) {label : ReconcileStep PassId}
    (stepped : store.step columns resolveId label = some after) :
    after.Listed := by
  have nothing : ∀ entry ∈ ([] : List (Jobs.Repo × Nat)),
      entry ∈ store.merged ∧ entry.2 < 2 ^ 64 := fun _ member => absurd member List.not_mem_nil
  cases step_cases _ _ stepped with
  | create | edit | delete | label | unlabel => exact { listed with }
  | merge =>
      constructor
      · intro pass entry member
        obtain ⟨merged, small⟩ := listed.listed pass entry member
        exact ⟨List.mem_append_left _ merged, small⟩
      · intro entry member
        obtain ⟨merged, small⟩ := listed.filled entry member
        exact ⟨List.mem_append_left _ merged, small⟩
  | begin => exact listed.enter nothing
  | skip here => exact listed.enter fun entry member => listed.mine here entry member
  | ask here =>
      apply listed.enter
      intro entry member
      rw [Phase.listed, List.filterMap_append] at member
      rcases List.mem_append.mp member with old | new
      · exact listed.mine here entry old
      · cases new
  | list here allMerged =>
      apply listed.enter
      intro entry member
      obtain ⟨item, isItem, isEntry⟩ := List.mem_filterMap.mp member
      rcases List.mem_append.mp isItem with old | new
      · exact listed.mine here entry (List.mem_filterMap.mpr ⟨item, old, isEntry⟩)
      · obtain ⟨pr, isPr, rfl⟩ := List.mem_map.mp new
        cases isEntry
        exact allMerged pr isPr
  | stop => exact listed.enter nothing
  | @advance pass now posts scope todo stage here =>
      obtain ⟨board, phase, isBoard, -, passes, merged, fewer, filled, -⟩ :=
        @goOn_cases _ _ columns resolveId store pass scope todo now posts stage
      rw [isBoard]
      have mine := listed.mine here
      rw [← merged] at mine
      have boardListed : board.Listed := by
        constructor
        · rw [passes, merged]
          exact listed.listed
        · intro entry member
          rcases filled entry member with old | new
          · rw [merged]
            exact listed.filled entry old
          · exact mine entry.2 new
      exact boardListed.enter fun entry member => mine entry (fewer member)

/-- The card has not been moved, and the pass is yet to come to it. -/
structure Waiting (columns : List BoardColumn) (store : Reconciliation PassId)
    (pass : PassId) (scope : Scope) (task : TaskId) (number : Nat) : Prop where
  row : ∃ row ∈ store.tasks, row.id = task ∧ RowWaits columns scope number row
  unlabelled : task ∉ store.labelled
  merged : (scope.repo, number) ∈ store.merged
  leads : (store.passes pass).leads scope task (prWebUrl scope.repo number)

variable {task : TaskId} {number : Nat} {after : Reconciliation PassId}

omit [DecidableEq PassId] in
theorem mem_setRow_of_ne {row other : TaskItem} (member : other ∈ store.tasks)
    (differs : other.id ≠ row.id) : other ∈ (store.setRow row).tasks :=
  List.mem_map.mpr ⟨other, member, if_neg differs⟩

/-- The card keeps waiting on the board, unless a pass moves it. -/
theorem Waiting.row_goOn (sound : store.Sound columns) {stage : Stage} {posts : Bool}
    (waits : ∃ row ∈ store.tasks, row.id = task ∧ RowWaits columns scope number row)
    {about : Scope} :
    store.moves.countP (·.task = task) <
        (store.goOn columns resolveId now pass about todo posts stage).moves.countP
          (·.task = task) ∨
      ((store.goOn columns resolveId now pass about todo posts stage).moves.countP
          (·.task = task) = store.moves.countP (·.task = task) ∧
        ∃ row ∈ (store.goOn columns resolveId now pass about todo posts stage).tasks,
          row.id = task ∧ RowWaits columns scope number row) := by
  obtain ⟨row, member, isTask, rowWaits⟩ := waits
  rcases @writes_goOn _ _ columns resolveId store pass about todo now posts stage with
    ⟨tasks, moves⟩ | ⟨old, filled, isOld, same, noUrl, tasks, moves⟩ |
    ⟨move, column, moved, here, same, tasks, moves⟩
  · rw [tasks, moves]
    exact .inr ⟨rfl, row, member, isTask, rowWaits⟩
  · -- the card that is filled in is another one, for this one has its URL
    rw [tasks, moves]
    refine .inr ⟨rfl, row, mem_setRow_of_ne member ?_, isTask, rowWaits⟩
    intro sameId
    have isRow : row = old := eq_of_id_eq sound.keyed isOld member (sameId.trans same)
    have prUrl := rowWaits.prUrl
    rw [isRow, noUrl] at prUrl
    cases prUrl
  · rw [tasks, moves, List.countP_append]
    by_cases isMoved : move.task = task
    · left
      have one : [move].countP (·.task = task) = 1 := by simp [isMoved]
      omega
    · have none : [move].countP (·.task = task) = 0 := by simp [isMoved]
      refine .inr ⟨by omega, row, mem_setRow_of_ne member ?_, isTask, rowWaits⟩
      intro sameId
      exact isMoved (same.symm.trans (sameId.symm.trans isTask))

/-- What a pass takes up leaves the rest to do. -/
theorem leads_takeUp {item : Todo} (pending : .recorded task prUrl .merged ∈ todo) :
    ((store.takeUp columns resolveId now pass scope todo item).passes pass).leads scope task
      prUrl := by
  cases item with
  | closes pr =>
      rw [takeUp, Reconciliation.backfill]
      split
      · rw [passes_enter_self]
        exact fun _ => .inl pending
      · rw [passes_enter_self]
        exact fun _ => .inl pending
  | recorded other url state =>
      cases state with
      | «open» | merged =>
          rw [takeUp, passes_enter_self]
          exact fun _ => .inl pending
      | closedUnmerged =>
          rw [takeUp, Reconciliation.escalate]
          split
          · rw [passes_enter_self]
            exact fun _ => .inl pending
          · split
            · rw [passes_enter_self]
              exact fun _ => .inl pending
            · rw [passes_enter_self]
              exact fun _ => rfl

/-- A card that is still to come comes nearer, whatever the pass does for the one before it. -/
theorem leads_of_pending {stage : Stage} {posts : Bool}
    (pending : .recorded task prUrl .merged ∈ todo) :
    ((store.goOn columns resolveId now pass scope todo posts stage).passes pass).leads scope task
      prUrl := by
  cases stage with
  | ready =>
      cases todo with
      | nil => cases pending
      | cons item rest =>
          rcases List.mem_cons.mp pending with isItem | inRest
          · rw [← isItem, goOn, takeUp, passes_enter_self]
            exact fun _ => .inr (.inl rfl)
          · exact leads_takeUp inRest
  | completing other url =>
      rw [goOn, Reconciliation.check, passes_enter_self]
      exact fun _ => .inl pending
  | checked other url =>
      rw [goOn, Reconciliation.locate]
      split
      · rw [passes_enter_self]
        exact fun _ => rfl
      · split
        · rw [passes_enter_self]
          exact fun _ => .inl pending
        · rw [passes_enter_self]
          exact fun _ => .inl pending
  | located other url column =>
      rw [goOn, Reconciliation.complete]
      split
      · rw [passes_enter_self]
        exact fun _ => .inl pending
      · rw [passes_enter_self]
        exact fun _ => .inl pending
  | announcing other url outcome =>
      rw [goOn, Reconciliation.announce]
      split
      · rw [passes_enter_self]
        exact fun _ => .inl pending
      · rw [passes_enter_self]
        exact fun _ => .inl pending

/-- The pass comes nearer to the card, or moves it. -/
theorem Waiting.leads_goOn (sound : store.Sound columns) {stage : Stage} {posts : Bool}
    (waiting : store.Waiting columns pass scope task number)
    (here : store.passes pass = .writing scope todo stage) :
    store.moves.countP (·.task = task) <
        (store.goOn columns resolveId now pass scope todo posts stage).moves.countP
          (·.task = task) ∨
      ((store.goOn columns resolveId now pass scope todo posts stage).passes pass).leads scope
        task (prWebUrl scope.repo number) := by
  obtain ⟨row, member, isTask, rowWaits⟩ := waiting.row
  have found : getRow store.tasks scope.tenant task = some row := by
    rw [← isTask, ← rowWaits.tenant]
    exact getRow_of_mem sound.keyed member
  have leads := waiting.leads
  rw [here] at leads
  obtain pending | about | about | ⟨column, about⟩ := leads rfl
  · exact .inr (leads_of_pending pending)
  · right
    subst about
    rw [goOn, Reconciliation.check, passes_enter_self, if_neg waiting.unlabelled]
    exact fun _ => .inr (.inr (.inl rfl))
  · right
    subst about
    obtain ⟨column, isColumn⟩ := Option.isSome_iff_exists.mp rowWaits.completable
    rw [goOn, Reconciliation.locate, found]
    dsimp only
    rw [isColumn]
    dsimp only
    rw [passes_enter_self]
    exact fun _ => .inr (.inr (.inr ⟨column, rfl⟩))
  · left
    subst about
    have moves : (getRow store.tasks scope.tenant task).bind
        (Repo.completeIfInFlight columns now column) = some
          { row with columnId := column, claimExpiresAt := none, updatedAt := now } := by
      rw [found, Option.bind_some, Repo.completeIfInFlight,
        if_pos ⟨rowWaits.unarchived, rowWaits.inFlight⟩]
    rw [goOn, Reconciliation.complete, moves]
    change _ < (store.moves ++ [_]).countP _
    rw [List.countP_append]
    simp

omit [DecidableEq PassId] in
/-- The forge answers that a merged pull request is merged. -/
theorem mergeState_of_mem {repo : Jobs.Repo} {closed : Bool}
    (merged : (repo, number) ∈ store.merged) :
    store.mergeState repo number closed = .merged :=
  if_pos merged

/-- A pass that enters a phase which leads to the card is on its way to it. -/
theorem Waiting.leads_enter (waiting : store.Waiting columns pass scope task number)
    {other : PassId} (leads : other = pass → phase.leads scope task (prWebUrl scope.repo number)) :
    ((store.enter other phase).passes pass).leads scope task (prWebUrl scope.repo number) := by
  by_cases isPass : other = pass
  · rw [isPass, passes_enter_self]
    exact leads isPass
  · rw [passes_enter_of_ne (Ne.symm isPass)]
    exact waiting.leads

omit [DecidableEq PassId] in
/-- The phase that a waiting pass is in leads to the card. -/
theorem Waiting.leads_here (waiting : store.Waiting columns pass scope task number) {other : PassId}
    (isPass : other = pass) (here : store.passes other = phase) :
    phase.leads scope task (prWebUrl scope.repo number) := by
  rw [← here, isPass]
  exact waiting.leads

omit [DecidableEq PassId] in
/-- A pass that begins reads the card among those in flight. -/
theorem Waiting.leads_begin (waiting : store.Waiting columns pass scope task number)
    {about : Scope} :
    (Phase.reading about (inFlightTasksWithPr columns about.tenant about.workspace store.tasks)
      []).leads scope task (prWebUrl scope.repo number) := by
  rintro rfl
  obtain ⟨row, member, isTask, rowWaits⟩ := waiting.row
  left
  exact mem_inFlightTasksWithPr_iff.mpr ⟨row, member, isTask, rowWaits.prUrl,
    rowWaits.tenant, rowWaits.workspace, rowWaits.unarchived, rowWaits.inFlight⟩

/-- A pull request without a number is not the card's, which is still to be asked about. -/
theorem Waiting.leads_skip (small : number < 2 ^ 64) {about : Scope} {first : TaskId}
    {recorded : List Todo} (unread : prNumber prUrl = none)
    (leads : (Phase.reading about ((first, prUrl) :: pending) recorded).leads scope task
      (prWebUrl scope.repo number)) :
    (Phase.reading about pending recorded).leads scope task (prWebUrl scope.repo number) := by
  intro same
  rcases leads same with waits | asked
  · rcases List.mem_cons.mp waits with isFirst | inRest
    · obtain ⟨-, isUrl⟩ := Prod.mk.inj isFirst
      rw [← isUrl, Jobs.prNumber_prWebUrl small] at unread
      cases unread
    · exact .inl inRest
  · exact .inr asked

omit [DecidableEq PassId] in
/-- The answer about the card is that its pull request has merged. -/
theorem Waiting.leads_ask (waiting : store.Waiting columns pass scope task number)
    (small : number < 2 ^ 64) {about : Scope} {first : TaskId} {recorded : List Todo}
    {asksFor : Nat} {closed : Bool} (isNumber : prNumber prUrl = some asksFor)
    (leads : (Phase.reading about ((first, prUrl) :: pending) recorded).leads scope task
      (prWebUrl scope.repo number)) :
    (Phase.reading about pending (recorded ++
      [.recorded first prUrl (store.mergeState about.repo asksFor closed)])).leads scope task
        (prWebUrl scope.repo number) := by
  intro same
  rcases leads same with waits | asked
  · rcases List.mem_cons.mp waits with isFirst | inRest
    · obtain ⟨isTask, isUrl⟩ := Prod.mk.inj isFirst
      rw [← isUrl, Jobs.prNumber_prWebUrl small, Option.some.injEq] at isNumber
      right
      rw [← isNumber, same, mergeState_of_mem waiting.merged, isTask, isUrl]
      exact List.mem_append_right _ (List.mem_singleton_self _)
    · exact .inl inRest
  · exact .inr (List.mem_append_left _ asked)

/-- A step of the pass comes nearer to the card, or moves it. -/
theorem Waiting.leads_step (sound : store.Sound columns) (small : number < 2 ^ 64)
    (waiting : store.Waiting columns pass scope task number)
    {label : ReconcileStep PassId} (stepped : store.step columns resolveId label = some after) :
    store.moves.countP (·.task = task) < after.moves.countP (·.task = task) ∨
      (after.passes pass).leads scope task (prWebUrl scope.repo number) := by
  cases step_cases _ _ stepped with
  | create | edit | delete | label | unlabel | merge => exact .inr waiting.leads
  | begin => exact .inr (waiting.leads_enter fun _ => waiting.leads_begin)
  | skip here unread =>
      right
      apply waiting.leads_enter
      exact fun isPass => Waiting.leads_skip small unread (waiting.leads_here isPass here)
  | ask here isNumber =>
      right
      apply waiting.leads_enter
      exact fun isPass => waiting.leads_ask small isNumber (waiting.leads_here isPass here)
  | list here =>
      right
      apply waiting.leads_enter
      intro isPass same
      rcases waiting.leads_here isPass here same with waits | asked
      · cases waits
      · exact .inl (List.mem_append_left _ asked)
  | stop => exact .inr (waiting.leads_enter fun _ _ => rfl)
  | @advance other now posts about todo stage here =>
      obtain ⟨board, phase, isBoard, phaseScope, passes, -⟩ :=
        @goOn_cases _ _ columns resolveId store other about todo now posts stage
      by_cases isPass : other = pass
      · subst isPass
        by_cases isScope : about = scope
        · subst isScope
          exact waiting.leads_goOn sound here
        · rw [isBoard, passes_enter_self]
          exact .inr (Phase.leads_of_ne phaseScope isScope)
      · right
        rw [isBoard, passes_enter_of_ne (Ne.symm isPass), passes]
        exact waiting.leads

/-- What has merged stays merged. -/
theorem merged_step {label : ReconcileStep PassId}
    (stepped : store.step columns resolveId label = some after)
    (merged : (scope.repo, number) ∈ store.merged) : (scope.repo, number) ∈ after.merged := by
  cases step_cases _ _ stepped with
  | @advance other now posts about todo stage here =>
      obtain ⟨board, phase, isBoard, -, -, same, -⟩ :=
        @goOn_cases _ _ columns resolveId store other about todo now posts stage
      rw [isBoard]
      change _ ∈ board.merged
      rw [same]
      exact merged
  | merge => exact List.mem_append_left _ merged
  | create | edit | delete | label | unlabel | begin | skip | ask | list | stop => exact merged

/-- The card keeps waiting on the board while people leave it alone, unless it is moved. -/
theorem Waiting.row_step (sound : store.Sound columns)
    (waits : ∃ row ∈ store.tasks, row.id = task ∧ RowWaits columns scope number row)
    {label : ReconcileStep PassId} (stepped : store.step columns resolveId label = some after)
    (leftAlone : LeftAlone columns scope number task label after) :
    store.moves.countP (·.task = task) < after.moves.countP (·.task = task) ∨
      (after.moves.countP (·.task = task) = store.moves.countP (·.task = task) ∧
        ∃ row ∈ after.tasks, row.id = task ∧ RowWaits columns scope number row) := by
  cases step_cases _ _ stepped with
  | create =>
      obtain ⟨old, member, rest⟩ := waits
      exact .inr ⟨rfl, old, List.mem_append_left _ member, rest⟩
  | @edit row =>
      right
      obtain ⟨old, member, isTask, rowWaits⟩ := waits
      by_cases same : old.id = row.id
      · refine ⟨rfl, row, ?_, same.symm.trans isTask, leftAlone.2 (same.symm.trans isTask)⟩
        exact List.mem_map.mpr ⟨old, member, if_pos same⟩
      · exact ⟨rfl, old, mem_setRow_of_ne member same, isTask, rowWaits⟩
  | delete =>
      obtain ⟨old, member, isTask, rowWaits⟩ := waits
      refine .inr ⟨rfl, old, List.mem_filter.mpr ⟨member, ?_⟩, isTask, rowWaits⟩
      rw [isTask]
      exact decide_eq_true (Ne.symm leftAlone.2)
  | label | unlabel | merge | begin | skip | ask | list | stop => exact .inr ⟨rfl, waits⟩
  | advance => exact Waiting.row_goOn sound waits

theorem Waiting.step (sound : store.Sound columns) (small : number < 2 ^ 64)
    (waiting : store.Waiting columns pass scope task number)
    {label : ReconcileStep PassId} (stepped : store.step columns resolveId label = some after)
    (leftAlone : LeftAlone columns scope number task label after) :
    store.moves.countP (·.task = task) < after.moves.countP (·.task = task) ∨
      (after.moves.countP (·.task = task) = store.moves.countP (·.task = task) ∧
        after.Waiting columns pass scope task number) := by
  rcases Waiting.row_step sound waiting.row stepped leftAlone with moved | ⟨same, row⟩
  · exact .inl moved
  · rcases waiting.leads_step sound small stepped with moved | leads
    · exact .inl moved
    · exact .inr ⟨same, row, leftAlone.1, merged_step stepped waiting.merged, leads⟩

theorem moves_le (sound : store.Sound columns) {label : ReconcileStep PassId}
    (stepped : store.step columns resolveId label = some after) :
    store.moves.countP (·.task = task) ≤ after.moves.countP (·.task = task) := by
  rcases unlabelled_step sound stepped with same | ⟨move, same, -⟩
  · rw [same]
  · rw [same, List.countP_append]
    omega

/-- A pass that comes to its end has moved the card, where people left it alone. -/
theorem completedLater (keyed : Table.Keyed BoardColumn.id columns) (sound : store.Sound columns)
    (small : number < 2 ^ 64) {repo : Jobs.Repo} (merged : (repo, number) ∈ store.merged) :
    store.CompletedLater columns resolveId (Undisturbed columns) task repo number := by
  intro scope row pass labels final isRepo member isTask rowWaits unlabelled isIdle along ran
    finished
  subst isRepo
  have kept := along.run_invariant
    (fun current => current.Sound columns ∧
      (store.moves.countP (·.task = task) < current.moves.countP (·.task = task) ∨
        (current.moves.countP (·.task = task) = store.moves.countP (·.task = task) ∧
          current.Waiting columns pass scope task number))) ?_ ?_ ran
  · rcases kept.2 with moved | ⟨-, waiting⟩
    · exact moved
    · have leads := waiting.leads
      rw [finished] at leads
      cases leads rfl
  · rintro before label after ⟨soundBefore, so⟩ stepped ⟨undisturbed, leftAlone⟩
    refine ⟨soundBefore.step keyed stepped undisturbed, ?_⟩
    rcases so with moved | ⟨same, waiting⟩
    · exact .inl (Nat.lt_of_lt_of_le moved (moves_le soundBefore stepped))
    · rcases waiting.step soundBefore small stepped leftAlone with moved | ⟨kept, waits⟩
      · exact .inl (same ▸ moved)
      · exact .inr ⟨kept.trans same, waits⟩
  · refine ⟨sound, .inr ⟨rfl, ⟨row, member, isTask, rowWaits⟩, unlabelled, merged, ?_⟩⟩
    rw [isIdle]
    trivial

/-- In every undisturbed run every step is right, and a card whose URL was filled in is
completed by a later pass. -/
theorem merges_close_once (keyed : Table.Keyed BoardColumn.id columns)
    {tasks : List TaskItem} (keyedTasks : Table.Keyed TaskItem.id tasks)
    {labels : List (ReconcileStep PassId)}
    (undisturbed : Along (step columns resolveId)
      (fun before label _ => before.Undisturbed columns label) (start tasks) labels) :
    Along (step columns resolveId) MergesRight (start tasks) labels ∧
      ∀ middle, run (step columns resolveId) (start tasks) labels = some middle →
        ∀ entry ∈ middle.backfilled,
          middle.CompletedLater columns resolveId (Undisturbed columns) entry.1 entry.2.1
            entry.2.2 := by
  constructor
  · apply undisturbed.of_invariant (Sound columns)
    · intro before label after sound stepped isUndisturbed
      exact sound.step keyed stepped isUndisturbed
    · intro before label after sound stepped isUndisturbed
      exact sound.mergesRight stepped (sound.step keyed stepped isUndisturbed)
    · exact sound_start keyedTasks
  · intro middle ran entry member
    have sound : middle.Sound columns := by
      apply undisturbed.run_invariant (Sound columns) _ (sound_start keyedTasks) ran
      intro before label after soundBefore stepped isUndisturbed
      exact soundBefore.step keyed stepped isUndisturbed
    have listed : middle.Listed := by
      apply run_invariant Listed _ _ ran
      · exact fun before label after isListed stepped => isListed.step stepped
      · exact ⟨fun _ _ none => absurd none List.not_mem_nil,
          fun _ none => absurd none List.not_mem_nil⟩
    obtain ⟨merged, small⟩ := listed.filled entry member
    exact completedLater keyed sound small merged

end Later

section Runs

def doing : BoardColumn := ⟨1, 1, "Doing", 0, .started⟩

def done : BoardColumn := ⟨2, 1, "Done", 1, .completed⟩

def aRepo : Jobs.Repo := ⟨"nook-os", "nook-os"⟩

/-- A card in flight. -/
def shipped (workspaceId : Option WorkspaceId) (prUrl : Option String) : TaskItem where
  id := 1
  tenantId := 1
  boardId := 1
  columnId := 1
  number := some 1
  title := "ship it"
  description := none
  type := .task
  position := 0
  priority := 0
  visibility := .team
  createdBy := none
  assigneeUserId := none
  workspaceId
  parentTaskId := none
  assignedNodeId := none
  branch := none
  worktreePath := none
  worktreeNodeId := none
  checkoutId := none
  sessionId := none
  claimExpiresAt := none
  unblockedAt := none
  buildLadderClearedAt := none
  prUrl
  archivedAt := none
  createdAt := 0
  updatedAt := 0

def aScope : Scope := ⟨1, 1, aRepo⟩

/-- The one key of the board. -/
def resolveKey (_ : List TaskItem) (_ : TenantId) (key : String) : Option TaskId :=
  if key = "NOOK-1" then some 1 else none

/-- The reading half of a pass with one recorded pull request, and its first writes. -/
def decides (pass : Fin 2) : List (ReconcileStep (Fin 2)) :=
  [.begin pass aScope, .ask pass false, .list pass [], .advance pass 1 true,
    .advance pass 1 true]

/-- The guarded move, its comment and the end of the pass. -/
def lands (pass : Fin 2) : List (ReconcileStep (Fin 2)) :=
  [.advance pass 1 true, .advance pass 1 true, .advance pass 1 true, .advance pass 1 true]

def recordedCard : TaskItem := shipped (some 1) (some (prWebUrl aRepo 9))

/-- A person drags the card back between two passes. -/
def reopened : List (ReconcileStep (Fin 2)) :=
  .merge aRepo 9 :: decides 0 ++ lands 0 ++ .edit recordedCard :: decides 1 ++ lands 1

/-- A person labels the card between the check and the move. -/
def labelledLate : List (ReconcileStep (Fin 2)) :=
  .merge aRepo 9 :: decides 0 ++ [.label 1, .advance 0 1 true]

/-- A pass fills in the URL of a card that is in no workspace and stops; the next pass
comes to its end. -/
def passedBy : List (ReconcileStep (Fin 2)) :=
  [.merge aRepo 9, .begin 0 aScope, .list 0 [⟨9, "Closes NOOK-1"⟩], .advance 0 1 true,
    .stop 0, .begin 1 aScope, .list 1 [⟨9, "Closes NOOK-1"⟩], .advance 1 1 true,
    .advance 1 1 true]

theorem reopened_moves :
    (run (step [doing, done] resolveKey) (start [recordedCard]) reopened).map (·.moves) =
      some [⟨1, aRepo, prWebUrl aRepo 9⟩, ⟨1, aRepo, prWebUrl aRepo 9⟩] := by
  decide +kernel

theorem labelledLate_decides :
    (run (step [doing, done] resolveKey) (start [recordedCard]) labelledLate).map
        (fun store => (store.labelled, store.moves)) = some ([1], []) := by
  decide +kernel

theorem labelledLate_moves :
    (run (step [doing, done] resolveKey) (start [recordedCard])
        (labelledLate ++ [.advance 0 1 true])).map (·.moves) =
      some [⟨1, aRepo, prWebUrl aRepo 9⟩] := by
  decide +kernel

/-- A merge moves its card twice after a person dragged it back, a card is moved with the
label on it, and a card whose URL was filled in is passed by. -/
theorem merges_go_wrong :
    ¬Along (step [doing, done] resolveKey) MergesRight (start [recordedCard]) reopened ∧
      ¬Along (step [doing, done] resolveKey) MergesRight (start [recordedCard])
        (labelledLate ++ [.advance 0 1 true]) ∧
      (run (step [doing, done] resolveKey) (start [shipped none none]) passedBy).map
          (fun store => (store.passes 1, store.backfilled, store.moves)) =
        some (.concluded aScope true, [(1, aRepo, 9)], []) ∧
      (run (step [doing, done] resolveKey) (start [shipped none none]) passedBy).map
          (fun store => (store.tasks.map (·.columnId), store.labelled)) =
        some ([doing.id], []) := by
  refine ⟨?_, ?_, by decide +kernel, by decide +kernel⟩
  · intro right
    obtain ⟨final, ran, twice⟩ := Option.map_eq_some_iff.mp reopened_moves
    have once : (final.moves.map Move.pull).Nodup := by
      apply right.run_invariant (fun store => (store.moves.map Move.pull).Nodup) _
        List.nodup_nil ran
      exact fun before label after _ _ isRight => isRight.once
    rw [twice] at once
    exact absurd once (by decide +kernel)
  · intro right
    obtain ⟨before, ran, same⟩ := Option.map_eq_some_iff.mp labelledLate_decides
    obtain ⟨after, ranOn, moved⟩ := Option.map_eq_some_iff.mp labelledLate_moves
    obtain ⟨middle, toMiddle, fromMiddle⟩ := run_append_iff.mp ranOn
    rw [ran] at toMiddle
    cases toMiddle
    obtain ⟨next, taken, rest⟩ := run_cons_iff.mp fromMiddle
    cases rest
    obtain ⟨isLabelled, noMoves⟩ := Prod.mk.inj same
    rcases (right.last ran taken).unlabelled with still | ⟨move, isMove, free⟩
    · rw [moved, noMoves] at still
      cases still
    · rw [moved, noMoves] at isMove
      cases isMove
      rw [isLabelled] at free
      exact free (List.mem_singleton_self 1)

/-- A pass over a card in its workspace, and the next one while a person looks on. -/
def undisturbed : List (ReconcileStep (Fin 2)) :=
  [.merge aRepo 9, .begin 0 aScope, .list 0 [⟨9, "Closes NOOK-1"⟩], .advance 0 1 true,
    .stop 0, .label 7, .begin 1 aScope, .ask 1 false, .list 1 [], .advance 1 1 true] ++
    .advance 1 1 true :: lands 1

instance {columns : List BoardColumn} {row : TaskItem} : Decidable (atRest columns row) :=
  inferInstanceAs (Decidable (_ ∨ _))

instance {columns : List BoardColumn} {store : Reconciliation (Fin 2)} {row : TaskItem} :
    Decidable (store.MayStay columns row) :=
  inferInstanceAs (Decidable (_ ∨ _))

instance {store : Reconciliation (Fin 2)} {task : TaskId} : Decidable (store.MayLabel task) :=
  inferInstanceAs (Decidable (∀ pass, (store.passes pass).decided ≠ some task))

instance {columns : List BoardColumn} {store : Reconciliation (Fin 2)} :
    (label : ReconcileStep (Fin 2)) → Decidable (store.Undisturbed columns label)
  | .edit row => inferInstanceAs (Decidable (store.MayStay columns row))
  | .label task => inferInstanceAs (Decidable (store.MayLabel task))
  | .advance pass _ _ =>
      inferInstanceAs (Decidable (∀ task ∈ (store.passes pass).escalates, store.MayLabel task))
  | .create _ | .delete _ | .unlabel _ | .merge _ _ | .begin _ _ | .ask _ _ | .list _ _
  | .stop _ => .isTrue trivial

theorem merges_close_once_undisturbed :
    Along (step [doing, done] resolveKey) MergesRight (start [shipped (some 1) none])
        undisturbed ∧
      ∀ middle, run (step [doing, done] resolveKey) (start [shipped (some 1) none])
          undisturbed = some middle →
        ∀ entry ∈ middle.backfilled,
          middle.CompletedLater [doing, done] resolveKey (Undisturbed [doing, done]) entry.1
            entry.2.1 entry.2.2 := by
  apply merges_close_once
  · unfold Table.Keyed
    decide
  · exact List.nodup_singleton _
  · decide +kernel

end Runs

end Reconciliation

end NookOs.Tasks
