/-
Module: NookOs.Placement.BuildPorts
Purpose: The ports of a card's builds under placement by several replicas, the
  endings of its runs, and the releases of its stack, and a condition under
  which no lease is lost before its run starts or kept after its use.
Trusted boundary: none
Main exports: BuildPorts, BuildPorts.step, PortsHold, Tended, ports_hold
-/
import Mathlib.Logic.Function.Basic
import NookOs.Lib.Run
import NookOs.Lib.Table
import NookOs.Lib.InFlight
import NookOs.Jobs.Lifecycle
import NookOs.Placement.Capacity
import NookOs.Placement.PortLeases

namespace NookOs.Placement

open Lib Jobs

/-!
`select_executor` takes a build's ports before it claims the job, so between
the two anything may happen to the job, to the leases, or to the card.  A run's
ports come back in three places: the end of a run whose card has no worktree,
the teardown of the card's stack, and the undo of a refused allocation.
-/

/-- A `select_executor` call on a build job, past the choice of its node. -/
structure Select where
  job : JobId
  task : TaskId
  node : NodeId
  reqs : List PortRequirement
  phase : AllocationPhase
deriving DecidableEq

/-- A call that ends a run or takes a stack down, by what it does next. -/
inductive Closing where
  /-- The UPDATE of `transition`. -/
  | checked (job : JobId) (call : CheckedTransition)
  /-- `release_ports_of_stackless_build` reads the card. -/
  | readTree (node : NodeId) (task : TaskId)
  /-- It found no worktree, and releases. -/
  | release (node : NodeId) (task : TaskId)
  /-- The reaper looks for a run that still uses the tree. -/
  | checkRuns (node : NodeId) (task : TaskId)
  /-- The reaper brings the stack down. -/
  | stackDown (node : NodeId) (task : TaskId)
  /-- The stack is down, and its ports are released. -/
  | releaseStack (node : NodeId) (task : TaskId)
  /-- The worktree is removed and its record cleared. -/
  | clearTree (task : TaskId)
deriving DecidableEq

/-- The jobs, the node each card records a worktree on, the leases, and the
calls in flight: those that have loaded a queued build and not yet chosen its
node, those that have, and those that end or take down. -/
structure BuildPorts where
  jobs : List LoopJob
  trees : TaskId → Option NodeId
  leases : List PortLease
  choosing : List (JobId × TaskId)
  selects : List Select
  closings : List Closing

/-- Nothing has been queued yet. -/
def BuildPorts.empty : BuildPorts :=
  { jobs := [], trees := fun _ => none, leases := [], choosing := []
    selects := [], closings := [] }

/-- No call is in progress. -/
def BuildPorts.Quiescent (system : BuildPorts) : Prop :=
  system.choosing = [] ∧ system.selects = [] ∧ system.closings = []

/-- One step of one party. -/
inductive PortStep where
  | create (now : Instant) (new : NewLoopJob)
  | selectExecutor (id : JobId)
  | chooseNode (call : Nat) (node : NodeId) (reqs : List PortRequirement)
      (range : Option PortRange) (exclusions : List Int)
  | allocate (select : Nat) (live : SessionId → Bool)
  | leaveQueued (select : Nat) (now : Instant) (reason : String)
      (kind : Option QueuedReason)
  | claimForExecutor (select : Nat) (now : Instant)
  | loadTransition (id : JobId) (target : JobState)
  | close (closing : Nat) (now : Instant) (succeeds : Bool)
  | write (id : JobId) (update : RowWrite)
  | reapForTask (task : TaskId)
  | pruneWorktree (task : TaskId)
  | releaseLease (node : NodeId) (holder : LeaseHolder)
  | recordWorktree (id : JobId) (node : NodeId)
  | sessionLease (session : SessionId) (node : NodeId) (name env : String)
      (port : Int)

/-- The card of a build job. -/
def buildTask (job : LoopJob) : Option TaskId :=
  if job.kind = .build then job.targetTaskId else none

/-- The next await of an allocation on the lease table. -/
def Select.allocate (live : SessionId → Bool) (leases : List PortLease)
    (select : Select) : Option (List PortLease × AllocationPhase) :=
  match select.phase with
  | .readHeld range excluded =>
      some
        (leases, .listener
          (.start range excluded
            (Leases.buildLeasesOf select.node select.task leases) select.reqs))
  | .listener progress =>
      if progress.missing.isSome then
        let kept := Leases.reclaim select.node live leases
        some (kept, progress.listen (Leases.heldPorts select.node kept))
      else some (leases, progress.listen [])
  | .add progress port =>
      (progress.lease select.task select.node port).map fun lease =>
        match Leases.addLease lease leases with
        | some added => (added, progress.added port)
        | none => (leases, progress.contended)
  | .undo takenHere refusal =>
      some
        (Leases.releaseNames select.node (.build select.task) takenHere leases,
          .refused refusal)
  | .refused _ | .leased _ => none

/-- Some run of any kind is live on the card. -/
def liveRunFor (task : TaskId) (jobs : List LoopJob) : Bool :=
  jobs.any fun job => job.targetTaskId = some task && isLive job.state

/-- The next await of a call that ends a run or takes a stack down: the rows it
leaves, and the rest of the call.  Whether the card has finished, the stack came
down and the tree was removed is the environment's to say. -/
def Closing.advance (now : Instant) (succeeds : Bool) (system : BuildPorts) :
    Closing → BuildPorts × Option Closing
  | .checked id call =>
      ({ system with
          jobs := onJob id
            (fun job => some (Jobs.Repo.transition now call.target job)) system.jobs },
        if isTerminal call.target then
          (Table.find LoopJob.id system.jobs id).bind fun job =>
            (buildTask job).bind fun task =>
              job.executorNodeId.map fun node => .readTree node task
        else none)
  | .readTree node task =>
      (system,
        if (system.trees task).isSome then none else some (.release node task))
  | .release node task =>
      ({ system with
          leases := Leases.releaseByHolder node (.build task) system.leases }, none)
  | .checkRuns node task =>
      (system,
        if succeeds && !liveRunFor task system.jobs then some (.stackDown node task)
        else none)
  | .stackDown node task =>
      (system, if succeeds then some (.releaseStack node task) else none)
  | .releaseStack node task =>
      ({ system with
          leases := Leases.releaseByHolder node (.build task) system.leases },
        some (.clearTree task))
  | .clearTree task =>
      if succeeds then
        ({ system with trees := Function.update system.trees task none }, none)
      else (system, none)

/-- The interleaving semantics of the calls on the leases. -/
def BuildPorts.step (system : BuildPorts) : PortStep → Option BuildPorts
  | .create now new =>
      if (Table.find LoopJob.id system.jobs new.id).isSome then none
      else some { system with jobs := system.jobs ++ [Jobs.Repo.create now new] }
  | .selectExecutor id =>
      (Table.find LoopJob.id system.jobs id).bind fun job =>
        (buildTask job).map fun task =>
          if job.state = .queued then
            { system with choosing := system.choosing ++ [(id, task)] }
          else system
  | .chooseNode index node reqs range exclusions =>
      (system.choosing[index]?).bind fun call =>
        -- A card's recorded worktree is the only candidate.
        if (system.trees call.2).any (· ≠ node) then none
        else
          let wanted := reqs.filter (wants buildRuntime)
          some
            { system with
              choosing := system.choosing.eraseIdx index
              selects := system.selects ++
                [{ job := call.1, task := call.2, node, reqs := wanted
                   phase := allocateFor wanted range exclusions }] }
  | .allocate index live =>
      (system.selects[index]?).bind fun select =>
        (select.allocate live system.leases).map fun next =>
          { system with
            leases := next.1
            selects := system.selects.set index { select with phase := next.2 } }
  | .leaveQueued index now reason kind =>
      (system.selects[index]?).bind fun select =>
        match select.phase with
        | .refused _ =>
            some
              { system with
                jobs := onJob select.job
                  (Jobs.Repo.setQueuedReason now reason kind) system.jobs
                selects := system.selects.eraseIdx index }
        | _ => none
  | .claimForExecutor index now =>
      (system.selects[index]?).bind fun select =>
        match select.phase with
        | .leased _ =>
            some
              { system with
                jobs := onJob select.job
                  (Jobs.Repo.claimForExecutor now select.node) system.jobs
                selects := system.selects.eraseIdx index }
        | _ => none
  | .loadTransition id target =>
      -- No caller of `transition` asks for `claimed`.
      if target = .claimed then none
      else
        (Table.find LoopJob.id system.jobs id).bind fun job =>
          match checkTransition job target with
          | .proceed call =>
              some { system with closings := system.closings ++ [.checked id call] }
          | .unchanged | .illegal => some system
  | .close index now succeeds =>
      (system.closings[index]?).map fun closing =>
        let (next, rest) := closing.advance now succeeds system
        { next with closings := system.closings.eraseIdx index ++ rest.toList }
  | .write id update =>
      some { system with jobs := onJob id update.update system.jobs }
  | .reapForTask task =>
      match system.trees task with
      | none => some system
      | some node =>
          some { system with closings := system.closings ++ [.checkRuns node task] }
  | .pruneWorktree task =>
      match system.trees task with
      | none => some system
      | some node =>
          some { system with closings := system.closings ++ [.releaseStack node task] }
  | .releaseLease node holder =>
      some { system with leases := Leases.releaseByHolder node holder system.leases }
  | .recordWorktree id node =>
      (Table.find LoopJob.id system.jobs id).bind fun job =>
        if job.executorNodeId = some node then
          match job.targetTaskId with
          | some task =>
              some { system with trees := Function.update system.trees task (some node) }
          | none => some system
        else some system
  | .sessionLease session node name env port =>
      some
        { system with
          leases :=
            (Leases.addLease { holder := .session session, node, name, env, port }
              system.leases).getD system.leases }

/-- The job accounts for its card's leases on a node: it runs there, or is
queued and may come to. -/
def owns (task : TaskId) (node : NodeId) (job : LoopJob) : Bool :=
  buildTask job = some task &&
    (job.state = .queued || (occupies job.state && job.executorNodeId = some node))

/-- The job is queued. -/
def stillQueued (jobs : List LoopJob) (id : JobId) : Bool :=
  (Table.find LoopJob.id jobs id).any fun job => job.state = .queued

/-- The listener is required of the build. -/
def Select.requires (name : String) (select : Select) : Bool :=
  select.reqs.any fun req => req.name = name && req.required

/-- Part one of the claim, of one step: a claim that wins finds stored, on its
card and node, every required listener its allocation reported leased. -/
def ClaimedWithPorts (before : BuildPorts) (label : PortStep)
    (after : BuildPorts) : Prop :=
  match label with
  | .claimForExecutor index _ =>
      ∀ select ∈ before.selects[index]?, stillQueued before.jobs select.job = true →
        match select.phase with
        | .leased answer =>
            ∀ port ∈ answer.ports, select.requires port.name = true →
              Leases.stored after.leases select.task select.node port.name = true
        | _ => True
  | _ => True

/-- Part two, of one state: a lease of a card is on the node of its worktree,
or some build of it runs there or is queued. -/
def LeasesOwned (system : BuildPorts) : Prop :=
  ∀ lease ∈ system.leases, ∀ task ∈ lease.task,
    system.trees task = some lease.node ∨
      ∃ job ∈ system.jobs, owns task lease.node job = true

/-- Both parts: the second whenever no call is in progress. -/
def PortsHold (before : BuildPorts) (label : PortStep) (after : BuildPorts) : Prop :=
  ClaimedWithPorts before label after ∧ (after.Quiescent → LeasesOwned after)

/-- A call in flight is about to release the card's leases on the node. -/
def releasing (trees : TaskId → Option NodeId) (closings : List Closing)
    (task : TaskId) (node : NodeId) : Bool :=
  closings.any fun closing =>
    match closing with
    | .release place card | .releaseStack place card => place = node && card = task
    | .readTree place card =>
        place = node && card = task && (trees task).isNone
    | .checked _ _ | .checkRuns _ _ | .stackDown _ _ | .clearTree _ =>
        false

/-- A refused allocation is about to give the listener back. -/
def undoing (selects : List Select) (task : TaskId) (node : NodeId)
    (name : String) : Bool :=
  selects.any fun select =>
    match select.phase with
    | .undo takenHere _ =>
        select.task = task && select.node = node && takenHere.contains name
    | _ => false

/-- A lease has a use, or a call that is about to drop it. -/
def accounted (jobs : List LoopJob) (trees : TaskId → Option NodeId)
    (selects : List Select) (closings : List Closing) (task : TaskId)
    (node : NodeId) (name : String) : Bool :=
  trees task = some node || jobs.any (owns task node) ||
    releasing trees closings task node || undoing selects task node name

/-- The allocation goes on to claim a job that is queued still, and counts on
the listener it was required to lease. -/
def Select.countsOn (jobs : List LoopJob) (task : TaskId) (node : NodeId)
    (name : String) (select : Select) : Bool :=
  select.task = task && select.node = node && stillQueued jobs select.job &&
    select.requires name && select.phase.reports name

/-- A job that stops accounting for a lease of its card leaves it to the
worktree, another job or a call in flight; a run that ends leaves those of its
own node to its ending, if the card has no worktree. -/
def handsOver (system : BuildPorts) (job job' : LoopJob) (ending : Bool) : Prop :=
  ∀ lease ∈ system.leases, ∀ task ∈ lease.task,
    owns task lease.node job = true → owns task lease.node job' = false →
    (ending = true ∧ job.executorNodeId = some lease.node ∧
        system.trees task = none) ∨
      accounted (system.jobs.filter (·.id ≠ job.id)) system.trees system.selects
        system.closings task lease.node lease.name = true

/-- The leases of a card have another use than the worktree its record is about
to name in place of the one it names. -/
def outlastTree (system : BuildPorts) (task : TaskId) (tree : Option NodeId) :
    Prop :=
  ∀ lease ∈ system.leases, lease.task = some task →
    accounted system.jobs (Function.update system.trees task tree)
      system.selects system.closings task lease.node lease.name = true

/-- Nobody counts on the listeners a release drops. -/
def nobodyCounts (system : BuildPorts) (task : TaskId) (node : NodeId)
    (dropped : String → Bool) : Prop :=
  ∀ select ∈ system.selects, ∀ req ∈ select.reqs, dropped req.name = true →
    select.countsOn system.jobs task node req.name = false

/-- The condition on one step, read off the state before it. -/
def Tended (before : BuildPorts) (label : PortStep) (_ : BuildPorts) : Prop :=
  match label with
  | .allocate index _ =>
      ∀ select ∈ before.selects[index]?,
        match select.phase with
        | .add progress port =>
            -- The lease is for a job that is queued still, or has another use.
            ∀ lease ∈ progress.lease select.task select.node port,
              (Leases.addLease lease before.leases).isSome = true →
              accounted before.jobs before.trees before.selects before.closings
                select.task select.node lease.name = true
        | .undo takenHere _ =>
            -- What is given back is not what another allocation found or took.
            nobodyCounts before select.task select.node takenHere.contains
        | _ => True
  | .claimForExecutor index now =>
      -- The card has no leases on a node it was not claimed for.
      ∀ select ∈ before.selects[index]?,
        ∀ job ∈ Table.find LoopJob.id before.jobs select.job,
          ∀ claimed ∈ Jobs.Repo.claimForExecutor now select.node job,
            handsOver before job claimed false
  | .close index now succeeds =>
      ∀ closing ∈ before.closings[index]?,
        match closing with
        | .checked id call =>
            ∀ job ∈ Table.find LoopJob.id before.jobs id,
              handsOver before job (Jobs.Repo.transition now call.target job)
                (isTerminal call.target)
        | .release node task | .releaseStack node task =>
            nobodyCounts before task node fun _ => true
        | .clearTree task => succeeds = true → outlastTree before task none
        | .readTree _ _ | .checkRuns _ _ | .stackDown _ _ => True
  | .write id update =>
      -- The guarded UPDATEs release nothing.
      ∀ job ∈ Table.find LoopJob.id before.jobs id, ∀ row ∈ update.update job,
        handsOver before job row false
  | .releaseLease node holder =>
      ∀ task, holder = .build task → nobodyCounts before task node fun _ => true
  | .recordWorktree id node =>
      ∀ job ∈ Table.find LoopJob.id before.jobs id,
        job.executorNodeId = some node → ∀ task ∈ job.targetTaskId,
          outlastTree before task (some node)
  | _ => True

variable {update : LoopJob → Option LoopJob} {jobs : List LoopJob}

/-- A job that is queued after an UPDATE was queued before it. -/
theorem stillQueued_onJob {id other : JobId} (advances : Advances update)
    (queued : stillQueued (onJob id update jobs) other = true) :
    stillQueued jobs other = true := by
  unfold stillQueued onJob at queued
  rw [Table.find_update fun job _ => (advances.keeps job).1] at queued
  unfold stillQueued
  cases found : Table.find LoopJob.id jobs other with
  | none => simp [found] at queued
  | some job =>
      rw [found] at queued
      by_cases isQueued : job.state = .queued
      · simpa using isQueued
      · exfalso
        have moved := (advances.keeps job).2 isQueued
        split at queued
        · simp [moved] at queued
        · simp [isQueued] at queued

/-- Every job stays in the table. -/
theorem find_isSome_onJob {id other : JobId} (advances : Advances update)
    (known : (Table.find LoopJob.id jobs other).isSome = true) :
    (Table.find LoopJob.id (onJob id update jobs) other).isSome = true := by
  unfold onJob
  rw [Table.find_update fun job _ => (advances.keeps job).1]
  split
  · rw [Option.isSome_map]
    exact known
  · exact known

/-- A known job is not the one just created. -/
theorem stillQueued_create {row : LoopJob} {other : JobId}
    (known : (Table.find LoopJob.id jobs other).isSome = true)
    (queued : stillQueued (jobs ++ [row]) other = true) :
    stillQueued jobs other = true := by
  unfold stillQueued at queued ⊢
  rw [Table.find_insert] at queued
  rcases Option.isSome_iff_exists.mp known with ⟨job, found⟩
  rw [found] at queued ⊢
  exact queued

variable {task : TaskId} {node : NodeId} {closings : List Closing} {name : String}
  {selects : List Select} {trees : TaskId → Option NodeId}

theorem accounted_iff :
    accounted jobs trees selects closings task node name = true ↔
      trees task = some node ∨ (∃ job ∈ jobs, owns task node job = true) ∨
        releasing trees closings task node = true ∨
          undoing selects task node name = true := by
  simp [accounted, or_assoc]

/-- What else accounts for a lease when one job changes: the changed job, the
others as before, and whatever was no job. -/
theorem accounted_onJob {id : JobId} {job : LoopJob} {otherwise : Prop}
    (keyed : Table.Keyed LoopJob.id jobs)
    (found : Table.find LoopJob.id jobs id = some job)
    (before : accounted jobs trees selects closings task node name = true)
    (hands : owns task node job = true →
      owns task node ((update job).getD job) = false →
      otherwise ∨ accounted (jobs.filter (·.id ≠ job.id)) trees selects closings
        task node name = true) :
    otherwise ∨
      accounted (onJob id update jobs) trees selects closings task node name =
        true := by
  rcases Table.find_some found with ⟨member, sameId⟩
  have changed : (update job).getD job ∈ onJob id update jobs := by
    refine List.mem_map.mpr ⟨job, member, ?_⟩
    rw [if_pos sameId]
  have others : ∀ other ∈ jobs, other.id ≠ id → other ∈ onJob id update jobs := by
    intro other present differs
    refine List.mem_map.mpr ⟨other, present, ?_⟩
    rw [if_neg differs]
  have among : ∀ other ∈ jobs, other.id ≠ id → owns task node other = true →
      accounted (onJob id update jobs) trees selects closings task node name =
        true := fun other present differs owning =>
    accounted_iff.mpr (.inr (.inl ⟨other, others other present differs, owning⟩))
  rcases accounted_iff.mp before with tree | ⟨owner, present, owning⟩ | rest
  · exact .inr (accounted_iff.mpr (.inl tree))
  · by_cases isJob : owner.id = id
    · have same : owner = job := by
        have foundOwner := keyed.find_of_mem present
        rw [isJob, found] at foundOwner
        exact (Option.some.inj foundOwner).symm
      subst same
      cases after : owns task node ((update owner).getD owner) with
      | true =>
          exact .inr (accounted_iff.mpr (.inr (.inl ⟨_, changed, after⟩)))
      | false =>
          rcases hands owning after with early | left
          · exact .inl early
          · right
            rcases accounted_iff.mp left with tree | ⟨other, kept, still⟩ | rest
            · exact accounted_iff.mpr (.inl tree)
            · rcases List.mem_filter.mp kept with ⟨inJobs, differs⟩
              exact among other inJobs (by simpa [isJob] using differs) still
            · exact accounted_iff.mpr (.inr (.inr rest))
    · exact .inr (among owner present isJob owning)
  · exact .inr (accounted_iff.mpr (.inr (.inr rest)))

/-- Two records of worktrees that agree on a card account for it alike. -/
theorem releasing_congr {trees other : TaskId → Option NodeId} (same : trees task = other task) :
    releasing trees closings task node = releasing other closings task node := by
  unfold releasing
  rw [same]

theorem undoing_append (selects more : List Select) (task : TaskId)
    (node : NodeId) (name : String) :
    undoing (selects ++ more) task node name =
      (undoing selects task node name || undoing more task node name) :=
  List.any_append

theorem releasing_append (trees : TaskId → Option NodeId)
    (closings more : List Closing) (task : TaskId) (node : NodeId) :
    releasing trees (closings ++ more) task node =
      (releasing trees closings task node || releasing trees more task node) :=
  List.any_append

variable {select : Select} {index : Nat}

/-- A call that undoes nothing may end or go on. -/
theorem undoing_eraseIdx (present : selects[index]? = some select)
    (notUndo : ∀ takenHere refusal, select.phase ≠ .undo takenHere refusal)
    (task : TaskId) (node : NodeId) (name : String) :
    undoing (selects.eraseIdx index) task node name =
      undoing selects task node name := by
  unfold undoing
  rw [any_eraseIdx present]
  cases phase : select.phase with
  | undo takenHere refusal => exact absurd phase (notUndo takenHere refusal)
  | _ => simp

theorem undoing_set (present : selects[index]? = some select) (next : Select)
    (notUndo : ∀ takenHere refusal, select.phase ≠ .undo takenHere refusal)
    (was : undoing selects task node name = true) :
    undoing (selects.set index next) task node name = true := by
  have others := undoing_eraseIdx present notUndo task node name
  unfold undoing at was others ⊢
  rw [any_set present, others, was, Bool.or_true]

/-- The opening of an allocation reports nothing. -/
theorem reports_allocateFor (reqs : List PortRequirement)
    (range : Option PortRange) (exclusions : List Int) (name : String) :
    (allocateFor reqs range exclusions).reports name = false := by
  unfold allocateFor
  split
  · rfl
  · split <;> rfl
  · rfl

/-- Looking at the next listener reports nothing that was not reported. -/
theorem reports_listen {taken : List Int} {progress : Progress}
    (reports : (progress.listen taken).reports name = true) :
    (AllocationPhase.listener progress).reports name = true := by
  unfold Progress.listen at reports
  split at reports
  · simp only [AllocationPhase.reports] at reports ⊢
    rw [reports, Bool.or_true]
  · split at reports
    · rename_i existing found
      simp only [AllocationPhase.reports, List.any_append, List.any_cons,
        List.any_nil, Bool.or_false, Bool.or_eq_true] at reports ⊢
      rcases reports with held | earlier | added
      · exact .inl held
      · exact .inr earlier
      · left
        exact List.any_eq_true.mpr ⟨existing, List.mem_of_find?_eq_some found, added⟩
    · split at reports
      · exact reports
      · split at reports
        · contradiction
        · exact reports

/-- A lost insert reports nothing new. -/
theorem reports_contended {progress : Progress} {port : Int}
    (reports : progress.contended.reports name = true) :
    (AllocationPhase.add progress port).reports name = true := by
  unfold Progress.contended at reports
  split at reports
  · exact reports
  · split at reports
    · exact reports
    · contradiction

variable {lease : PortLease}

/-- An insert that went through reports its own listener besides. -/
theorem reports_added {progress : Progress} {port : Int}
    (inserts : progress.lease task node port = some lease)
    (reports : (progress.added port).reports name = true) :
    (AllocationPhase.add progress port).reports name = true ∨ name = lease.name := by
  unfold Progress.lease at inserts
  unfold Progress.added at reports
  split at reports
  · exact .inl reports
  · rename_i req rest todo
    rw [todo, List.head?_cons, Option.map_some, Option.some.injEq] at inserts
    subst inserts
    simp only [AllocationPhase.reports, List.any_append, List.any_cons,
      List.any_nil, Bool.or_false, Bool.or_eq_true, decide_eq_true_eq] at reports ⊢
    rcases reports with held | earlier | named
    · exact .inl (.inl held)
    · exact .inl (.inr earlier)
    · exact .inr named.symm

/-- What a run that meets the condition keeps. -/
structure BuildPorts.Sound (system : BuildPorts) : Prop where
  keyed : Table.Keyed LoopJob.id system.jobs
  chosen : ∀ call ∈ system.choosing,
    (Table.find LoopJob.id system.jobs call.1).isSome = true
  known : ∀ select ∈ system.selects,
    (Table.find LoopJob.id system.jobs select.job).isSome = true
  /-- No lease is left without a use or a call that is about to drop it. -/
  accounted : ∀ lease ∈ system.leases, ∀ task ∈ lease.task,
    accounted system.jobs system.trees system.selects system.closings task
      lease.node lease.name = true
  /-- What an allocation reports, of what is required, is stored. -/
  counted : ∀ select ∈ system.selects, stillQueued system.jobs select.job = true →
    ∀ name, select.requires name = true → select.phase.reports name = true →
      Leases.stored system.leases select.task select.node name = true

theorem empty_sound_ports : BuildPorts.empty.Sound :=
  ⟨Table.keyed_nil, nofun, nofun, nofun, nofun⟩

variable {system : BuildPorts}

/-- With no call in progress, a lease that is accounted for is owned. -/
theorem BuildPorts.Sound.owned (sound : system.Sound)
    (quiescent : system.Quiescent) : LeasesOwned system := by
  rcases quiescent with ⟨_, noSelects, noClosings⟩
  intro lease member task isTask
  have uses := sound.accounted lease member task isTask
  rw [noSelects, noClosings] at uses
  rcases accounted_iff.mp uses with tree | owner | releases | undoes
  · exact .inl tree
  · exact .inr owner
  · contradiction
  · contradiction

variable {before after : BuildPorts}

/-- A claim that wins finds its required listeners stored. -/
theorem BuildPorts.Sound.claimed {label : PortStep}
    (sound : before.Sound) (taken : before.step label = some after) :
    ClaimedWithPorts before label after := by
  cases label with
  | claimForExecutor index now =>
      intro select present queued
      rcases Option.bind_eq_some_iff.mp taken with ⟨current, found, rest⟩
      cases Option.some.inj (found.symm.trans present)
      cases phase : select.phase with
      | leased answer =>
          rw [phase] at rest
          cases rest
          intro port member required
          apply sound.counted select (List.mem_of_getElem? present) queued
            port.name required
          rw [phase]
          exact List.any_eq_true.mpr ⟨port, member, by simp⟩
      | _ => trivial
  | _ => trivial

/-- What accounts for a lease is not lost by a change to the other cards, or by
more rows and more calls. -/
theorem accounted_mono {jobs jobs' : List LoopJob}
    {trees trees' : TaskId → Option NodeId} {selects selects' : List Select}
    {closings closings' : List Closing}
    (before : accounted jobs trees selects closings task node name = true)
    (sameTree : trees' task = trees task) (jobsKept : ∀ job ∈ jobs, job ∈ jobs')
    (undone : undoing selects task node name = true →
      undoing selects' task node name = true)
    (released : releasing trees closings task node = true →
      releasing trees closings' task node = true) :
    accounted jobs' trees' selects' closings' task node name = true := by
  apply accounted_iff.mpr
  rcases accounted_iff.mp before with tree | ⟨job, present, owning⟩ | release | undo
  · exact .inl (sameTree.trans tree)
  · exact .inr (.inl ⟨job, jobsKept job present, owning⟩)
  · right; right; left
    rw [releasing_congr sameTree]
    exact released release
  · exact .inr (.inr (.inr (undone undo)))

/-- An UPDATE of one job keeps what a run keeps, as far as the leases are still
accounted for. -/
theorem BuildPorts.Sound.onJob (sound : system.Sound) (advances : Advances update) (id : JobId)
    (fewer : ∀ select ∈ selects, select ∈ system.selects)
    (uses : ∀ lease ∈ system.leases, ∀ task ∈ lease.task,
      Placement.accounted (onJob id update system.jobs) system.trees selects
        closings task lease.node lease.name = true) :
    BuildPorts.Sound
      { system with jobs := Placement.onJob id update system.jobs, selects, closings } where
  keyed := sound.keyed.update fun job _ => (advances.keeps job).1
  chosen := fun call member =>
    find_isSome_onJob advances (sound.chosen call member)
  known := fun select member =>
    find_isSome_onJob advances (sound.known select (fewer select member))
  accounted := uses
  counted := fun select member queued name required reported =>
    sound.counted select (fewer select member) (stillQueued_onJob advances queued)
      name required reported

/-- The listeners somebody counts on are stored still. -/
def keepsCounted (system : BuildPorts) (leases : List PortLease) : Prop :=
  ∀ select ∈ system.selects, ∀ name,
    select.countsOn system.jobs select.task select.node name = true →
    Leases.stored system.leases select.task select.node name = true →
    Leases.stored leases select.task select.node name = true

variable {leases : List PortLease}

theorem BuildPorts.Sound.counted_of_kept (sound : system.Sound)
    (kept : keepsCounted system leases) :
    ∀ select ∈ system.selects, stillQueued system.jobs select.job = true →
    ∀ name, select.requires name = true → select.phase.reports name = true →
      Leases.stored leases select.task select.node name = true := by
  intro select member queued name required reported
  apply kept select member name
  · simp only [Select.countsOn, queued, required, reported, decide_true, Bool.and_self]
  · exact sound.counted select member queued name required reported

/-- A change of the leases keeps what a run keeps, where nobody counts on what
it drops and the rest is accounted for. -/
theorem BuildPorts.Sound.onLeases (sound : system.Sound)
    (uses : ∀ lease ∈ leases, ∀ task ∈ lease.task,
      Placement.accounted system.jobs trees system.selects closings task lease.node
        lease.name = true)
    (kept : keepsCounted system leases) :
    BuildPorts.Sound { system with leases, trees, closings } where
  keyed := sound.keyed
  chosen := sound.chosen
  known := sound.known
  accounted := uses
  counted := sound.counted_of_kept kept

/-- An allocation's step keeps what a run keeps, where it reports no listener
that is not stored and the others' listeners stay. -/
theorem BuildPorts.Sound.onSelect (sound : system.Sound)
    {phase : AllocationPhase} (present : system.selects[index]? = some select)
    (uses : ∀ lease ∈ leases, ∀ task ∈ lease.task,
      Placement.accounted system.jobs system.trees
        (system.selects.set index { select with phase }) system.closings task
        lease.node lease.name = true)
    (kept : keepsCounted system leases)
    (reports : ∀ name, phase.reports name = true →
      select.phase.reports name = true ∨
        Leases.stored leases select.task select.node name = true) :
    BuildPorts.Sound
      { system with
        leases, selects := system.selects.set index { select with phase } } where
  keyed := sound.keyed
  chosen := sound.chosen
  known :=
    forall_mem_set sound.known (sound.known select (List.mem_of_getElem? present))
  accounted := uses
  counted := by
    have others := sound.counted_of_kept kept
    apply forall_mem_set others
    intro queued name required reported
    rcases reports name reported with before | already
    · exact others select (List.mem_of_getElem? present) queued name required before
    · exact already

/-- What is dropped is not what somebody counts on. -/
theorem dropped_of_counted {dropped : String → Bool}
    (nobody : nobodyCounts system select.task select.node dropped)
    (member : select ∈ system.selects)
    (counts : select.countsOn system.jobs select.task select.node name = true) :
    dropped name = false := by
  have required : select.requires name = true := by
    simp only [Select.countsOn, Bool.and_eq_true] at counts
    exact counts.1.2
  rcases List.any_eq_true.mp required with ⟨req, declared, named⟩
  rw [Bool.and_eq_true, decide_eq_true_eq] at named
  cases isDropped : dropped name with
  | false => rfl
  | true =>
      have missed := nobody select member req declared (by rw [named.1, isDropped])
      rw [named.1, counts] at missed
      contradiction

theorem keepsCounted_releaseByHolder {holder : LeaseHolder} (nobody : ∀ task, holder = .build task →
      nobodyCounts system task node fun _ => true) :
    keepsCounted system (Leases.releaseByHolder node holder system.leases) := by
  intro select member name counts was
  apply Leases.stored_releaseByHolder was
  intro both
  rcases both with ⟨rfl, mine⟩
  have isDropped := dropped_of_counted (nobody select.task mine.symm) member counts
  contradiction

theorem keepsCounted_releaseNames {names : List String}
    (nobody : nobodyCounts system task node names.contains) :
    keepsCounted system
      (Leases.releaseNames node (.build task) names system.leases) := by
  intro select member name counts was
  apply Leases.stored_releaseNames was
  intro here mine named
  cases mine
  subst here
  have isDropped := dropped_of_counted nobody member counts
  simp [named] at isDropped

/-- Nothing is counted on less than before when no listener is lost. -/
theorem keepsCounted_addLease (added : Leases.addLease lease system.leases = some leases) :
    keepsCounted system leases :=
  fun _ _ _ _ was => Leases.stored_addLease added was

theorem PortLease.task_eq_some :
    lease.task = some task ↔ lease.holder = .build task := by
  unfold PortLease.task
  cases lease.holder with
  | build | session => simp

/-- A lease that stays after a release is not one it was for. -/
theorem survives_releaseByHolder {card : TaskId}
    (member : lease ∈ Leases.releaseByHolder node (.build task) leases)
    (isCard : card ∈ lease.task) : ¬ (node = lease.node ∧ task = card) := by
  rintro ⟨here, rfl⟩
  have holder := PortLease.task_eq_some.mp isCard
  have stays := (List.mem_filter.mp member).2
  simp [holder, here] at stays

/-- A new job keeps what a run keeps. -/
theorem BuildPorts.Sound.create (sound : system.Sound) {now : Instant} {new : NewLoopJob}
    (fresh : Table.find LoopJob.id system.jobs new.id = none) :
    BuildPorts.Sound
      { system with jobs := system.jobs ++ [Jobs.Repo.create now new] } where
  keyed := sound.keyed.insert fresh
  chosen := by
    intro call member
    rw [Table.find_insert, Option.isSome_or]
    simp [sound.chosen call member]
  known := by
    intro select member
    rw [Table.find_insert, Option.isSome_or]
    simp [sound.known select member]
  accounted := fun lease member task isTask =>
    accounted_mono (sound.accounted lease member task isTask) rfl
      (fun _ => List.mem_append_left _) (fun undone => undone) fun released => released
  counted := fun select member queued =>
    sound.counted select member
      (stillQueued_create (sound.known select member) queued)

/-- A call that has chosen its node keeps what a run keeps: it has reported
nothing yet. -/
theorem BuildPorts.Sound.chooseNode (sound : system.Sound) {call : JobId × TaskId}
    {wanted : List PortRequirement} {range : Option PortRange}
    {exclusions : List Int} (present : system.choosing[index]? = some call) :
    BuildPorts.Sound
      { system with
        choosing := system.choosing.eraseIdx index
        selects := system.selects ++
          [{ job := call.1, task := call.2, node, reqs := wanted
             phase := allocateFor wanted range exclusions }] } where
  keyed := sound.keyed
  chosen := fun other member => sound.chosen other (List.mem_of_mem_eraseIdx member)
  known := by
    intro select member
    rcases List.mem_append.mp member with earlier | new
    · exact sound.known select earlier
    · rw [List.mem_singleton.mp new]
      exact sound.chosen call (List.mem_of_getElem? present)
  accounted := fun lease member task isTask =>
    accounted_mono (sound.accounted lease member task isTask) rfl
      (fun _ inJobs => inJobs)
      (fun undone => by rw [undoing_append, undone, Bool.true_or])
      fun released => released
  counted := by
    intro select member queued name required reported
    rcases List.mem_append.mp member with earlier | new
    · exact sound.counted select earlier queued name required reported
    · rw [List.mem_singleton.mp new] at reported
      rw [reports_allocateFor] at reported
      contradiction

/-- Unless the allocation undoes, it takes nothing from what accounts for a
lease. -/
theorem accounted_goesOn (present : system.selects[index]? = some select)
    (notUndo : ∀ takenHere refusal, select.phase ≠ .undo takenHere refusal)
    (next : Select)
    (before : accounted system.jobs system.trees system.selects system.closings
      task node name = true) :
    accounted system.jobs system.trees (system.selects.set index next)
      system.closings task node name = true :=
  accounted_mono before rfl (fun _ inJobs => inJobs)
    (undoing_set present next notUndo) fun released => released

section Allocation

variable {system : BuildPorts} {index : Nat} {select : Select}

/-- A phase that leaves the leases alone, and reports what is stored. -/
theorem BuildPorts.Sound.goesOn (sound : system.Sound)
    {phase : AllocationPhase} (present : system.selects[index]? = some select)
    (notUndo : ∀ takenHere refusal, select.phase ≠ .undo takenHere refusal)
    (among : ∀ lease ∈ leases, lease ∈ system.leases)
    (kept : keepsCounted system leases)
    (reports : ∀ name, phase.reports name = true →
      select.phase.reports name = true ∨
        Leases.stored leases select.task select.node name = true) :
    BuildPorts.Sound
      { system with
        leases, selects := system.selects.set index { select with phase } } := by
  apply sound.onSelect present
  · intro lease member task isTask
    apply accounted_goesOn present notUndo
    exact sound.accounted lease (among lease member) task isTask
  · exact kept
  · exact reports

/-- An insert that went through. -/
theorem BuildPorts.Sound.addLease (sound : system.Sound) {progress : Progress} {port : Int}
    (present : system.selects[index]? = some select)
    (isAdd : select.phase = .add progress port)
    (inserts : progress.lease select.task select.node port = some lease)
    (added : Leases.addLease lease system.leases = some leases)
    (uses : Placement.accounted system.jobs system.trees system.selects
      system.closings select.task select.node lease.name = true) :
    BuildPorts.Sound
      { system with
        leases
        selects := system.selects.set index
          { select with phase := progress.added port } } := by
  have notUndo : ∀ takenHere refusal, select.phase ≠ .undo takenHere refusal := by
    rw [isAdd]
    exact nofun
  have builds : lease.holder = .build select.task ∧ lease.node = select.node := by
    rcases Option.map_eq_some_iff.mp inserts with ⟨req, _, isLease⟩
    rw [← isLease]
    exact ⟨rfl, rfl⟩
  apply sound.onSelect present
  · intro row member task isTask
    apply accounted_goesOn present notUndo
    rcases Leases.mem_addLease added member with
      ⟨before, inLeases, holder, onNode, named⟩ | isNew
    · rw [onNode, named]
      apply sound.accounted before inLeases task
      rw [Option.mem_def, PortLease.task_eq_some] at isTask ⊢
      rw [← holder]
      exact isTask
    · have mine : task = select.task := by
        rw [isNew, PortLease.task, builds.1] at isTask
        exact (Option.mem_some_iff.mp isTask).symm
      rw [isNew, mine, builds.2]
      exact uses
  · exact keepsCounted_addLease added
  · intro name reported
    rw [isAdd]
    rcases reports_added inserts reported with before | named
    · exact .inl before
    · right
      rw [named, ← builds.2]
      exact Leases.stored_added added builds.1

/-- An undo of what no other allocation counts on. -/
theorem BuildPorts.Sound.undo (sound : system.Sound) {takenHere : List String}
    {refusal : Refusal} (present : system.selects[index]? = some select)
    (isUndo : select.phase = .undo takenHere refusal)
    (nobody : nobodyCounts system select.task select.node takenHere.contains) :
    BuildPorts.Sound
      { system with
        leases := Leases.releaseNames select.node (.build select.task) takenHere
          system.leases
        selects := system.selects.set index
          { select with phase := .refused refusal } } := by
  apply sound.onSelect present
  · intro lease member task isTask
    rcases List.mem_filter.mp member with ⟨inLeases, notNamed⟩
    apply accounted_iff.mpr
    rcases accounted_iff.mp (sound.accounted lease inLeases task isTask) with
      tree | owner | released | undone
    · exact .inl tree
    · exact .inr (.inl owner)
    · exact .inr (.inr (.inl released))
    · right; right; right
      unfold undoing at undone ⊢
      rw [any_eraseIdx present, isUndo] at undone
      rw [any_set present]
      rcases Bool.or_eq_true_iff.mp undone with mine | others
      · exfalso
        simp only [Bool.and_eq_true, decide_eq_true_eq] at mine
        rcases mine with ⟨⟨isCard, here⟩, named⟩
        subst isCard
        have holder := PortLease.task_eq_some.mp isTask
        have taken : lease.name ∈ takenHere := by simpa using named
        simp [holder, here, taken] at notNamed
      · rw [others, Bool.or_true]
  · exact keepsCounted_releaseNames nobody
  · intro name reported
    contradiction

/-- One await of an allocation keeps what a run keeps. -/
theorem BuildPorts.Sound.allocate (sound : system.Sound) {live : SessionId → Bool}
    {phase : AllocationPhase} (present : system.selects[index]? = some select)
    (moved : select.allocate live system.leases = some (leases, phase))
    (tended : ∀ after, Tended system (.allocate index live) after) :
    BuildPorts.Sound
      { system with
        leases, selects := system.selects.set index { select with phase } } := by
  have condition := tended system select present
  unfold Select.allocate at moved
  cases isPhase : select.phase with
  | readHeld range excluded =>
      rw [isPhase] at moved
      cases moved
      apply sound.goesOn present
      · rw [isPhase]
        exact nofun
      · exact fun _ member => member
      · exact fun _ _ _ _ was => was
      · intro name reported
        right
        simp only [AllocationPhase.reports, Progress.start, List.any_nil,
          Bool.or_false] at reported
        rcases List.any_eq_true.mp reported with ⟨port, member, named⟩
        rw [decide_eq_true_eq] at named
        rw [← named]
        exact Leases.stored_of_held member
  | listener progress =>
      rw [isPhase] at moved
      dsimp only at moved
      have notUndo : ∀ takenHere refusal, select.phase ≠ .undo takenHere refusal := by
        rw [isPhase]
        exact nofun
      have earlier : ∀ taken name, (progress.listen taken).reports name = true →
          select.phase.reports name = true := by
        intro taken name reported
        rw [isPhase]
        exact reports_listen reported
      split at moved
      · cases moved
        apply sound.goesOn present notUndo
        · exact fun _ => Leases.mem_of_mem_reclaim
        · intro other _ name _ was
          rw [Leases.stored_reclaim]
          exact was
        · exact fun name reported => .inl (earlier _ name reported)
      · cases moved
        apply sound.goesOn present notUndo
        · exact fun _ member => member
        · exact fun _ _ _ _ was => was
        · exact fun name reported => .inl (earlier _ name reported)
  | add progress port =>
      rw [isPhase] at moved condition
      dsimp only at moved condition
      rcases Option.map_eq_some_iff.mp moved with ⟨lease, inserts, result⟩
      cases added : Leases.addLease lease system.leases with
      | none =>
          rw [added] at result
          cases result
          apply sound.goesOn present
          · rw [isPhase]
            exact nofun
          · exact fun _ member => member
          · exact fun _ _ _ _ was => was
          · intro name reported
            left
            rw [isPhase]
            exact reports_contended reported
      | some after =>
          rw [added] at result
          cases result
          apply sound.addLease present isPhase inserts added
          apply condition lease inserts
          rw [added]
          rfl
  | undo takenHere refusal =>
      rw [isPhase] at moved condition
      cases moved
      exact sound.undo present isPhase condition
  | refused | leased =>
      rw [isPhase] at moved
      contradiction

end Allocation

/-- A job that hands its leases over, or to the ending of its run, leaves none
unaccounted for. -/
theorem accounted_handed (sound : system.Sound) {id : JobId} {ending : Bool}
    (hands : ∀ job ∈ Table.find LoopJob.id system.jobs id,
      ∀ row ∈ update job, handsOver system job row ending) (member : lease ∈ system.leases)
    (isTask : task ∈ lease.task) :
    (ending = true ∧ system.trees task = none ∧
      ∃ job ∈ Table.find LoopJob.id system.jobs id,
        buildTask job = some task ∧ job.executorNodeId = some lease.node) ∨
      accounted (onJob id update system.jobs) system.trees system.selects
        system.closings task lease.node lease.name = true := by
  have before := sound.accounted lease member task isTask
  cases found : Table.find LoopJob.id system.jobs id with
  | none =>
      right
      unfold onJob
      rw [Table.update_of_find_none found]
      exact before
  | some job =>
      apply accounted_onJob sound.keyed found before
      intro owned notOwned
      cases written : update job with
      | none =>
          rw [written, Option.getD_none, owned] at notOwned
          contradiction
      | some row =>
          rw [written, Option.getD_some] at notOwned
          rcases hands job found row written lease member task isTask owned notOwned
            with ended | left
          · left
            refine ⟨ended.1, ended.2.2, job, rfl, ?_, ended.2.1⟩
            unfold owns at owned
            rw [Bool.and_eq_true, decide_eq_true_eq] at owned
            exact owned.1
          · exact .inr left

/-- An UPDATE that is the last of its call keeps what a run keeps. -/
theorem BuildPorts.Sound.handed (sound : system.Sound) (advances : Advances update) {id : JobId}
    (fewer : ∀ select ∈ selects, select ∈ system.selects)
    (undone : ∀ task node name, undoing system.selects task node name = true →
      undoing selects task node name = true)
    (hands : ∀ job ∈ Table.find LoopJob.id system.jobs id,
      ∀ row ∈ update job, handsOver system job row false) :
    BuildPorts.Sound
      { system with jobs := Placement.onJob id update system.jobs, selects } := by
  apply sound.onJob advances id fewer
  intro lease member task isTask
  rcases accounted_handed sound hands member isTask with ended | after
  · exact absurd ended.1 (by simp)
  · exact accounted_mono after rfl (fun _ inJobs => inJobs) (undone _ _ _)
      fun released => released

/-- A reason for waiting changes nothing a job accounts for. -/
theorem handsOver_setQueuedReason {job row : LoopJob}
    {now : Instant} {reason : String} {kind : Option QueuedReason}
    (written : Jobs.Repo.setQueuedReason now reason kind job = some row) :
    handsOver system job row false := by
  rw [Jobs.Repo.setQueuedReason, Option.ite_none_right_eq_some] at written
  intro lease _ task _ owned notOwned
  rw [← Option.some.inj written.2] at notOwned
  exact absurd (owned.symm.trans notOwned) (by simp)

/-- A call in flight that goes on, or is over, keeps what a run keeps when it
was not about to release, or still is. -/
theorem releasing_advance {closing : Closing} {rest : List Closing}
    (present : closings[index]? = some closing)
    (goesOn : releasing trees [closing] task node = true → releasing trees rest task node = true)
    (was : releasing trees closings task node = true) :
    releasing trees (closings.eraseIdx index ++ rest) task node = true := by
  rw [releasing_append]
  unfold releasing at was goesOn ⊢
  rw [any_eraseIdx present] at was
  rcases Bool.or_eq_true_iff.mp was with mine | others
  · rw [goesOn (by rw [List.any_cons, List.any_nil, Bool.or_false, mine]),
      Bool.or_true]
  · rw [others, Bool.true_or]

section Endings

variable {system : BuildPorts} {index : Nat}

/-- The end of a run leaves the leases of its node to what the ending does
next. -/
theorem BuildPorts.Sound.closeChecked (sound : system.Sound) {id : JobId}
    {call : CheckedTransition} {now : Instant} {succeeds : Bool}
    (present : system.closings[index]? = some (.checked id call))
    (hands : ∀ job ∈ Table.find LoopJob.id system.jobs id,
      handsOver system job (Jobs.Repo.transition now call.target job)
        (isTerminal call.target)) :
    BuildPorts.Sound
      { ((Closing.checked id call).advance now succeeds system).1 with
        closings := system.closings.eraseIdx index ++
          ((Closing.checked id call).advance now succeeds system).2.toList } := by
  apply sound.onJob (advances_transition now call) id fun _ member => member
  intro lease member task isTask
  have written : ∀ job ∈ Table.find LoopJob.id system.jobs id,
      ∀ row ∈ some (Jobs.Repo.transition now call.target job),
        handsOver system job row (isTerminal call.target) := by
    intro job found row isRow
    rw [← Option.mem_some_iff.mp isRow]
    exact hands job found
  rcases accounted_handed sound written member isTask with
    ⟨terminal, noTree, job, found, isBuild, executor⟩ | after
  · apply accounted_iff.mpr
    right; right; left
    have reads : ((Closing.checked id call).advance now succeeds system).2 =
        some (.readTree lease.node task) := by
      unfold Closing.advance
      dsimp only
      rw [if_pos terminal, Option.mem_def.mp found, Option.bind_some, isBuild,
        Option.bind_some, executor, Option.map_some]
    rw [reads, releasing_append]
    simp [releasing, noTree]
  · exact accounted_mono after rfl (fun _ inJobs => inJobs) (fun undone => undone)
      (releasing_advance present fun mine => absurd mine (by simp [releasing]))

/-- A call that begins keeps what a run keeps. -/
theorem BuildPorts.Sound.calls (sound : system.Sound) (more : List Closing) :
    BuildPorts.Sound { system with closings := system.closings ++ more } := by
  apply sound.onLeases
  · intro lease member task isTask
    exact accounted_mono (sound.accounted lease member task isTask) rfl
      (fun _ inJobs => inJobs) (fun undone => undone)
      (fun released => by rw [releasing_append, released, Bool.true_or])
  · exact fun _ _ _ _ was => was

/-- A call that takes nothing away, and goes on to release what it was about
to. -/
theorem BuildPorts.Sound.closeReads (sound : system.Sound) {closing : Closing}
    {rest : List Closing} (present : system.closings[index]? = some closing)
    (goesOn : ∀ task node, releasing system.trees [closing] task node = true →
      releasing system.trees rest task node = true) :
    BuildPorts.Sound
      { system with closings := system.closings.eraseIdx index ++ rest } := by
  apply sound.onLeases
  · intro lease member task isTask
    exact accounted_mono (sound.accounted lease member task isTask) rfl
      (fun _ inJobs => inJobs) (fun undone => undone)
      (releasing_advance present (goesOn task lease.node))
  · exact fun _ _ _ _ was => was

/-- A release of what nobody counts on. -/
theorem BuildPorts.Sound.closeReleases (sound : system.Sound) {closing : Closing}
    {rest : List Closing} (present : system.closings[index]? = some closing)
    (isRelease : closing = .release node task ∨ closing = .releaseStack node task)
    (nobody : nobodyCounts system task node fun _ => true) :
    BuildPorts.Sound
      { system with
        leases := Leases.releaseByHolder node (.build task) system.leases
        closings := system.closings.eraseIdx index ++ rest } := by
  apply sound.onLeases
  · intro lease member card isCard
    have inLeases := List.mem_of_mem_filter member
    apply accounted_mono (sound.accounted lease inLeases card isCard) rfl
      (fun _ inJobs => inJobs) fun undone => undone
    apply releasing_advance present
    intro mine
    apply absurd _ (survives_releaseByHolder member isCard)
    rcases isRelease with rfl | rfl
    · simpa [releasing] using mine
    · simpa [releasing] using mine
  · apply keepsCounted_releaseByHolder
    intro card isCard
    cases isCard
    exact nobody

/-- A card's record of its worktree changes where its leases have another
use. -/
theorem BuildPorts.Sound.onTree (sound : system.Sound) {tree : Option NodeId}
    (outlasts : outlastTree system task tree)
    (still : ∀ trees card node,
      releasing trees system.closings card node = true →
      releasing trees closings card node = true) :
    BuildPorts.Sound
      { system with
        trees := Function.update system.trees task tree, closings } := by
  apply sound.onLeases
  · intro lease member card isCard
    by_cases mine : card = task
    · subst mine
      exact accounted_mono (outlasts lease member isCard) rfl
        (fun _ inJobs => inJobs) (fun undone => undone) (still _ _ _)
    · exact accounted_mono (sound.accounted lease member card isCard)
        (Function.update_of_ne mine _ _) (fun _ inJobs => inJobs)
        (fun undone => undone) (still _ _ _)
  · exact fun _ _ _ _ was => was

/-- Each await of an ending or a takedown keeps what a run keeps. -/
theorem BuildPorts.Sound.close (sound : system.Sound) {closing : Closing} {now : Instant}
    {succeeds : Bool} (present : system.closings[index]? = some closing)
    (tended : ∀ after, Tended system (.close index now succeeds) after) :
    BuildPorts.Sound
      { (closing.advance now succeeds system).1 with
        closings := system.closings.eraseIdx index ++
          (closing.advance now succeeds system).2.toList } := by
  have condition := tended system closing present
  cases closing with
  | checked id call => exact sound.closeChecked present condition
  | readTree node task =>
      apply sound.closeReads present
      intro card place mine
      simp only [releasing, List.any_cons, List.any_nil, Bool.or_false,
        Bool.and_eq_true, decide_eq_true_eq] at mine
      rcases mine with ⟨⟨rfl, rfl⟩, noTree⟩
      have none : (system.trees task).isSome = false := by simpa using noTree
      simp [Closing.advance, none, releasing]
  | release node task => exact sound.closeReleases present (.inl rfl) condition
  | checkRuns | stackDown =>
      apply sound.closeReads present
      intro card place mine
      contradiction
  | releaseStack node task => exact sound.closeReleases present (.inr rfl) condition
  | clearTree task =>
      have elsewhere : ∀ trees card place,
          releasing trees system.closings card place = true →
          releasing trees (system.closings.eraseIdx index ++ []) card place = true :=
        fun trees card place => releasing_advance present fun mine =>
          absurd mine (by simp [releasing])
      unfold Closing.advance
      dsimp only
      cases succeeds with
      | true => exact sound.onTree (condition rfl) elsewhere
      | false =>
          apply sound.closeReads present
          intro card place mine
          contradiction

end Endings

/-- A placement that begins is of a job that is there. -/
theorem BuildPorts.Sound.selectExecutor (sound : system.Sound) {id : JobId} {job : LoopJob}
    (found : Table.find LoopJob.id system.jobs id = some job) (task : TaskId) :
    BuildPorts.Sound { system with choosing := system.choosing ++ [(id, task)] } := by
  refine { sound with chosen := ?_ }
  intro call member
  rcases List.mem_append.mp member with earlier | new
  · exact sound.chosen call earlier
  · rw [List.mem_singleton.mp new, found]
    rfl

/-- A placement that undoes nothing ends with its last write to the job. -/
theorem BuildPorts.Sound.decides (sound : system.Sound)
    (present : system.selects[index]? = some select)
    (notUndo : ∀ takenHere refusal, select.phase ≠ .undo takenHere refusal)
    (advances : Advances update)
    (hands : ∀ job ∈ Table.find LoopJob.id system.jobs select.job, ∀ row ∈ update job,
      handsOver system job row false) :
    BuildPorts.Sound
      { system with
        jobs := Placement.onJob select.job update system.jobs
        selects := system.selects.eraseIdx index } := by
  apply sound.handed advances
  · exact fun _ => List.mem_of_mem_eraseIdx
  · intro task node name undone
    rw [undoing_eraseIdx present notUndo]
    exact undone
  · exact hands

theorem BuildPorts.Sound.loadTransition (sound : before.Sound) {id : JobId} {target : JobState}
    (taken : before.step (.loadTransition id target) = some after) : after.Sound := by
  rcases Option.ite_none_left_eq_some.mp taken with ⟨_, loads⟩
  rcases Option.bind_eq_some_iff.mp loads with ⟨job, _, rest⟩
  cases checked : checkTransition job target with
  | proceed call =>
      rw [checked] at rest
      cases rest
      exact sound.calls _
  | unchanged | illegal =>
      rw [checked] at rest
      cases rest
      exact sound

/-- A takedown reads the card's worktree first. -/
theorem BuildPorts.Sound.takesDown (sound : before.Sound) {closing : NodeId → Closing}
    (taken : (match before.trees task with
      | none => some before
      | some node => some { before with closings := before.closings ++ [closing node] }) =
        some after) : after.Sound := by
  split at taken
  · cases taken
    exact sound
  · cases taken
    exact sound.calls _

theorem BuildPorts.Sound.recordWorktree (sound : before.Sound)
    {id : JobId} (taken : before.step (.recordWorktree id node) = some after)
    (tended : Tended before (.recordWorktree id node) after) : after.Sound := by
  rcases Option.bind_eq_some_iff.mp taken with ⟨job, found, rest⟩
  split at rest
  case isTrue executor =>
    cases target : job.targetTaskId with
    | none =>
        rw [target] at rest
        cases rest
        exact sound
    | some task =>
        rw [target] at rest
        cases rest
        exact sound.onTree (tended job found executor task target) fun _ _ _ released => released
  case isFalse =>
    cases rest
    exact sound

/-- A lease of a session is no card's. -/
theorem BuildPorts.Sound.sessionLease (sound : system.Sound)
    {session : SessionId} {name env : String} {port : Int} :
    BuildPorts.Sound
      { system with
        leases :=
          (Leases.addLease { holder := .session session, node, name, env, port }
            system.leases).getD system.leases } := by
  cases added : Leases.addLease
      { holder := .session session, node, name, env, port } system.leases with
  | none => exact sound
  | some leases =>
      apply sound.onLeases
      · intro row member task isTask
        rcases Leases.mem_addLease added member with
          ⟨lease, inLeases, holder, onNode, named⟩ | isNew
        · rw [onNode, named]
          apply sound.accounted lease inLeases task
          rw [Option.mem_def, PortLease.task_eq_some] at isTask ⊢
          rw [← holder]
          exact isTask
        · rw [isNew] at isTask
          contradiction
      · exact keepsCounted_addLease added

/-- A step that meets the condition keeps what a run keeps. -/
theorem BuildPorts.Sound.step {label : PortStep}
    (sound : before.Sound) (taken : before.step label = some after)
    (tended : Tended before label after) : after.Sound := by
  have always : ∀ other, Tended before label other := fun _ => tended
  cases label with
  | create now new =>
      rcases Option.ite_none_left_eq_some.mp taken with ⟨isNew, created⟩
      cases created
      exact sound.create (by simpa using isNew)
  | selectExecutor id =>
      rcases Option.bind_eq_some_iff.mp taken with ⟨job, found, rest⟩
      rcases Option.map_eq_some_iff.mp rest with ⟨task, _, rfl⟩
      split
      · exact sound.selectExecutor found task
      · exact sound
  | chooseNode index node reqs range exclusions =>
      rcases Option.bind_eq_some_iff.mp taken with ⟨call, present, rest⟩
      rcases Option.ite_none_left_eq_some.mp rest with ⟨_, chosen⟩
      cases chosen
      exact sound.chooseNode present
  | allocate index live =>
      rcases Option.bind_eq_some_iff.mp taken with ⟨select, present, rest⟩
      rcases Option.map_eq_some_iff.mp rest with ⟨next, moved, rfl⟩
      exact sound.allocate present moved always
  | leaveQueued index now reason kind =>
      rcases Option.bind_eq_some_iff.mp taken with ⟨select, present, rest⟩
      cases isPhase : select.phase with
      | refused refusal =>
          rw [isPhase] at rest
          cases rest
          apply sound.decides present (by rw [isPhase]; exact nofun)
            (advances_setQueuedReason now reason kind)
          exact fun job _ row written => handsOver_setQueuedReason written
      | _ =>
          rw [isPhase] at rest
          contradiction
  | claimForExecutor index now =>
      rcases Option.bind_eq_some_iff.mp taken with ⟨select, present, rest⟩
      cases isPhase : select.phase with
      | leased answer =>
          rw [isPhase] at rest
          cases rest
          exact sound.decides present (by rw [isPhase]; exact nofun)
            (advances_claimForExecutor now select.node) (tended select present)
      | _ =>
          rw [isPhase] at rest
          contradiction
  | loadTransition id target => exact sound.loadTransition taken
  | close index now succeeds =>
      rcases Option.map_eq_some_iff.mp taken with ⟨closing, present, rfl⟩
      exact sound.close present always
  | write id update =>
      cases taken
      exact sound.handed (advances_write update) (fun _ member => member)
        (fun _ _ _ undone => undone) tended
  | reapForTask | pruneWorktree => exact sound.takesDown taken
  | releaseLease node holder =>
      cases taken
      apply sound.onLeases
      · intro lease member task isTask
        exact sound.accounted lease (List.mem_of_mem_filter member) task isTask
      · exact keepsCounted_releaseByHolder tended
  | recordWorktree id node => exact sound.recordWorktree taken tended
  | sessionLease session node name env port =>
      cases taken
      exact sound.sessionLease

/-- Along every run that meets the condition, each claim that wins finds its
required listeners leased still, and no lease of a card is left over whenever
no call is in progress. -/
theorem ports_hold (labels : List PortStep) (tended : Along BuildPorts.step Tended .empty labels) :
    Along BuildPorts.step PortsHold .empty labels := by
  apply tended.of_invariant BuildPorts.Sound
  · exact fun _ _ _ sound taken condition => sound.step taken condition
  · intro before label after sound taken condition
    exact ⟨sound.claimed taken, (sound.step taken condition).owned⟩
  · exact empty_sound_ports

instance (system : BuildPorts) : Decidable system.Quiescent :=
  inferInstanceAs (Decidable (_ ∧ _ ∧ _))

instance (system : BuildPorts) : Decidable (LeasesOwned system) :=
  inferInstanceAs (Decidable (∀ lease ∈ system.leases, ∀ task ∈ lease.task,
    system.trees task = some lease.node ∨
      ∃ job ∈ system.jobs, owns task lease.node job = true))

instance ClaimedWithPorts.decidable :
    ∀ before label after, Decidable (ClaimedWithPorts before label after)
  | before, .claimForExecutor index _, after => by
      have (select : Select) : Decidable
          (stillQueued before.jobs select.job = true →
            match select.phase with
            | .leased answer =>
                ∀ port ∈ answer.ports, select.requires port.name = true →
                  Leases.stored after.leases select.task select.node port.name = true
            | _ => True) := by
        cases select.phase <;> exact inferInstance
      exact inferInstanceAs (Decidable (∀ select ∈ before.selects[index]?, _))
  | _, .create _ _, _ | _, .selectExecutor _, _ | _, .chooseNode _ _ _ _ _, _
  | _, .allocate _ _, _ | _, .leaveQueued _ _ _ _, _ | _, .loadTransition _ _, _
  | _, .close _ _ _, _ | _, .write _ _, _ | _, .reapForTask _, _
  | _, .pruneWorktree _, _ | _, .releaseLease _ _, _ | _, .recordWorktree _ _, _
  | _, .sessionLease _ _ _ _ _, _ => isTrue trivial

instance (system : BuildPorts) (job job' : LoopJob) (ending : Bool) :
    Decidable (handsOver system job job' ending) :=
  inferInstanceAs (Decidable (∀ lease ∈ system.leases, ∀ task ∈ lease.task,
    owns task lease.node job = true → owns task lease.node job' = false → _ ∨ _))

instance (system : BuildPorts) (task : TaskId) (tree : Option NodeId) :
    Decidable (outlastTree system task tree) :=
  inferInstanceAs (Decidable (∀ lease ∈ system.leases, _ → _))

instance (system : BuildPorts) (task : TaskId) (node : NodeId)
    (dropped : String → Bool) : Decidable (nobodyCounts system task node dropped) :=
  inferInstanceAs (Decidable (∀ select ∈ system.selects, ∀ req ∈ select.reqs, _ → _))

instance Tended.decidable : ∀ before label after, Decidable (Tended before label after)
  | before, .allocate index _, _ => by
      unfold Tended
      have (select : Select) : Decidable
          (match select.phase with
          | .add progress port =>
              ∀ lease ∈ progress.lease select.task select.node port,
                (Leases.addLease lease before.leases).isSome = true →
                accounted before.jobs before.trees before.selects before.closings
                  select.task select.node lease.name = true
          | .undo takenHere _ =>
              nobodyCounts before select.task select.node takenHere.contains
          | _ => True) := by
        cases select.phase <;> exact inferInstance
      exact inferInstance
  | before, .claimForExecutor _ _, _ | before, .write _ _, _
  | before, .recordWorktree _ _, _ => by
      unfold Tended
      exact inferInstance
  | before, .close index now succeeds, _ => by
      unfold Tended
      have (closing : Closing) : Decidable
          (match closing with
          | .checked id call =>
              ∀ job ∈ Table.find LoopJob.id before.jobs id,
                handsOver before job (Jobs.Repo.transition now call.target job)
                  (isTerminal call.target)
          | .release node task | .releaseStack node task =>
              nobodyCounts before task node fun _ => true
          | .clearTree task => succeeds = true → outlastTree before task none
          | .readTree _ _ | .checkRuns _ _ | .stackDown _ _ => True) := by
        cases closing <;> exact inferInstance
      exact inferInstance
  | before, .releaseLease node (.build task), _ =>
      if nobody : nobodyCounts before task node fun _ => true then
        isTrue fun _ isBuild => by cases isBuild; exact nobody
      else isFalse fun all => nobody (all task rfl)
  | _, .releaseLease _ (.session _), _ => isTrue nofun
  | _, .create _ _, _ | _, .selectExecutor _, _ | _, .chooseNode _ _ _ _ _, _
  | _, .leaveQueued _ _ _ _, _ | _, .loadTransition _ _, _ | _, .reapForTask _, _
  | _, .pruneWorktree _, _ | _, .sessionLease _ _ _ _ _, _ => isTrue trivial

/-- A build job of card 4. -/
def newBuild (id : JobId) : NewLoopJob :=
  { id, tenant := 1, kind := .build, targetTaskId := some 4, workspaceId := some 3
    requestedBy := 2, seed := none, predecessorJobId := none
    reviewPrNumber := none, reviewHeadSha := none, reviewForced := false
    buildFingerprint := none }

/-- A listener the workspace requires. -/
def requiredListener (name : String) : PortRequirement :=
  { name, env := "PORT", required := true, runtimes := [] }

/-- The start of a placement on node 7, which leases two ports. -/
def choosesNode (listeners : List String) : List PortStep :=
  [.selectExecutor 1,
    .chooseNode 0 7 (listeners.map requiredListener)
      (some { start := 4000, last := 4001 }) []]

/-- So many awaits of the allocation of a call in progress. -/
def allocates (select awaits : Nat) : List PortStep :=
  List.replicate awaits (.allocate select fun _ => true)

/-- Two replicas place a build on node 7 at once with its one listener, which the
second finds leased by the first.  One claims the job and the other is too late, and
another job of the card is canceled while it waits. -/
def placesTwice : List PortStep :=
  .create 0 (newBuild 2) :: .create 0 (newBuild 1) :: choosesNode ["web"] ++
    choosesNode ["web"] ++ allocates 0 3 ++ allocates 1 2 ++ allocates 0 1 ++ allocates 1 1 ++
    [.claimForExecutor 0 5, .claimForExecutor 0 6, .loadTransition 2 .canceled,
      .close 0 7 true]

/-- The condition is met where two placements come to the same ports one after the
other. -/
theorem ports_hold_placed :
    (run BuildPorts.step .empty placesTwice).isSome = true ∧
      Along BuildPorts.step PortsHold .empty placesTwice := by
  exact ⟨rfl, ports_hold placesTwice (by decide)⟩

/-- Two replicas place the job on one node at once.  The second moves the
listener the first took to the other port and takes the first's port for its
next, so that the first is refused, and its undo drops the listener both
count on.  Elsewhere a job is canceled between its leases and its claim. -/
theorem ports_not_held :
    ¬ Along BuildPorts.step ClaimedWithPorts .empty
        (.create 0 (newBuild 1) :: choosesNode ["web", "api"] ++
          choosesNode ["web", "api"] ++ allocates 0 1 ++ allocates 1 1 ++
          allocates 0 2 ++ allocates 1 5 ++ allocates 0 2 ++
          [.claimForExecutor 1 5]) ∧
      ¬ Along BuildPorts.step (fun _ _ after => after.Quiescent → LeasesOwned after)
        .empty
        (.create 0 (newBuild 1) :: choosesNode ["web"] ++ allocates 0 4 ++
          [.loadTransition 1 .canceled, .close 0 3 true, .claimForExecutor 0 5]) := by
  decide

end NookOs.Placement
