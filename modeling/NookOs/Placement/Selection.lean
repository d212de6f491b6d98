/-
Module: NookOs.Placement.Selection
Purpose: One `select_executor` call run alone: the choice of a node, the gates after the
  choice, and which jobs the call places and which it leaves waiting.
Trusted boundary: the derived deserializers, and how Postgres prints a JSON value
Main exports: World, selectExecutor, Passes, selectExecutor_cases, selectExecutor_settles
-/
import NookOs.Placement.Allocation
import NookOs.Placement.Gates

namespace NookOs.Placement.Selection

open Lib Jobs
open Gates (Outside Node User Json PersonId)

section Data

/-- What a card records of its worktree. -/
structure Card where
  worktreePath : Option String
  worktreeNodeId : Option NodeId
deriving DecidableEq

structure Workspace where
  buildLoopEnabled : Bool
  buildLoopNodeId : Option NodeId
  portRequirements : Option Json

/-- The tables a placement reads and writes, and the sessions that are live. -/
structure World where
  jobs : List LoopJob
  personOf : UserId → Option PersonId
  emailOf : UserId → Option String
  users : List User
  nodes : List Node
  cards : TenantId → TaskId → Option Card
  workspaces : TenantId → WorkspaceId → Option Workspace
  live : SessionId → Bool
  leases : List PortLease

inductive ApiError where
  | notFound
  | database
deriving DecidableEq

/-- The runtime every loop job runs. -/
def loopRuntime : String := "claude"

/-- Why a job may only run on one node. -/
inductive Pin where
  | worktree
  | buildLoop
deriving DecidableEq

def Pin.waitingFor (node : String) : Pin → String
  | worktree =>
      "waiting for node " ++ node ++ ", which holds this card's worktree — it is offline " ++
        "or not eligible right now. Prune the worktree from the card to release it."
  | buildLoop =>
      "waiting for node " ++ node ++ ", this repo's pinned build-loop node — it is offline " ++
        "or not eligible right now. A pin never fails over to another machine; " ++
        "unpin it (\x60nook builds loop <workspace> --node none\x60) to place this " ++
        "anywhere eligible."

/-- What the walk over the candidates has met. -/
structure Blocked where
  capacity : Bool := false
  trulyFull : Bool := false
  pausedHolding : Option (String × Nat) := none
  cordoned : List String := []
  unsandboxed : Option (String × String) := none
  lowOnDisk : Option (String × String) := none
deriving DecidableEq

end Data

section Reads

variable (outside : Outside) (world : World)

def load (tenant : TenantId) (id : JobId) : Option LoopJob :=
  (Table.find LoopJob.id world.jobs id).filter fun job => job.tenantId = tenant

/-- The name of a node, or its id. -/
def nodeName (node : NodeId) : String :=
  ((Gates.Repo.byId world.nodes node).map Node.name).getD (toString node)

/-- The card's worktree first, then the node of a build loop that is on. -/
def pinnedNode (tenant : TenantId) (job : LoopJob) : Option (NodeId × Pin) :=
  if job.kind ≠ .build then none
  else
    let tree : Option NodeId := do
      let card ← world.cards tenant (← job.targetTaskId)
      let _ ← card.worktreePath
      card.worktreeNodeId
    match tree with
    | some node => some (node, .worktree)
    | none => do
        let workspace ← world.workspaces tenant (← job.workspaceId)
        if workspace.buildLoopEnabled then workspace.buildLoopNodeId.map (·, .buildLoop) else none

/-- The node wears what the kind's selector asks for. -/
def wearsLabels (kind : JobKind) (node : NodeId) : Bool :=
  match Gates.placementSelector kind with
  | none => true
  | some selector =>
      (Gates.Repo.byId world.nodes node).any fun row =>
        selector.all fun (key, value) => Gates.placementOf row key = some value

/-- The node rows as capacities. -/
def fleet : Fleet := fun node => (Gates.Repo.byId world.nodes node).map Gates.capacityRow

def nodeCordon (node : NodeId) : Option Agent.NodeCordon :=
  (Gates.Repo.byId world.nodes node).bind (Gates.nodeCordon outside)

def sandboxRefusal (node : NodeId) : Option String :=
  (Gates.Repo.byId world.nodes node).bind fun row => Gates.sandboxRefusal outside row.capabilities

def diskRefusal (node : NodeId) : Option String :=
  (Gates.Repo.byId world.nodes node).bind fun row => Gates.diskRefusal row.resources

/-- The walk over the candidates, up to the first that nothing speaks against. -/
def choose : List NodeId → Blocked → Except Blocked NodeId
  | [], blocked => .error blocked
  | node :: rest, blocked =>
      let name := nodeName world node
      match nodeCordon outside world node with
      | some cordon =>
          choose rest
            { blocked with cordoned := blocked.cordoned ++ [name ++ " (" ++ cordon.reason ++ ")"] }
      | none =>
          match sandboxRefusal outside world node with
          | some detail =>
              choose rest
                { blocked with unsandboxed := blocked.unsandboxed.or (some (name, detail)) }
          | none =>
              match diskRefusal world node with
              | some detail =>
                  choose rest
                    { blocked with lowOnDisk := blocked.lowOnDisk.or (some (name, detail)) }
              | none =>
                  let cap := (fleet world).capacity node
                  if cap = 0 then
                    choose rest { blocked with capacity := true, trulyFull := true }
                  else
                    let held := Placement.Repo.heldOnNode node world.jobs
                    if cap ≤ held.total then
                      if Gates.onlyPausedBlocks held cap then
                        choose rest
                          { blocked with
                            capacity := true
                            pausedHolding :=
                              blocked.pausedHolding.or (some (name, held.waitingOnHuman.length)) }
                      else choose rest { blocked with capacity := true, trulyFull := true }
                    else .ok node

end Reads

section Reasons

variable (world : World) (tenant : TenantId) (person : PersonId)

def onlineCount (test : Node → Bool) : Nat :=
  world.nodes.countP fun node => node.online && test node

/-- A node of a member of the tenant that is homed elsewhere. -/
def memberElsewhere (node : Node) : Bool :=
  node.tenantId ≠ tenant && !Gates.sharedOperatorClause node &&
    world.users.any fun user =>
      user.tenantId = tenant && user.personId.isSome && user.personId = node.ownerPersonId

def noExecutorReason (requestedBy : UserId) (kind : JobKind) : String :=
  let owned (node : Node) : Bool := node.ownerPersonId = some person
  let ownedHere := onlineCount world fun node => node.tenantId = tenant && owned node
  let ownedElsewhere := onlineCount world fun node =>
    node.tenantId ≠ tenant && owned node && !Gates.sharedOperatorClause node
  let operatorsElsewhere := onlineCount world fun node =>
    node.tenantId ≠ tenant && owned node && Gates.sharedOperatorClause node
  let operatorOnline := onlineCount world fun node =>
    node.tenantId = tenant && Gates.sharedOperatorClause node
  let membersConsenting := onlineCount world fun node =>
    memberElsewhere world tenant node && node.crossTenant
  let membersDeclining := onlineCount world fun node =>
    memberElsewhere world tenant node && !node.crossTenant
  let ownedOnline := ownedHere + ownedElsewhere
  let kind := Gates.kindText kind
  let whose := " (this run was raised as " ++
    (world.emailOf requestedBy).getD "the tenant's owner" ++ ")"
  if ownedOnline = 0 ∧ membersConsenting = 0 ∧ 0 < membersDeclining then
    "no eligible executor: " ++ toString membersDeclining ++
      " online machine(s) belonging to members of this tenant have withdrawn cross-tenant " ++
      "consent, and nothing else is available. Set \x60cross_tenant\x60 back on one of them, " ++
      "or join a node to this tenant" ++ whose
  else if ownedOnline = 0 ∧ 0 < operatorsElsewhere then
    let here :=
      if operatorOnline = 0 then "and this tenant has none of its own"
      else
        "and this tenant's own is not authorized for the " ++ loopRuntime ++
          " runtime or does not accept " ++ kind ++ " jobs"
    "no eligible executor: your only online node(s) are shared operators in another of " ++
      "your tenants, and a shared operator serves only the tenant it was joined to — " ++ here ++
      ". Join a node to this tenant, or raise the " ++ kind ++
      " job in the tenant that has the operator"
  else
    match ownedOnline, operatorOnline with
    | 0, 0 =>
        "no eligible executor: you have no node online and no shared operator is available" ++ whose
    | 0, _ =>
        "no eligible executor: you have no node online, and the shared operator is not " ++
          "authorized for the " ++ loopRuntime ++ " runtime or does not accept " ++ kind ++
          " jobs" ++ whose
    | _, 0 =>
        "no eligible executor: your online node(s) are not authorized for the " ++ loopRuntime ++
          " runtime or do not accept " ++ kind ++ " jobs, and no shared operator is available"
    | _, _ =>
        "no eligible executor: no online node (yours or the shared operator) is authorized for " ++
          "the " ++ loopRuntime ++ " runtime, or none of them accepts " ++ kind ++ " jobs"

/-- The sentence and the gate of a walk that chose nobody. -/
def Blocked.reason (job : LoopJob) (labelFilteredAll : Bool) (blocked : Blocked) :
    String × Option QueuedReason :=
  if blocked.cordoned ≠ [] then
    ("no eligible executor: cordoned — " ++ "; ".intercalate blocked.cordoned ++
      (if blocked.capacity then "; the rest are at their loop-job capacity" else ""), none)
  else if blocked.capacity then
    match blocked.pausedHolding.filter fun _ => !blocked.trulyFull with
    | some (name, paused) =>
        ("no eligible executor: " ++ name ++ " is at its loop-job capacity, and " ++
          toString paused ++ " " ++ (if paused = 1 then "job is" else "jobs are") ++
          " paused waiting on a human's answer — a paused run keeps its container, " ++
          "so answering or cancelling it is what frees the slot",
          some (.waitingOnHuman name paused))
    | none =>
        ("no eligible executor: every eligible node is at its loop-job capacity",
          some .atCapacity)
  else
    match blocked.unsandboxed with
    | some (name, detail) =>
        ("no eligible executor: " ++ name ++ " cannot confine a loop-job agent to its own " ++
          "container, so it will not run one — " ++ detail, some (.sandboxUnavailable name detail))
    | none =>
        match blocked.lowOnDisk with
        | some (name, detail) =>
            ("no eligible executor: " ++ name ++ " is too low on disk to take loop work — " ++
              detail, some (.diskUnavailable name detail))
        | none =>
            if job.kind = .build ∧ labelFilteredAll = true then
              ("no eligible executor: no online eligible node carries the role=build label" ++
                "              — set it on a node that may build (Nodes page edits labels)",
                some (.noRoleLabel Gates.buildLabel))
            else (noExecutorReason world tenant person job.requestedBy job.kind, none)

end Reasons

section Call

variable (outside : Outside) (now : Instant) (world : World) (tenant : TenantId)

/-- Record why a job stays queued, and read it back. -/
def setQueuedReason (id : JobId) (reason : String) (kind : Option QueuedReason) :
    World × Except ApiError LoopJob :=
  let after :=
    { world with jobs := onJob id (Jobs.Repo.setQueuedReason now reason kind) world.jobs }
  (after,
    match Table.find LoopJob.id after.jobs id with
    | some job => .ok job
    | none => .error .notFound)

/-- The requirements in force for a workspace. -/
def requirementsOf (workspace : Option WorkspaceId) : List PortRequirement :=
  match workspace with
  | none => []
  | some id =>
      match (world.workspaces tenant id).bind Workspace.portRequirements with
      | none => Gates.defaultRequirements
      | some raw => (outside.requirements raw).getD Gates.defaultRequirements

/-- What the allocation of a job's ports reads and writes. -/
def leaseRows (workspace : Option WorkspaceId) : Allocation.Rows where
  requirements := requirementsOf outside world tenant workspace
  range := Gates.rangeOf world.nodes
  exclusions := Gates.exclusionsOf world.nodes
  live := world.live
  leases := world.leases

/-- Only a build with a card has ports to lease. -/
def leaseBuildPorts (job : LoopJob) (node : NodeId) :
    World × Except ApiError (Option Refusal) :=
  if job.kind ≠ .build then (world, .ok none)
  else
    match job.targetTaskId with
    | none => (world, .ok none)
    | some task =>
        let (rows, leased) := Allocation.alone (Allocation.leaseForBuild node task).run
          (leaseRows outside world tenant job.workspaceId)
        ({ world with leases := rows.leases },
          match leased with
          | .ok (.ok _) => .ok none
          | .ok (.error refusal) => .ok (some refusal)
          | .error _ => .error .database)

/-- The gates after the choice, and the claim. -/
def claimOn (job : LoopJob) (node : NodeId) : World × Except ApiError LoopJob :=
  match Gates.kindWallRefusal world.nodes node job.kind with
  | some refusal => setQueuedReason now world job.id refusal (some (.kindWallRefusal job.kind))
  | none =>
      match leaseBuildPorts outside world tenant job node with
      | (after, .error failure) => (after, .error failure)
      | (after, .ok (some refusal)) =>
          setQueuedReason now after job.id
            ("waiting for a port on " ++ nodeName after node ++ ": " ++ refusal.message)
            (some (.portsUnavailable refusal.listener refusal.env))
      | (after, .ok none) =>
          let claimed :=
            { after with jobs := onJob job.id (Jobs.Repo.claimForExecutor now node) after.jobs }
          (claimed,
            match Table.find LoopJob.id claimed.jobs job.id with
            | some row => .ok row
            | none => .error .notFound)

/-- Place a queued job on an eligible executor, or leave it queued with the reason. -/
def selectExecutor (id : JobId) : World × Except ApiError LoopJob :=
  match load world tenant id with
  | none => (world, .error .notFound)
  | some job =>
      if job.state ≠ .queued then (world, .ok job)
      else
        match world.personOf job.requestedBy with
        | none =>
            setQueuedReason now world id "the requester has no person identity"
              (some .noPersonIdentity)
        | some person =>
            match Gates.Repo.eligibleLoopExecutors outside.engines world.nodes world.users tenant
              person loopRuntime job.kind with
            | .error _ => (world, .error .database)
            | .ok found =>
                let pinned := pinnedNode world tenant job
                let candidates :=
                  match pinned with
                  | some (node, _) => found.filter (· = node)
                  | none => found
                match pinned, candidates with
                | some (node, pin), [] =>
                    setQueuedReason now world id (pin.waitingFor (nodeName world node))
                      (some (.pinnedNodeUnavailable (nodeName world node)))
                | _, _ =>
                    let kept := candidates.filter (wearsLabels world job.kind)
                    match choose outside world kept {} with
                    | .error blocked =>
                        let (reason, kind) := blocked.reason world tenant person job
                          (candidates ≠ [] ∧ kept = [])
                        setQueuedReason now world id reason kind
                    | .ok node => claimOn outside now world tenant job node

end Call

section Properties

variable (outside : Outside) (now : Instant) (world : World) (tenant : TenantId) (job : LoopJob)

/-- The nodes the query offers a job, in its order. -/
def candidates : List NodeId :=
  match world.personOf job.requestedBy with
  | none => []
  | some person =>
      (Gates.Repo.eligibleLoopExecutors outside.engines world.nodes world.users tenant person
        loopRuntime job.kind).toOption.getD []

/-- No pin, or a pin to this node. -/
def pinAdmits (node : NodeId) : Bool :=
  (pinnedNode world tenant job).all fun pinned => pinned.1 = node

/-- The gates of the walk: cordon, sandbox, disk and capacity. -/
def nothingAgainst (node : NodeId) : Bool :=
  nodeCordon outside world node = none && sandboxRefusal outside world node = none &&
    diskRefusal world node = none && hasRoom (fleet world) world.jobs node

/-- The gates before the choice. -/
def comesThrough (node : NodeId) : Bool :=
  pinAdmits world tenant job node && wearsLabels world job.kind node &&
    nothingAgainst outside world node

/-- A candidate that passes every gate. -/
structure Passes (node : NodeId) : Prop where
  isCandidate : node ∈ candidates outside world tenant job
  pin : ∀ pinned, pinnedNode world tenant job = some pinned → pinned.1 = node
  labels : wearsLabels world job.kind node = true
  cordon : nodeCordon outside world node = none
  sandbox : sandboxRefusal outside world node = none
  disk : diskRefusal world node = none
  capacity : hasRoom (fleet world) world.jobs node = true
  wall : Gates.kindWallRefusal world.nodes node job.kind = none
  ports : (leaseBuildPorts outside world tenant job node).2 = .ok none

/-- The job is placed where it can be, and when it cannot it waits and holds nothing. -/
structure Complete (final : World) : Prop where
  placed : (∃ node, Passes outside world tenant job node) →
    ∃ node row, Passes outside world tenant job node ∧
      Table.find LoopJob.id final.jobs job.id = some row ∧ row.state = .claimed ∧
      row.executorNodeId = some node
  waits : (¬ ∃ node, Passes outside world tenant job node) →
    (∃ row, Table.find LoopJob.id final.jobs job.id = some row ∧ row.state = .queued) ∧
      ∀ lease ∈ final.leases, lease ∈ world.leases

/-- The first candidate, in the query's order, to come through the gates before the choice. -/
def Chosen (node : NodeId) : Prop :=
  ∃ front back, candidates outside world tenant job = front ++ node :: back ∧
    (∀ earlier ∈ front, comesThrough outside world tenant job earlier = false) ∧
    comesThrough outside world tenant job node = true

/-- The job is placed on the chosen node when that passes every gate, and else it waits and
holds nothing. -/
structure Settles (final : World) : Prop where
  placed : ∀ node, Chosen outside world tenant job node → Passes outside world tenant job node →
    ∃ row, Table.find LoopJob.id final.jobs job.id = some row ∧ row.state = .claimed ∧
      row.executorNodeId = some node
  waits : (∀ node, Chosen outside world tenant job node →
      ¬ Passes outside world tenant job node) →
    (∃ row, Table.find LoopJob.id final.jobs job.id = some row ∧ row.state = .queued) ∧
      ∀ lease ∈ final.leases, lease ∈ world.leases

end Properties

/-! ### The walk -/

section Choice

variable {outside : Outside} {now : Instant} {world : World} {tenant : TenantId}
  {job : LoopJob} {node : NodeId}

/-- The walk ends on the first node that nothing speaks against. -/
theorem choose_eq (nodes : List NodeId) (blocked : Blocked) :
    (choose outside world nodes blocked).toOption =
      nodes.find? (nothingAgainst outside world) := by
  induction nodes generalizing blocked with
  | nil => rfl
  | cons node rest ih =>
      rw [choose, List.find?_cons]
      dsimp only
      split
      · next cordon isCordoned =>
          simpa [nothingAgainst, isCordoned] using ih _
      · next uncordoned =>
          split
          · next detail refused =>
              simpa [nothingAgainst, refused] using ih _
          · next confined =>
              split
              · next detail isLow =>
                  simpa [nothingAgainst, isLow] using ih _
              · next roomy =>
                  split
                  · next unused =>
                      simpa [nothingAgainst, hasRoom, unused] using ih _
                  · next used =>
                      split
                      · next full =>
                          have against : nothingAgainst outside world node = false := by
                            simp [nothingAgainst, hasRoom, Nat.not_lt.mpr full]
                          rw [against]
                          split
                          · exact ih _
                          · exact ih _
                      · next spare =>
                          have free : nothingAgainst outside world node = true := by
                            simp [nothingAgainst, hasRoom, uncordoned, confined, roomy, used,
                              Nat.not_le.mp spare]
                          rw [free]
                          rfl

/-- The choice of the call, as one search. -/
def pick (outside : Outside) (world : World) (tenant : TenantId) (job : LoopJob) :
    Option NodeId :=
  (candidates outside world tenant job).find? (comesThrough outside world tenant job)

theorem Passes.comesThrough (passes : Passes outside world tenant job node) :
    comesThrough outside world tenant job node = true := by
  have pinned : pinAdmits world tenant job node = true := by
    rw [pinAdmits, Option.all_eq_true]
    exact fun pinned isPinned => decide_eq_true (passes.pin pinned isPinned)
  simp [Selection.comesThrough, pinned, passes.labels, nothingAgainst, passes.cordon,
    passes.sandbox, passes.disk, passes.capacity]

/-- What the pin and the labels leave of the candidates. -/
def narrowed (world : World) (tenant : TenantId) (job : LoopJob) (found : List NodeId) :
    List NodeId :=
  (match pinnedNode world tenant job with
    | some (node, _) => found.filter (· = node)
    | none => found).filter (wearsLabels world job.kind)

theorem choose_narrowed (found : List NodeId) (blocked : Blocked) :
    (choose outside world (narrowed world tenant job found) blocked).toOption =
      found.find? (comesThrough outside world tenant job) := by
  rw [choose_eq, narrowed, List.find?_filter]
  cases pinned : pinnedNode world tenant job with
  | none =>
      dsimp only
      congr 1
      funext node
      simp [Selection.comesThrough, pinAdmits, pinned]
  | some pin =>
      dsimp only
      rw [List.find?_filter]
      congr 1
      funext node
      simp [Selection.comesThrough, pinAdmits, pinned, @eq_comm _ node pin.1, Bool.and_assoc]

/-- A call that goes no further than the queue: the job has a reason, or nothing has
changed. -/
inductive Waited (now : Instant) (world : World) (id : JobId) : World → Prop
  | unchanged : Waited now world id world
  | reasoned (reason : String) (kind : Option QueuedReason) :
      Waited now world id (setQueuedReason now world id reason kind).1

/-- A queued job waits when the search finds no node, and is put to the gates after the
choice when it finds one. -/
theorem selectExecutor_cases {id : JobId} (found : load world tenant id = some job)
    (queued : job.state = .queued) :
    (pick outside world tenant job = none ∧
      Waited now world id (selectExecutor outside now world tenant id).1) ∨
    ∃ node, pick outside world tenant job = some node ∧
      selectExecutor outside now world tenant id = claimOn outside now world tenant job node := by
  rw [selectExecutor.eq_def, found]
  dsimp only
  rw [if_neg (not_not.mpr queued)]
  cases isPerson : world.personOf job.requestedBy with
  | none =>
      refine Or.inl ⟨?_, .reasoned _ _⟩
      simp [pick, candidates, isPerson]
  | some person =>
      dsimp only
      cases asked : Gates.Repo.eligibleLoopExecutors outside.engines world.nodes world.users
        tenant person loopRuntime job.kind with
      | error failure =>
          refine Or.inl ⟨?_, .unchanged⟩
          simp [pick, candidates, isPerson, asked, Except.toOption]
      | ok nodes =>
          have isPick : pick outside world tenant job =
              nodes.find? (comesThrough outside world tenant job) := by
            simp [pick, candidates, isPerson, asked, Except.toOption]
          have chosen := @choose_narrowed outside world tenant job nodes {}
          rw [isPick, ← chosen]
          dsimp only
          split
          · next node pin isPinned nobody =>
              refine Or.inl ⟨?_, .reasoned _ _⟩
              have nothing : narrowed world tenant job nodes = [] := by
                rw [narrowed, nobody, List.filter_nil]
              rw [nothing]
              rfl
          · change (_ = none ∧ Waited now world id (match choose outside world
              (narrowed world tenant job nodes) {} with
              | .error blocked => _
              | .ok node => _ : World × Except ApiError LoopJob).1) ∨
              ∃ node, _ ∧ (match choose outside world (narrowed world tenant job nodes) {} with
              | .error blocked => _
              | .ok node => _ : World × Except ApiError LoopJob) = _
            cases choose outside world (narrowed world tenant job nodes) {} with
            | error blocked => exact Or.inl ⟨rfl, .reasoned _ _⟩
            | ok node => exact Or.inr ⟨node, rfl, rfl⟩

end Choice

/-! ### After the choice -/

section Completeness

variable {outside : Outside} {now : Instant} {world : World} {tenant : TenantId}
  {job : LoopJob} {node : NodeId} {id : JobId}

theorem load_eq (found : load world tenant id = some job) :
    job.id = id ∧ Table.find LoopJob.id world.jobs id = some job := by
  have isRow := (Option.filter_eq_some_iff.mp found).1
  exact ⟨(Table.find_some isRow).2, isRow⟩

/-- Nothing fails, so the lease is granted or refused, and a refusal leaves nothing. -/
theorem leaseBuildPorts_cases (outside : Outside) (world : World) (tenant : TenantId)
    (job : LoopJob) (node : NodeId) :
    ∃ leases answer,
      leaseBuildPorts outside world tenant job node = ({ world with leases }, .ok answer) ∧
      (answer ≠ none → ∀ lease ∈ leases, lease ∈ world.leases) := by
  unfold leaseBuildPorts
  split
  · exact ⟨world.leases, none, rfl, fun _ _ member => member⟩
  · split
    · exact ⟨world.leases, none, rfl, fun _ _ member => member⟩
    · next task _ =>
        obtain ⟨after, answer, ran, clean⟩ := @Allocation.leaseForBuild_alone node task
          (leaseRows outside world tenant job.workspaceId)
        rw [ran]
        cases answer with
        | ok leased => exact ⟨after.leases, none, rfl, fun refused => absurd rfl refused⟩
        | error refusal =>
            exact ⟨after.leases, some refusal, rfl, fun _ => clean refusal rfl⟩

theorem find_onJob {update : LoopJob → Option LoopJob} {jobs : List LoopJob}
    (keeps : ∀ row given, update row = some given → given.id = row.id)
    (isRow : Table.find LoopJob.id jobs id = some job) :
    Table.find LoopJob.id (onJob id update jobs) id = some ((update job).getD job) := by
  rw [onJob, Table.find_update, if_pos rfl, isRow, Option.map_some]
  intro row _
  cases written : update row with
  | none => rfl
  | some given => exact keeps row given written

/-- A reason leaves the job in the queue. -/
theorem find_setQueuedReason {base : World} (isRow : Table.find LoopJob.id base.jobs id = some job)
    (queued : job.state = .queued) (reason : String) (kind : Option QueuedReason) :
    ∃ row, Table.find LoopJob.id (setQueuedReason now base id reason kind).1.jobs id = some row ∧
      row.state = .queued := by
  refine ⟨_, find_onJob ?_ isRow, ?_⟩
  · intro row given written
    rw [Jobs.Repo.setQueuedReason, Option.ite_none_right_eq_some] at written
    cases written.2
    rfl
  · cases written : Jobs.Repo.setQueuedReason now reason kind job with
    | none => exact queued
    | some given => exact (setQueuedReason_state written).trans queued

theorem find_claim (isRow : Table.find LoopJob.id world.jobs id = some job)
    (queued : job.state = .queued) :
    ∃ row, Table.find LoopJob.id
        (onJob id (Jobs.Repo.claimForExecutor now node) world.jobs) id = some row ∧
      row.state = .claimed ∧ row.executorNodeId = some node := by
  refine ⟨_, find_onJob ?_ isRow, ?_⟩
  · intro row given written
    rw [Jobs.Repo.claimForExecutor, Option.ite_none_right_eq_some] at written
    cases written.2
    rfl
  · rw [Jobs.Repo.claimForExecutor, if_pos queued]
    exact ⟨rfl, rfl⟩

/-- How the gates after the choice end. -/
inductive Settled (outside : Outside) (world : World) (tenant : TenantId) (job : LoopJob)
    (node : NodeId) (final : World) : Prop
  | claimed (wall : Gates.kindWallRefusal world.nodes node job.kind = none)
      (ports : (leaseBuildPorts outside world tenant job node).2 = .ok none)
      (row : LoopJob) (isRow : Table.find LoopJob.id final.jobs job.id = some row)
      (isClaimed : row.state = .claimed) (isHere : row.executorNodeId = some node)
  | refused (refusal : Gates.kindWallRefusal world.nodes node job.kind ≠ none ∨
        (leaseBuildPorts outside world tenant job node).2 ≠ .ok none)
      (row : LoopJob) (isRow : Table.find LoopJob.id final.jobs job.id = some row)
      (isQueued : row.state = .queued)
      (clean : ∀ lease ∈ final.leases, lease ∈ world.leases)

theorem claimOn_settled (isRow : Table.find LoopJob.id world.jobs job.id = some job)
    (queued : job.state = .queued) :
    Settled outside world tenant job node (claimOn outside now world tenant job node).1 := by
  unfold claimOn
  cases wall : Gates.kindWallRefusal world.nodes node job.kind with
  | some refusal =>
      obtain ⟨row, isRow, isQueued⟩ := find_setQueuedReason isRow queued refusal
        (some (.kindWallRefusal job.kind))
      exact .refused (Or.inl (by simp [wall])) row isRow isQueued fun _ member => member
  | none =>
      obtain ⟨leases, answer, leased, clean⟩ :=
        leaseBuildPorts_cases outside world tenant job node
      dsimp only
      rw [leased]
      cases answer with
      | none =>
          obtain ⟨row, isRow, isClaimed, isHere⟩ := find_claim isRow queued
          exact .claimed wall (by rw [leased]) row isRow isClaimed isHere
      | some refusal =>
          obtain ⟨row, isRow, isQueued⟩ := @find_setQueuedReason now job job.id
            { world with leases } isRow queued
            ("waiting for a port on " ++ nodeName { world with leases } node ++ ": " ++
              refusal.message) (some (.portsUnavailable refusal.listener refusal.env))
          exact .refused (Or.inr (by simp [leased])) row isRow isQueued
            (clean (Option.some_ne_none refusal))

theorem pick_some (picked : pick outside world tenant job = some node) :
    node ∈ candidates outside world tenant job ∧
      comesThrough outside world tenant job node = true :=
  ⟨List.mem_of_find?_eq_some picked, List.find?_some picked⟩

/-- Nobody passes every gate when the search has found nobody. -/
theorem pick_none (picked : pick outside world tenant job = none) :
    ¬ ∃ node, Passes outside world tenant job node := by
  intro ⟨node, passes⟩
  have against := List.find?_eq_none.mp picked node passes.isCandidate
  exact against passes.comesThrough

/-- A node that comes through the first gates passes them all when it passes the last. -/
theorem passes_of_picked (picked : pick outside world tenant job = some node)
    (wall : Gates.kindWallRefusal world.nodes node job.kind = none)
    (ports : (leaseBuildPorts outside world tenant job node).2 = .ok none) :
    Passes outside world tenant job node := by
  obtain ⟨isCandidate, through⟩ := pick_some picked
  simp only [comesThrough, nothingAgainst, Bool.and_eq_true, decide_eq_true_eq] at through
  obtain ⟨⟨pinned, labels⟩, ⟨⟨⟨cordon, sandbox⟩, disk⟩, capacity⟩⟩ := through
  rw [pinAdmits, Option.all_eq_true] at pinned
  exact
    { isCandidate, labels, cordon, sandbox, disk, capacity, wall, ports
      pin := fun pin isPin => of_decide_eq_true (pinned pin isPin) }

theorem chosen_iff : Chosen outside world tenant job node ↔
    pick outside world tenant job = some node := by
  rw [pick, List.find?_eq_some_iff_append]
  constructor
  · intro ⟨front, back, isList, earlier, through⟩
    exact ⟨through, front, back, isList, fun early member => by simpa using earlier early member⟩
  · intro ⟨through, front, back, isList, earlier⟩
    exact ⟨front, back, isList, fun early member => by simpa using earlier early member, through⟩

theorem Waited.queued {final : World} (waited : Waited now world id final)
    (isRow : Table.find LoopJob.id world.jobs id = some job) (queued : job.state = .queued) :
    (∃ row, Table.find LoopJob.id final.jobs id = some row ∧ row.state = .queued) ∧
      ∀ lease ∈ final.leases, lease ∈ world.leases := by
  cases waited with
  | unchanged => exact ⟨⟨job, isRow, queued⟩, fun _ member => member⟩
  | reasoned reason kind =>
      exact ⟨find_setQueuedReason isRow queued reason kind, fun _ member => member⟩

/-- How a call for a queued job ends, run alone: there is no choice, or the gates after it
settle the job. -/
theorem selectExecutor_ends (found : load world tenant id = some job)
    (queued : job.state = .queued) :
    (pick outside world tenant job = none ∧
      (∃ row, Table.find LoopJob.id
          (selectExecutor outside now world tenant id).1.jobs job.id = some row ∧
        row.state = .queued) ∧
      ∀ lease ∈ (selectExecutor outside now world tenant id).1.leases, lease ∈ world.leases) ∨
    ∃ node, pick outside world tenant job = some node ∧
      Settled outside world tenant job node (selectExecutor outside now world tenant id).1 := by
  obtain ⟨rfl, isRow⟩ := load_eq found
  obtain ⟨picked, waited⟩ | ⟨node, picked, isClaim⟩ :=
    @selectExecutor_cases outside now world tenant job job.id found queued
  · exact Or.inl ⟨picked, waited.queued isRow queued⟩
  · rw [isClaim]
    exact Or.inr ⟨node, picked, claimOn_settled isRow queued⟩

theorem Settled.passes_or_waits {final : World} (picked : pick outside world tenant job = some node)
    (settled : Settled outside world tenant job node final) :
    (Passes outside world tenant job node ∧
      ∃ row, Table.find LoopJob.id final.jobs job.id = some row ∧ row.state = .claimed ∧
        row.executorNodeId = some node) ∨
    (¬ Passes outside world tenant job node ∧
      (∃ row, Table.find LoopJob.id final.jobs job.id = some row ∧ row.state = .queued) ∧
      ∀ lease ∈ final.leases, lease ∈ world.leases) := by
  cases settled with
  | claimed wall ports row isRow isClaimed isHere =>
      exact Or.inl ⟨passes_of_picked picked wall ports, row, isRow, isClaimed, isHere⟩
  | refused refusal row isRow isQueued clean =>
      exact Or.inr ⟨fun passes => refusal.elim (· passes.wall) (· passes.ports),
        ⟨row, isRow, isQueued⟩, clean⟩

/-- A call run alone settles every queued job. -/
theorem selectExecutor_settles (found : load world tenant id = some job)
    (queued : job.state = .queued) :
    Settles outside world tenant job (selectExecutor outside now world tenant id).1 := by
  obtain ⟨picked, waits⟩ | ⟨node, picked, settled⟩ :=
    @selectExecutor_ends outside now world tenant job id found queued
  · refine ⟨fun node chosen => ?_, fun _ => waits⟩
    cases picked.symm.trans (chosen_iff.mp chosen)
  · obtain ⟨passes, placed⟩ | ⟨fails, waits⟩ := settled.passes_or_waits picked
    · refine ⟨fun other chosen _ => ?_, fun nobody => ?_⟩
      · cases picked.symm.trans (chosen_iff.mp chosen)
        exact placed
      · exact absurd passes (nobody node (chosen_iff.mpr picked))
    · refine ⟨fun other chosen passes => ?_, fun _ => waits⟩
      cases picked.symm.trans (chosen_iff.mp chosen)
      exact absurd passes fails

/-- Every job that some candidate could take is placed exactly when the chosen node is one of
those candidates. -/
theorem complete_iff (found : load world tenant id = some job) (queued : job.state = .queued) :
    Complete outside world tenant job (selectExecutor outside now world tenant id).1 ↔
      ((∃ node, Passes outside world tenant job node) →
        ∀ node, Chosen outside world tenant job node →
          Passes outside world tenant job node) := by
  obtain ⟨picked, waits⟩ | ⟨node, picked, settled⟩ :=
    @selectExecutor_ends outside now world tenant job id found queued
  · have nobody := pick_none picked
    exact iff_of_true ⟨fun somebody => absurd somebody nobody, fun _ => waits⟩
      fun somebody => absurd somebody nobody
  · have isChosen : Chosen outside world tenant job node := chosen_iff.mpr picked
    obtain ⟨passes, row, placed⟩ | ⟨fails, waits⟩ := settled.passes_or_waits picked
    · refine iff_of_true ⟨fun _ => ⟨node, row, passes, placed⟩,
        fun nobody => absurd ⟨node, passes⟩ nobody⟩ fun _ other chosen => ?_
      cases picked.symm.trans (chosen_iff.mp chosen)
      exact passes
    · constructor
      · intro complete somebody
        obtain ⟨_, placed, _, isRow, isClaimed, _⟩ := complete.placed somebody
        obtain ⟨⟨row, isSame, isQueued⟩, _⟩ := waits
        cases isRow.symm.trans isSame
        cases isClaimed.symm.trans isQueued
      · intro unspoiled
        exact ⟨fun somebody => absurd (unspoiled somebody node isChosen) fails, fun _ => waits⟩

end Completeness

/-! ### Two builders -/

section TwoBuilders

def text (value : String) : Json := .scalar (.str value.toList)

def object (fields : List (String × Json)) : Json :=
  .obj (fields.map fun (key, value) => (key.toList, value))

/-- Readers of the documents below. -/
def readers : Outside where
  engines :=
    { printText := fun _ => [], printJson := fun _ => [], number := id
      ofBool := fun value => .integer value.toNat, readJson := fun _ => none
      readArray := fun _ => none, jsonbSet := fun doc _ _ => doc, jsonSet := fun doc _ _ => doc }
  cordon _ := none
  sandbox report :=
    match (Gates.get "state" report).bind Gates.asStr,
      (Gates.get "image" report).bind Gates.asStr with
    | some "ready", some image => .ok (.ready image)
    | _, _ => .error "missing field"
  requirements declared :=
    (Gates.asArray declared).map fun listeners =>
      listeners.filterMap fun listener => do
        let name ← (Gates.get "name" listener).bind Gates.asStr
        let env ← (Gates.get "env" listener).bind Gates.asStr
        let required := (Gates.get "required" listener).bind Gates.asBool
        some { name, env, required := required.getD false, runtimes := [] }

/-- A builder of one person with room for one job, and one port, or none when it is excluded. -/
def builder (id : NodeId) (excluded : List Int) : Node where
  id := id
  tenantId := 1
  name := "azul"
  platform := "linux"
  capabilities := object [
    ("runtime_auth", .arr [object [("runtime", text "claude"), ("state", text "authorized")]]),
    ("loop_kinds", .arr [text "build"]),
    ("sandbox", object [("state", text "ready"), ("image", text "job")])]
  resources := object []
  online := true
  ownerPersonId := some 5
  crossTenant := false
  labels := object [("role/build", text "true")]
  cordon := none
  portRangeStart := some 4100
  portRangeEnd := some 4100
  portExclusions := some (.arr (excluded.map fun port => .scalar (.num (.integer port))))
  maxLoopJobs := some 1

/-- A build of a card of a workspace that requires one port. -/
def buildJob : LoopJob where
  id := 20
  tenantId := 1
  kind := .build
  targetTaskId := some 7
  workspaceId := some 3
  requestedBy := 9
  state := .queued
  executorNodeId := none
  predecessorJobId := none
  queuedReason := none
  queuedReasonKind := none
  seed := none
  reviewPrNumber := none
  reviewHeadSha := none
  reviewVerdict := none
  reviewForced := false
  reviewVerdictSource := none
  buildOutcome := none
  buildFingerprint := none
  createdAt := 0
  updatedAt := 0

/-- Two builders, of which one has its port excluded. -/
def twoBuilders (first second : List Int) : World where
  jobs := [buildJob]
  personOf user := if user = 9 then some 5 else none
  emailOf _ := none
  users := [{ tenantId := 1, personId := some 5 }]
  nodes := [builder 1 first, builder 2 second]
  cards _ _ := some { worktreePath := none, worktreeNodeId := none }
  workspaces _ _ := some
    { buildLoopEnabled := false
      buildLoopNodeId := none
      portRequirements := some (.arr
        [object [("name", text "web"), ("env", text "PORT"), ("required", .scalar (.bool true))]]) }
  live _ := true
  leases := []

theorem twoBuilders_passes : Passes readers (twoBuilders [4100] []) 1 buildJob 2 where
  isCandidate := by decide
  pin := by decide
  labels := by decide
  cordon := rfl
  sandbox := rfl
  disk := rfl
  capacity := by decide
  wall := by decide
  ports := rfl

/-- The first builder has no port left and the second has one, and the job waits. -/
theorem selectExecutor_spoiled :
    load (twoBuilders [4100] []) 1 20 = some buildJob ∧
      ¬ Complete readers (twoBuilders [4100] []) 1 buildJob
        (selectExecutor readers 6 (twoBuilders [4100] []) 1 20).1 := by
  refine ⟨rfl, fun complete => ?_⟩
  obtain ⟨node, row, _, isRow, isClaimed, _⟩ := complete.placed ⟨2, twoBuilders_passes⟩
  have isQueued : (Table.find LoopJob.id
      (selectExecutor readers 6 (twoBuilders [4100] []) 1 20).1.jobs 20).map LoopJob.state =
        some .queued := rfl
  simp only [buildJob] at isRow
  rw [isRow, Option.map_some, isClaimed] at isQueued
  cases isQueued

theorem selectExecutor_settles_twoBuilders :
    ∃ row, Table.find LoopJob.id
        (selectExecutor readers 6 (twoBuilders [] [4100]) 1 20).1.jobs buildJob.id = some row ∧
      row.state = .claimed ∧ row.executorNodeId = some 1 := by
  have picked : pick readers (twoBuilders [] [4100]) 1 buildJob = some 1 := rfl
  exact (selectExecutor_settles rfl rfl).placed 1 (chosen_iff.mpr picked)
    (passes_of_picked picked (by decide) rfl)

end TwoBuilders

end NookOs.Placement.Selection
