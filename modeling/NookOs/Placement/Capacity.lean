/-
Module: NookOs.Placement.Capacity
Purpose: Any number of replicas placing queued jobs on nodes at once, and
  exactly when no node is given more jobs than its capacity.
Trusted boundary: none
Main exports: LoopCapacity.effective, HeldJobs, Dispatch, Dispatch.step, Vacant, capacity_kept_iff
-/
import Mathlib.Algebra.Group.Int.Defs
import Mathlib.Algebra.GroupWithZero.Nat
import Mathlib.Data.List.Sort
import NookOs.Lib.Run
import NookOs.Lib.Table
import NookOs.Jobs.Lifecycle

namespace NookOs.Placement

open Lib Jobs

/-!
A pass reads its tenant's queued jobs in dispatch order and tries them one by
one.  One try, `select_executor`, loads the job, walks the candidate nodes and
reads what each is holding, and claims the job for the first node with room.
Each of these reads and the claim are steps of their own, and any number of
passes may be at any point of them.  The gates that have nothing to do with
capacity (the fleet's eligibility, a cordon, confinement, disk, the kind wall,
ports) are the environment's to decide.
-/

/-- The columns of a node's row that its capacity is computed from. -/
structure NodeRow where
  /-- The operator's central value. -/
  maxLoopJobs : Option Int
  /-- What the node's capabilities report, as a 64-bit number. -/
  advertised : Option Nat
  maxLoopJobsPinned : Bool
deriving DecidableEq

/-- The capacity assumed for a node that reports none. -/
def capacityWhenUnreported : Nat := 2

namespace LoopCapacity

/-- What the node itself reports, cast to 32 bits. -/
def advertised (node : NodeRow) : Option Nat :=
  node.advertised.map (· % 2 ^ 32)

/-- The capacity in force: the host's pin, then the operator's value, then what
the node advertises. -/
def effective (node : NodeRow) : Nat :=
  if node.maxLoopJobsPinned then
    (advertised node).getD capacityWhenUnreported
  else
    match node.maxLoopJobs with
    | some operator => operator.toNat
    | none => (advertised node).getD capacityWhenUnreported

end LoopCapacity

/-- The node rows placement reads, fixed for the run. -/
abbrev Fleet := NodeId → Option NodeRow

/-- The capacity a candidate is held to. -/
def Fleet.capacity (fleet : Fleet) (node : NodeId) : Nat :=
  match fleet node with
  | some row => LoopCapacity.effective row
  | none => capacityWhenUnreported

/-- What a node is holding. -/
structure HeldJobs where
  inFlight : List JobId
  waitingOnHuman : List JobId
deriving DecidableEq

/-- Every slot the node is occupying. -/
def HeldJobs.total (held : HeldJobs) : Nat :=
  held.inFlight.length + held.waitingOnHuman.length

/-- A job in the state occupies a slot of its node. -/
def occupies : JobState → Bool
  | .claimed | .running | .waitingOnHuman => true
  | _ => false

/-- The job occupies a slot of the node. -/
def holds (node : NodeId) (job : LoopJob) : Bool :=
  job.executorNodeId = some node && occupies job.state

/-- How many jobs occupy a slot of the node. -/
def heldCount (node : NodeId) (jobs : List LoopJob) : Nat :=
  jobs.countP (holds node)

namespace Repo

/-- `held_on_nodes(Some(node))`, bucketed by state with the ids in order. -/
def heldOnNode (node : NodeId) (jobs : List LoopJob) : HeldJobs :=
  { inFlight :=
      ((jobs.filter fun job => holds node job && job.state ≠ .waitingOnHuman).map
        LoopJob.id).insertionSort (· ≤ ·)
    waitingOnHuman :=
      ((jobs.filter fun job => holds node job && job.state = .waitingOnHuman).map
        LoopJob.id).insertionSort (· ≤ ·) }

/-- A card's place in the dispatch order: an unset priority sorts last. -/
def dispatchRank (priorityOf : TaskId → Nat) (job : LoopJob) : Nat :=
  match (job.targetTaskId.map priorityOf).getD 0 with
  | 0 => 5
  | set => set

/-- `ORDER BY` the rank, then the age, then the id. -/
def dispatchBefore (priorityOf : TaskId → Nat) (first second : LoopJob) : Prop :=
  dispatchRank priorityOf first < dispatchRank priorityOf second ∨
    (dispatchRank priorityOf first = dispatchRank priorityOf second ∧
      (first.createdAt < second.createdAt ∨
        (first.createdAt = second.createdAt ∧ first.id ≤ second.id)))

instance (priorityOf : TaskId → Nat) : DecidableRel (dispatchBefore priorityOf) :=
  fun _ _ => inferInstanceAs (Decidable (_ ∨ (_ ∧ (_ ∨ (_ ∧ _)))))

/-- The tenant's queued jobs, worthiest first. -/
def queuedInDispatchOrder (tenant : TenantId) (priorityOf : TaskId → Nat)
    (jobs : List LoopJob) : List JobId :=
  ((jobs.filter fun job : LoopJob => job.tenantId = tenant && job.state = .queued).insertionSort
    (dispatchBefore priorityOf)).map LoopJob.id

end Repo

/-- How many of a tenant's queued jobs one pass will try to place. -/
def dispatchPassLimit : Nat := 32

/-- Where a pass stands with the job at the head of its list. -/
inductive Attempt where
  | next
  | candidates (left : List NodeId)
  | chosen (node : NodeId)
deriving DecidableEq

/-- A `place_queued_in_order` call in progress. -/
structure Pass where
  queued : List JobId
  attempt : Attempt
deriving DecidableEq

/-- Go on to the job after the one in hand. -/
def Pass.advance (pass : Pass) : Pass :=
  { queued := pass.queued.tail, attempt := .next }

/-- The job table, the passes and `transition` calls in progress, and every
claim that has won. -/
structure Dispatch where
  jobs : List LoopJob
  passes : List Pass
  transitions : List (JobId × CheckedTransition)
  claims : List (JobId × NodeId)
deriving DecidableEq

/-- Nothing has been queued yet. -/
def Dispatch.empty : Dispatch :=
  { jobs := [], passes := [], transitions := [], claims := [] }

/-- One step of one replica, or of a run. -/
inductive DispatchStep where
  | create (now : Instant) (new : NewLoopJob)
  | placeQueuedInOrder (tenant : TenantId) (priorityOf : TaskId → Nat)
  | selectExecutor (pass : Nat) (candidates : List NodeId)
  | considerCandidate (pass : Nat) (refused : Bool)
  | leaveQueued (pass : Nat) (now : Instant) (reason : String)
      (kind : Option QueuedReason)
  | claimForExecutor (pass : Nat) (now : Instant)
  | loadTransition (id : JobId) (target : JobState)
  | landTransition (call : Nat) (now : Instant)
  | write (id : JobId) (update : RowWrite)

/-- The capacity gate on one candidate. -/
def hasRoom (fleet : Fleet) (jobs : List LoopJob) (node : NodeId) : Bool :=
  fleet.capacity node ≠ 0 &&
    (Repo.heldOnNode node jobs).total < fleet.capacity node

/-- A guarded UPDATE of the job with an id. -/
def onJob (id : JobId) (update : LoopJob → Option LoopJob)
    (jobs : List LoopJob) : List LoopJob :=
  Table.update LoopJob.id id (fun job => (update job).getD job) jobs

/-- The pass's next step with the candidate at hand. -/
def Pass.consider (fleet : Fleet) (jobs : List LoopJob) (refused : Bool)
    (pass : Pass) : Option Pass :=
  match pass.attempt with
  | .candidates (node :: left) =>
      if !refused && hasRoom fleet jobs node then
        some { pass with attempt := .chosen node }
      else some { pass with attempt := .candidates left }
  | _ => none

/-- The pass gives the job in hand up: no candidate is left, or a gate after
the choice refused. -/
def Pass.givesUp (pass : Pass) : Option JobId :=
  match pass.queued, pass.attempt with
  | id :: _, .candidates [] => some id
  | id :: _, .chosen _ => some id
  | _, _ => none

/-- The interleaving semantics of placement over a fleet. -/
def Dispatch.step (fleet : Fleet) (system : Dispatch) :
    DispatchStep → Option Dispatch
  | .create now new =>
      if (Table.find LoopJob.id system.jobs new.id).isSome then none
      else some { system with jobs := system.jobs ++ [Jobs.Repo.create now new] }
  | .placeQueuedInOrder tenant priorityOf =>
      some
        { system with
          passes := system.passes ++
            [{ queued :=
                 (Repo.queuedInDispatchOrder tenant priorityOf system.jobs).take
                   dispatchPassLimit
               attempt := .next }] }
  | .selectExecutor index candidates =>
      (system.passes[index]?).bind fun pass =>
        match pass.queued, pass.attempt with
        | id :: _, .next =>
            match Table.find LoopJob.id system.jobs id with
            | some job =>
                if job.state = .queued then
                  some
                    { system with
                      passes := system.passes.set index
                        { pass with attempt := .candidates candidates } }
                else some { system with passes := system.passes.set index pass.advance }
            | none => some { system with passes := system.passes.set index pass.advance }
        | _, _ => none
  | .considerCandidate index refused =>
      (system.passes[index]?).bind fun pass =>
        (pass.consider fleet system.jobs refused).map fun next =>
          { system with passes := system.passes.set index next }
  | .leaveQueued index now reason kind =>
      (system.passes[index]?).bind fun pass =>
        pass.givesUp.map fun id =>
          { system with
            jobs := onJob id (Jobs.Repo.setQueuedReason now reason kind) system.jobs
            passes := system.passes.set index pass.advance }
  | .claimForExecutor index now =>
      (system.passes[index]?).bind fun pass =>
        match pass.queued, pass.attempt with
        | id :: _, .chosen node =>
            let won := (Table.find LoopJob.id system.jobs id).bind
              (Jobs.Repo.claimForExecutor now node)
            some
              { system with
                jobs := onJob id (Jobs.Repo.claimForExecutor now node) system.jobs
                passes := system.passes.set index pass.advance
                claims :=
                  if won.isSome then system.claims ++ [(id, node)]
                  else system.claims }
        | _, _ => none
  | .loadTransition id target =>
      -- No caller of `transition` asks for `claimed`.
      if target = .claimed then none
      else
        (Table.find LoopJob.id system.jobs id).bind fun job =>
          match checkTransition job target with
          | .proceed call =>
              some { system with transitions := system.transitions ++ [(id, call)] }
          | .unchanged | .illegal => some system
  | .landTransition index now =>
      (system.transitions[index]?).map fun call =>
        { system with
          jobs := onJob call.1
            (fun job => some (Jobs.Repo.transition now call.2.target job)) system.jobs
          transitions := system.transitions.eraseIdx index }
  | .write id update =>
      some { system with jobs := onJob id update.update system.jobs }

/-- No node holds more jobs than its capacity. -/
def WithinCapacity (fleet : Fleet) (jobs : List LoopJob) : Prop :=
  ∀ node, heldCount node jobs ≤ fleet.capacity node

/-- After a step no node holds more jobs than its capacity, and no job has been
claimed for two nodes. -/
def CapacityKept (fleet : Fleet) (_ : Dispatch) (_ : DispatchStep)
    (after : Dispatch) : Prop :=
  WithinCapacity fleet after.jobs ∧
  ∀ id first second, (id, first) ∈ after.claims → (id, second) ∈ after.claims →
    first = second

/-- The condition on one step, read off the state before it.  A claim that wins
finds its node with room still; and an UPDATE of `transition` that lands on a
job which gave its slot up in the meantime finds room to take one again. -/
def Vacant (fleet : Fleet) (before : Dispatch) (label : DispatchStep)
    (_ : Dispatch) : Prop :=
  match label with
  | .claimForExecutor index _ =>
      ∀ pass ∈ before.passes[index]?, ∀ id ∈ pass.queued.head?,
        ∀ job ∈ Table.find LoopJob.id before.jobs id, job.state = .queued →
          match pass.attempt with
          | .chosen node => heldCount node before.jobs < fleet.capacity node
          | _ => True
  | .landTransition index _ =>
      ∀ call ∈ before.transitions[index]?,
        ∀ job ∈ Table.find LoopJob.id before.jobs call.1,
          occupies job.state = false → occupies call.2.target = true →
          ∀ node ∈ job.executorNodeId,
            heldCount node before.jobs < fleet.capacity node
  | _ => True

theorem holds_iff (node : NodeId) (job : LoopJob) :
    holds node job = true ↔
      job.executorNodeId = some node ∧ occupies job.state = true := by
  rw [holds, Bool.and_eq_true, decide_eq_true_eq]

/-- What any single-job UPDATE may do to a row: nothing is queued again. -/
def Advances (update : LoopJob → Option LoopJob) : Prop :=
  ∀ job row, update job = some row →
    row.id = job.id ∧ (job.state ≠ .queued → row.state ≠ .queued)

theorem advances_setQueuedReason (now : Instant) (reason : String) (kind : Option QueuedReason) :
    Advances (Jobs.Repo.setQueuedReason now reason kind) := by
  intro job row written
  have sameState := setQueuedReason_state written
  rw [Jobs.Repo.setQueuedReason, Option.ite_none_right_eq_some] at written
  rw [sameState, ← Option.some.inj written.2]
  exact ⟨rfl, id⟩

theorem advances_claimForExecutor (now : Instant) (node : NodeId) :
    Advances (Jobs.Repo.claimForExecutor now node) := by
  intro job row written
  rw [Jobs.Repo.claimForExecutor, Option.ite_none_right_eq_some] at written
  rw [← Option.some.inj written.2]
  exact ⟨rfl, fun _ queued => by cases queued⟩

/-- The graph has no edge back to `queued`. -/
theorem target_ne_queued (call : CheckedTransition) : call.target ≠ .queued := by
  intro queued
  have legal := call.legal
  rw [queued] at legal
  cases loaded : call.loaded <;> simp [loaded, legalTransition] at legal

theorem advances_transition (now : Instant) (call : CheckedTransition) :
    Advances fun job => some (Jobs.Repo.transition now call.target job) := by
  intro job row written
  cases written
  exact ⟨rfl, fun _ => target_ne_queued call⟩

theorem advances_write (write : RowWrite) : Advances write.update := by
  intro job row written
  refine ⟨(RowWrite.executorNodeId_eq written).1, ?_⟩
  intro notQueued
  rcases RowWrite.state_cases written with same | ended
  · rw [same]
    exact notQueued
  · intro queued
    rw [queued] at ended
    contradiction

/-- What every run keeps of its claims: a claimed job is queued no longer, so
it was claimed once. -/
structure Dispatch.Booked (system : Dispatch) : Prop where
  keyed : Table.Keyed LoopJob.id system.jobs
  placed : ∀ claim ∈ system.claims, ∃ job,
    Table.find LoopJob.id system.jobs claim.1 = some job ∧ job.state ≠ .queued
  once : (system.claims.map Prod.fst).Nodup

theorem empty_booked : Dispatch.empty.Booked :=
  ⟨Table.keyed_nil, nofun, List.nodup_nil⟩

variable {update : LoopJob → Option LoopJob}

/-- An UPDATE keeps the ids, and every job where it is in the table. -/
theorem Advances.keeps (advances : Advances update) (job : LoopJob) :
    ((update job).getD job).id = job.id ∧
      (job.state ≠ .queued → ((update job).getD job).state ≠ .queued) := by
  cases written : update job with
  | none => exact ⟨rfl, id⟩
  | some row => exact advances job row written

theorem Dispatch.Booked.onJob_keyed {system : Dispatch} (booked : system.Booked)
    (advances : Advances update) (id : JobId) :
    Table.Keyed LoopJob.id (onJob id update system.jobs) :=
  booked.keyed.update fun job _ => (advances.keeps job).1

theorem Dispatch.Booked.onJob_placed {system : Dispatch} (booked : system.Booked)
    (advances : Advances update) (id : JobId) : ∀ claim ∈ system.claims, ∃ job,
      Table.find LoopJob.id (onJob id update system.jobs) claim.1 = some job ∧
        job.state ≠ .queued := by
  intro claim member
  obtain ⟨job, found, notQueued⟩ := booked.placed claim member
  unfold onJob
  rw [Table.find_update fun job _ => (advances.keeps job).1, found]
  split
  · exact ⟨_, rfl, (advances.keeps job).2 notQueued⟩
  · exact ⟨_, rfl, notQueued⟩

variable {fleet : Fleet}

/-- No step claims a job twice. -/
theorem Dispatch.Booked.step {before after : Dispatch} {label : DispatchStep}
    (booked : before.Booked) (taken : before.step fleet label = some after) : after.Booked := by
  cases label with
  | create now new =>
      unfold Dispatch.step at taken
      dsimp only at taken
      split at taken
      · contradiction
      · rename_i absent
        cases taken
        have fresh : Table.find LoopJob.id before.jobs new.id = none := by
          simpa using absent
        refine ⟨booked.keyed.insert fresh, ?_, booked.once⟩
        intro claim member
        obtain ⟨job, found, notQueued⟩ := booked.placed claim member
        refine ⟨job, ?_, notQueued⟩
        rw [Table.find_insert, found]
        rfl
  | placeQueuedInOrder tenant priorityOf =>
      cases taken
      exact ⟨booked.keyed, booked.placed, booked.once⟩
  | selectExecutor index candidates =>
      obtain ⟨pass, _, rest⟩ := Option.bind_eq_some_iff.mp taken
      split at rest
      · split at rest
        · split at rest <;> cases rest <;>
            exact ⟨booked.keyed, booked.placed, booked.once⟩
        · cases rest
          exact ⟨booked.keyed, booked.placed, booked.once⟩
      · contradiction
  | considerCandidate index refused =>
      obtain ⟨pass, _, rest⟩ := Option.bind_eq_some_iff.mp taken
      obtain ⟨next, _, rfl⟩ := Option.map_eq_some_iff.mp rest
      exact ⟨booked.keyed, booked.placed, booked.once⟩
  | leaveQueued index now reason kind =>
      obtain ⟨pass, _, rest⟩ := Option.bind_eq_some_iff.mp taken
      obtain ⟨id, _, rfl⟩ := Option.map_eq_some_iff.mp rest
      have advances := advances_setQueuedReason now reason kind
      exact ⟨booked.onJob_keyed advances id, booked.onJob_placed advances id,
        booked.once⟩
  | claimForExecutor index now =>
      obtain ⟨pass, _, rest⟩ := Option.bind_eq_some_iff.mp taken
      split at rest
      · rename_i id others node _ _
        cases rest
        have advances := advances_claimForExecutor now node
        have earlier := booked.onJob_placed advances id
        refine ⟨booked.onJob_keyed advances id, ?_, ?_⟩
        · cases won : (Table.find LoopJob.id before.jobs id).bind
              (Jobs.Repo.claimForExecutor now node) with
          | none => exact earlier
          | some row =>
              intro claim member
              rw [Option.isSome_some, if_pos rfl, List.mem_append,
                List.mem_singleton] at member
              rcases member with before_ | rfl
              · exact earlier claim before_
              · obtain ⟨job, found, written⟩ := Option.bind_eq_some_iff.mp won
                refine ⟨row, ?_, ?_⟩
                · unfold onJob
                  rw [Table.find_update fun job _ => (advances.keeps job).1,
                    if_pos rfl, found, Option.map_some, written]
                  rfl
                · rw [Jobs.Repo.claimForExecutor,
                    Option.ite_none_right_eq_some] at written
                  rw [← Option.some.inj written.2]
                  intro queued
                  cases queued
        · cases won : (Table.find LoopJob.id before.jobs id).bind
              (Jobs.Repo.claimForExecutor now node) with
          | none => exact booked.once
          | some row =>
              -- The claim matched, so the job was still queued.
              obtain ⟨job, found, written⟩ := Option.bind_eq_some_iff.mp won
              rw [Jobs.Repo.claimForExecutor,
                Option.ite_none_right_eq_some] at written
              rw [Option.isSome_some, if_pos rfl, List.map_append,
                List.map_singleton]
              apply booked.once.append (List.nodup_singleton id)
              intro claimed already same
              rw [List.mem_singleton] at same
              obtain ⟨claim, member, rfl⟩ := List.mem_map.mp already
              obtain ⟨other, present, notQueued⟩ := booked.placed claim member
              rw [same, found] at present
              exact notQueued (Option.some.inj present ▸ written.1)
      · contradiction
  | loadTransition id target =>
      unfold Dispatch.step at taken
      dsimp only at taken
      split at taken
      · contradiction
      · obtain ⟨job, _, rest⟩ := Option.bind_eq_some_iff.mp taken
        split at rest <;> cases rest <;>
          exact ⟨booked.keyed, booked.placed, booked.once⟩
  | landTransition index now =>
      obtain ⟨call, _, rfl⟩ := Option.map_eq_some_iff.mp taken
      have advances := advances_transition now call.2
      exact ⟨booked.onJob_keyed advances call.1,
        booked.onJob_placed advances call.1, booked.once⟩
  | write id update =>
      cases taken
      have advances := advances_write update
      exact ⟨booked.onJob_keyed advances id, booked.onJob_placed advances id,
        booked.once⟩

/-- A job claimed once is claimed for one node. -/
theorem Dispatch.Booked.one_node {system : Dispatch} (booked : system.Booked)
    (id : JobId) (first second : NodeId) (one : (id, first) ∈ system.claims)
    (other : (id, second) ∈ system.claims) : first = second :=
  congrArg Prod.snd
    (List.inj_on_of_nodup_map booked.once one other rfl)

/-- An UPDATE of one job keeps every node within its capacity exactly when each
node it gives the job to has room. -/
theorem within_onJob_iff {jobs : List LoopJob} {id : JobId} {job : LoopJob}
    (keyed : Table.Keyed LoopJob.id jobs) (within : WithinCapacity fleet jobs)
    (found : Table.find LoopJob.id jobs id = some job) :
    WithinCapacity fleet (onJob id update jobs) ↔
      ∀ node, holds node job = false →
        holds node ((update job).getD job) = true →
        heldCount node jobs < fleet.capacity node := by
  have counted : ∀ node, heldCount node (onJob id update jobs) +
      (if holds node job then 1 else 0) =
        heldCount node jobs +
          if holds node ((update job).getD job) then 1 else 0 :=
    fun node => keyed.countP_update found
  constructor
  · intro kept node without taken
    have count := counted node
    rw [without, taken] at count
    have bounded := kept node
    simp only [Bool.false_eq_true, if_false, if_true] at count
    omega
  · intro room node
    have count := counted node
    have bounded := within node
    cases without : holds node job with
    | true =>
        rw [without] at count
        simp only [if_true] at count
        split at count <;> omega
    | false =>
        cases taken : holds node ((update job).getD job) with
        | true =>
            have vacant := room node without taken
            rw [without, taken] at count
            simp only [Bool.false_eq_true, if_false, if_true] at count
            omega
        | false =>
            rw [without, taken] at count
            simp only [Bool.false_eq_true, if_false] at count
            omega

/-- An UPDATE that gives its job no slot keeps every node within its
capacity. -/
theorem within_onJob {jobs : List LoopJob} (id : JobId) (keyed : Table.Keyed LoopJob.id jobs)
    (within : WithinCapacity fleet jobs)
    (takesNone : ∀ node job row, update job = some row →
      holds node row = true → holds node job = true) :
    WithinCapacity fleet (onJob id update jobs) := by
  cases found : Table.find LoopJob.id jobs id with
  | none =>
      unfold onJob
      rw [Table.update_of_find_none found]
      exact within
  | some job =>
      apply (within_onJob_iff keyed within found).mpr
      intro node without taken
      cases written : update job with
      | none =>
          rw [written, Option.getD_none, without] at taken
          contradiction
      | some row =>
          rw [written] at taken
          have had := takesNone node job row written taken
          rw [without] at had
          contradiction

theorem setQueuedReason_takesNone (now : Instant) (reason : String)
    (kind : Option QueuedReason) (node : NodeId) (job row : LoopJob)
    (written : Jobs.Repo.setQueuedReason now reason kind job = some row)
    (held : holds node row = true) : holds node job = true := by
  rw [Jobs.Repo.setQueuedReason, Option.ite_none_right_eq_some] at written
  rw [← Option.some.inj written.2] at held
  exact held

theorem write_takesNone (write : RowWrite) (node : NodeId) (job row : LoopJob)
    (written : write.update job = some row) (held : holds node row = true) :
    holds node job = true := by
  rw [holds, Bool.and_eq_true] at held ⊢
  rw [(RowWrite.executorNodeId_eq written).2] at held
  rcases RowWrite.state_cases written with same | ended
  · rw [same] at held
    exact held
  · cases state : row.state <;> simp_all [occupies, isTerminal]

/-- A claim keeps every node within its capacity exactly when it is lost or its
node has room. -/
theorem within_claim_iff {jobs : List LoopJob} (id : JobId) (now : Instant) (node : NodeId)
    (keyed : Table.Keyed LoopJob.id jobs) (within : WithinCapacity fleet jobs) :
    WithinCapacity fleet (onJob id (Jobs.Repo.claimForExecutor now node) jobs) ↔
      ∀ job ∈ Table.find LoopJob.id jobs id, job.state = .queued →
        heldCount node jobs < fleet.capacity node := by
  cases found : Table.find LoopJob.id jobs id with
  | none =>
      unfold onJob
      rw [Table.update_of_find_none found]
      apply iff_of_true within
      intro job member
      contradiction
  | some job =>
      rw [within_onJob_iff keyed within found]
      simp only [Option.mem_some_iff, forall_eq']
      by_cases queued : job.state = .queued
      · rw [forall_prop_of_true queued]
        have claimed : ∀ other, holds other job = false ∧
            (holds other ((Jobs.Repo.claimForExecutor now node job).getD job) = true ↔
              other = node) := by
          intro other
          simp [holds, Jobs.Repo.claimForExecutor, queued, occupies, eq_comm]
        constructor
        · intro room
          exact room node (claimed node).1 ((claimed node).2.mpr rfl)
        · intro vacant other _ taken
          rw [(claimed other).2.mp taken]
          exact vacant
      · have lost : Jobs.Repo.claimForExecutor now node job = none :=
          if_neg queued
        apply iff_of_true
        · intro other without taken
          rw [lost, Option.getD_none, without] at taken
          contradiction
        · intro isQueued
          contradiction

/-- The UPDATE of `transition` keeps every node within its capacity exactly
when it takes no slot back, or the job's node has room. -/
theorem within_transition_iff {jobs : List LoopJob} (id : JobId) (now : Instant) (target : JobState)
    (keyed : Table.Keyed LoopJob.id jobs) (within : WithinCapacity fleet jobs) :
    WithinCapacity fleet
        (onJob id (fun job => some (Jobs.Repo.transition now target job)) jobs) ↔
      ∀ job ∈ Table.find LoopJob.id jobs id,
        occupies job.state = false → occupies target = true →
        ∀ node ∈ job.executorNodeId,
          heldCount node jobs < fleet.capacity node := by
  cases found : Table.find LoopJob.id jobs id with
  | none =>
      unfold onJob
      rw [Table.update_of_find_none found]
      apply iff_of_true within
      intro job member
      contradiction
  | some job =>
      rw [within_onJob_iff keyed within found]
      simp only [Option.mem_some_iff, forall_eq', Option.getD_some, holds_iff,
        ← Bool.not_eq_true, not_and]
      constructor
      · intro room without takes node onNode
        exact room node (fun _ => without) ⟨onNode, takes⟩
      · intro room node without takes
        exact room (without takes.1) takes.2 node takes.1

/-- One step keeps every node within its capacity exactly when it meets the
condition. -/
theorem Dispatch.Booked.within_iff {before after : Dispatch} {label : DispatchStep}
    (booked : before.Booked) (within : WithinCapacity fleet before.jobs)
    (taken : before.step fleet label = some after) :
    WithinCapacity fleet after.jobs ↔ Vacant fleet before label after := by
  cases label with
  | create now new =>
      unfold Dispatch.step at taken
      dsimp only at taken
      split at taken
      · contradiction
      · cases taken
        apply iff_of_true _ trivial
        intro node
        unfold heldCount
        rw [List.countP_append]
        exact within node
  | placeQueuedInOrder tenant priorityOf =>
      cases taken
      exact iff_of_true within trivial
  | selectExecutor index candidates =>
      obtain ⟨pass, _, rest⟩ := Option.bind_eq_some_iff.mp taken
      apply iff_of_true _ trivial
      split at rest
      · split at rest
        · split at rest <;> cases rest <;> exact within
        · cases rest
          exact within
      · contradiction
  | considerCandidate index refused =>
      obtain ⟨pass, _, rest⟩ := Option.bind_eq_some_iff.mp taken
      obtain ⟨next, _, rfl⟩ := Option.map_eq_some_iff.mp rest
      exact iff_of_true within trivial
  | leaveQueued index now reason kind =>
      obtain ⟨pass, _, rest⟩ := Option.bind_eq_some_iff.mp taken
      obtain ⟨id, _, rfl⟩ := Option.map_eq_some_iff.mp rest
      apply iff_of_true _ trivial
      exact within_onJob id booked.keyed within
        (setQueuedReason_takesNone now reason kind)
  | claimForExecutor index now =>
      obtain ⟨pass, present, rest⟩ := Option.bind_eq_some_iff.mp taken
      split at rest
      · rename_i id others node queue attempt
        cases rest
        rw [within_claim_iff id now node booked.keyed within]
        simp only [Vacant, present, Option.mem_some_iff, forall_eq', queue,
          List.head?_cons, attempt]
      · contradiction
  | loadTransition id target =>
      unfold Dispatch.step at taken
      dsimp only at taken
      apply iff_of_true _ trivial
      split at taken
      · contradiction
      · obtain ⟨job, _, rest⟩ := Option.bind_eq_some_iff.mp taken
        split at rest <;> cases rest <;> exact within
  | landTransition index now =>
      obtain ⟨call, present, rfl⟩ := Option.map_eq_some_iff.mp taken
      rw [within_transition_iff call.1 now call.2.target booked.keyed within]
      simp only [Vacant, present, Option.mem_some_iff, forall_eq']
  | write id update =>
      cases taken
      apply iff_of_true _ trivial
      exact within_onJob id booked.keyed within (write_takesNone update)

/-- In every interleaving of any number of passes over any jobs with the steps
of their runs, no node ever holds more jobs than its capacity and no job is
claimed for two nodes, exactly when every step meets the condition. -/
theorem capacity_kept_iff (fleet : Fleet) (labels : List DispatchStep) :
    Along (Dispatch.step fleet) (CapacityKept fleet) .empty labels ↔
      Along (Dispatch.step fleet) (Vacant fleet) .empty labels := by
  apply along_iff_of_invariant fun system =>
    system.Booked ∧ WithinCapacity fleet system.jobs
  · intro before label after sound taken kept
    exact ⟨sound.1.step taken, kept.1⟩
  · intro before label after sound taken
    rw [← sound.1.within_iff sound.2 taken]
    exact and_iff_left (sound.1.step taken).one_node
  · exact ⟨empty_booked, fun _ => Nat.zero_le _⟩

/-- A fleet whose every node runs one job at a time. -/
def oneSlot : Fleet := fun _ =>
  some { maxLoopJobs := some 1, advertised := none, maxLoopJobsPinned := false }

/-- A review job of a tenant. -/
def newReview (id : JobId) (tenant : TenantId) : NewLoopJob :=
  { id, tenant, kind := .review, targetTaskId := none, workspaceId := some 3
    requestedBy := 2, seed := none, predecessorJobId := none
    reviewPrNumber := some 12, reviewHeadSha := some "9fceb02"
    reviewForced := false, buildFingerprint := none }

/-- Two tenants whose jobs may run on node 5 have one queued each, and both
passes read what the node holds before either claims it: it ends up with two
jobs in its one slot. -/
theorem last_slot_taken_twice :
    ∃ final,
      run (Dispatch.step oneSlot) .empty
        [.create 0 (newReview 1 1), .create 0 (newReview 2 2),
          .placeQueuedInOrder 1 (fun _ => 0), .placeQueuedInOrder 2 (fun _ => 0),
          .selectExecutor 0 [5], .selectExecutor 1 [5],
          .considerCandidate 0 false, .considerCandidate 1 false,
          .claimForExecutor 0 1, .claimForExecutor 1 2] = some final ∧
      ¬ WithinCapacity oneSlot final.jobs :=
  ⟨_, rfl, fun within => absurd (within 5) (by decide)⟩

end NookOs.Placement
