/-
Module: NookOs.Placement.PortLeases
Purpose: The table of port leases, its statements, and the allocation of a
  build's ports as the awaits it is made of.
Trusted boundary: none
Main exports: PortLease, Leases.addLease, Progress.added, Progress.contended
-/
import NookOs.Lib.Table
import NookOs.Jobs.LoopJob

namespace NookOs.Placement

open Lib Jobs

/-!
A lease is held by a session or by a card's build.  The allocation reads what
its holder has, and then, listener by listener, reads which ports of the node
are taken, picks the lowest free one, and inserts.  The insert refuses a port
somebody else took in between, and the listener is tried again.
-/

abbrev SessionId := Nat

/-- Who holds a lease: exactly one of the row's two columns. -/
inductive LeaseHolder where
  | session (id : SessionId)
  | build (task : TaskId)
deriving DecidableEq

/-- A row of `session_port_leases`. -/
structure PortLease where
  holder : LeaseHolder
  node : NodeId
  name : String
  env : String
  port : Int
deriving DecidableEq

/-- The card whose build holds the lease. -/
def PortLease.task (lease : PortLease) : Option TaskId :=
  match lease.holder with
  | .build task => some task
  | .session _ => none

/-- A lease as its holder sees it. -/
structure LeasedPort where
  name : String
  env : String
  port : Int
deriving DecidableEq

/-- A listener a workspace declares. -/
structure PortRequirement where
  name : String
  env : String
  required : Bool
  runtimes : List String
deriving DecidableEq

/-- The ports a node leases from, both ends included. -/
structure PortRange where
  start : Int
  last : Int
deriving DecidableEq

/-- A required listener that could not be satisfied. -/
structure Refusal where
  listener : String
  env : String
  message : String
deriving DecidableEq

/-- What a build got, and the optional listeners it did not get. -/
structure Leased where
  ports : List LeasedPort
  unsatisfied : List String
deriving DecidableEq

namespace Leases

/-- The conflict target of the INSERT.  A session's listener has one row, a
card's has one for each node. -/
def sameListener (lease other : PortLease) : Bool :=
  match lease.holder with
  | .session _ => other.holder = lease.holder && other.name = lease.name
  | .build _ =>
      other.holder = lease.holder && other.node = lease.node &&
        other.name = lease.name

/-- Insert a lease, or move the listener's own row to the port.  `none` is the
unique violation: another row of the node has the port. -/
def addLease (lease : PortLease) (leases : List PortLease) :
    Option (List PortLease) :=
  match leases.find? (sameListener lease) with
  | some present =>
      if leases.any fun other =>
          !sameListener lease other && other.node = present.node &&
            other.port = lease.port then none
      else
        some (leases.map fun other =>
          if sameListener lease other then
            { other with port := lease.port, env := lease.env }
          else other)
  | none =>
      if leases.any fun other =>
          other.node = lease.node && other.port = lease.port then none
      else some (leases ++ [lease])

/-- Drop the rows of the node's sessions that are live no longer. -/
def reclaim (node : NodeId) (live : SessionId → Bool) (leases : List PortLease) :
    List PortLease :=
  leases.filter fun lease =>
    match lease.holder with
    | .session id => lease.node ≠ node || live id
    | .build _ => true

/-- The ports taken on a node. -/
def heldPorts (node : NodeId) (leases : List PortLease) : List Int :=
  (leases.filter fun lease => lease.node = node).map PortLease.port

/-- What a card's build holds on a node.  The SELECT's order plays no part in a
lookup by name. -/
def buildLeasesOf (node : NodeId) (task : TaskId) (leases : List PortLease) :
    List LeasedPort :=
  (leases.filter fun lease =>
    lease.holder = .build task && lease.node = node).map fun lease =>
      { name := lease.name, env := lease.env, port := lease.port }

/-- Drop everything a holder has on a node. -/
def releaseByHolder (node : NodeId) (holder : LeaseHolder)
    (leases : List PortLease) : List PortLease :=
  leases.filter fun lease => !(lease.node = node && lease.holder = holder)

/-- Drop exactly the named leases of one holder on one node. -/
def releaseNames (node : NodeId) (holder : LeaseHolder) (names : List String)
    (leases : List PortLease) : List PortLease :=
  leases.filter fun lease =>
    !(lease.node = node && lease.holder = holder && names.contains lease.name)

/-- The card's build has a lease for the listener on the node. -/
def stored (leases : List PortLease) (task : TaskId) (node : NodeId)
    (name : String) : Bool :=
  leases.any fun lease =>
    lease.holder = .build task && lease.node = node && lease.name = name

end Leases

/-- The listener is for a session running the runtime.  The comparison ignores
ASCII case. -/
def wants (runtime : String) (req : PortRequirement) : Bool :=
  req.runtimes.isEmpty || req.runtimes.any fun declared =>
    declared.toList.map Char.toLower = runtime.toList.map Char.toLower

/-- The runtime a build's ports are declared for. -/
def buildRuntime : String := "claude"

/-- How many times a listener is tried when another holder takes the port. -/
def raceRetries : Nat := 3

/-- The lowest port of the range that is neither taken nor excluded. -/
def lowestFree (range : PortRange) (taken excluded : List Int) : Option Int :=
  ((List.range (range.last - range.start + 1).toNat).map fun offset =>
    range.start + (offset : Int)).find? fun port =>
      !taken.contains port && !excluded.contains port

namespace Refusal

/-- The node advertises no range at all. -/
def noRange (req : PortRequirement) : Refusal :=
  { listener := req.name
    env := req.env
    message := "this workspace needs a port for `" ++ req.name ++ "` (" ++
      req.env ++ "), and this node advertises no port range" }

/-- Every port is taken, or excluded. -/
def noFreePort (req : PortRequirement) (range : PortRange)
    (excluded : List Int) : Refusal :=
  let inside := excluded.countP fun port =>
    range.start ≤ port && port ≤ range.last
  let ports := "every port in " ++ toString range.start ++ "–" ++
    toString range.last
  let because :=
    if inside = 0 then ports ++ " is leased on this node"
    else
      ports ++ " is either leased or excluded (" ++ toString inside ++
        " excluded on this node)"
  { listener := req.name
    env := req.env
    message := "no free port for `" ++ req.name ++ "` (" ++ req.env ++ "): " ++
      because }

/-- Every try lost the port to another holder. -/
def contention (req : PortRequirement) : Refusal :=
  { listener := req.name
    env := req.env
    message := "could not lease a port for `" ++ req.name ++
      "`: too many sessions starting at once, try again" }

end Refusal

/-- An allocation between its read of what the holder has and its answer. -/
structure Progress where
  range : PortRange
  excluded : List Int
  held : List LeasedPort
  todo : List PortRequirement
  leased : List LeasedPort
  unsatisfied : List String
  takenHere : List String
  tries : Nat
deriving DecidableEq

/-- What an allocation does next. -/
inductive AllocationPhase where
  /-- Reads what the card already holds on the node. -/
  | readHeld (range : PortRange) (excluded : List Int)
  /-- Looks at the next listener. -/
  | listener (progress : Progress)
  /-- Inserts the port it picked for the next listener. -/
  | add (progress : Progress) (port : Int)
  /-- Gives back what it had taken. -/
  | undo (takenHere : List String) (refusal : Refusal)
  /-- Answers that the job has to wait. -/
  | refused (refusal : Refusal)
  /-- Answers what is leased. -/
  | leased (answer : Leased)
deriving DecidableEq

/-- The opening of `lease_owned` for a build: no await on the lease table is
needed where nothing is declared or the node has no range. -/
def allocateFor (reqs : List PortRequirement) (range : Option PortRange)
    (exclusions : List Int) : AllocationPhase :=
  match reqs, range with
  | [], _ => .leased { ports := [], unsatisfied := [] }
  | reqs, none =>
      match reqs.find? PortRequirement.required with
      | some req => .refused (.noRange req)
      | none => .leased { ports := [], unsatisfied := [] }
  | _, some range => .readHeld range exclusions.dedup

/-- The loop begins with what the holder has. -/
def Progress.start (range : PortRange) (excluded : List Int)
    (held : List LeasedPort) (reqs : List PortRequirement) : Progress :=
  { range, excluded, held, todo := reqs, leased := [], unsatisfied := []
    takenHere := [], tries := 0 }

/-- The next listener, unless the holder has a lease for it already. -/
def Progress.missing (progress : Progress) : Option PortRequirement :=
  match progress.todo with
  | [] => none
  | req :: _ =>
      if progress.held.any fun lease => lease.name = req.name then none
      else some req

/-- The next listener keeps the port it has, or takes the lowest free one, or
is refused or left out for want of one. -/
def Progress.listen (taken : List Int) (progress : Progress) : AllocationPhase :=
  match progress.todo with
  | [] => .leased { ports := progress.leased, unsatisfied := progress.unsatisfied }
  | req :: rest =>
      match progress.held.find? fun lease => lease.name = req.name with
      | some existing =>
          .listener
            { progress with todo := rest, leased := progress.leased ++ [existing] }
      | none =>
          match lowestFree progress.range taken progress.excluded with
          | some port => .add progress port
          | none =>
              if req.required then
                .undo progress.takenHere
                  (.noFreePort req progress.range progress.excluded)
              else
                .listener
                  { progress with
                    todo := rest
                    unsatisfied := progress.unsatisfied ++ [req.name]
                    tries := 0 }

/-- The insert went through. -/
def Progress.added (port : Int) (progress : Progress) : AllocationPhase :=
  match progress.todo with
  | [] => .listener progress
  | req :: rest =>
      .listener
        { progress with
          todo := rest
          leased := progress.leased ++ [{ name := req.name, env := req.env, port }]
          takenHere := progress.takenHere ++ [req.name]
          tries := 0 }

/-- The insert lost the port to another holder. -/
def Progress.contended (progress : Progress) : AllocationPhase :=
  match progress.todo with
  | [] => .listener progress
  | req :: _ =>
      if progress.tries + 1 < raceRetries then
        .listener { progress with tries := progress.tries + 1 }
      else .undo progress.takenHere (.contention req)

/-- The row the allocation inserts for its next listener. -/
def Progress.lease (task : TaskId) (node : NodeId) (port : Int)
    (progress : Progress) : Option PortLease :=
  progress.todo.head?.map fun req =>
    { holder := .build task, node, name := req.name, env := req.env, port }

/-- A lease the allocation has found or taken so far. -/
def AllocationPhase.reports (name : String) : AllocationPhase → Bool
  | .listener progress | .add progress _ =>
      progress.held.any (fun lease => lease.name = name) ||
        progress.leased.any fun lease => lease.name = name
  | .leased answer => answer.ports.any fun lease => lease.name = name
  | .readHeld _ _ | .undo _ _ | .refused _ => false

namespace Leases

variable {leases : List PortLease} {task : TaskId} {node : NodeId} {name : String}

theorem stored_iff :
    stored leases task node name = true ↔
      ∃ lease ∈ leases, lease.holder = .build task ∧ lease.node = node ∧
        lease.name = name := by
  simp [stored, and_assoc]

/-- What the card holds is stored. -/
theorem stored_of_held {port : LeasedPort}
    (member : port ∈ buildLeasesOf node task leases) :
    stored leases task node port.name = true := by
  obtain ⟨lease, kept, rfl⟩ := List.mem_map.mp member
  obtain ⟨inLeases, mine⟩ := List.mem_filter.mp kept
  rw [Bool.and_eq_true, decide_eq_true_eq, decide_eq_true_eq] at mine
  exact stored_iff.mpr ⟨lease, inLeases, mine.1, mine.2, rfl⟩

/-- The reclaim of sessions does not reach a build's row. -/
theorem mem_reclaim_iff {live : SessionId → Bool} {lease : PortLease}
    (isBuild : lease.holder = .build task) :
    lease ∈ reclaim node live leases ↔ lease ∈ leases := by
  unfold reclaim
  rw [List.mem_filter, isBuild]
  exact and_iff_left rfl

theorem mem_of_mem_reclaim {live : SessionId → Bool} {lease : PortLease}
    (member : lease ∈ reclaim node live leases) : lease ∈ leases :=
  List.mem_of_mem_filter member

theorem stored_reclaim (place : NodeId) (live : SessionId → Bool) :
    stored (reclaim place live leases) task node name =
      stored leases task node name := by
  rw [Bool.eq_iff_iff, stored_iff, stored_iff]
  constructor
  · intro kept
    obtain ⟨lease, member, isBuild, rest⟩ := kept
    exact ⟨lease, (mem_reclaim_iff isBuild).mp member, isBuild, rest⟩
  · intro kept
    obtain ⟨lease, member, isBuild, rest⟩ := kept
    exact ⟨lease, (mem_reclaim_iff isBuild).mpr member, isBuild, rest⟩

/-- A row of the listener is the lease's own, up to its number. -/
theorem sameListener_build {lease other : PortLease}
    (isBuild : lease.holder = .build task)
    (same : sameListener lease other = true) :
    other.holder = lease.holder ∧ other.node = lease.node ∧
      other.name = lease.name := by
  simpa [sameListener, isBuild, and_assoc] using same

/-- An insert that went through moved rows to other ports, or added the new
one. -/
theorem mem_addLease {lease row : PortLease} {after : List PortLease}
    (added : addLease lease leases = some after) (member : row ∈ after) :
    (∃ before ∈ leases, row.holder = before.holder ∧ row.node = before.node ∧
      row.name = before.name) ∨ row = lease := by
  unfold addLease at added
  split at added
  · split at added
    · contradiction
    · cases added
      obtain ⟨before, inLeases, rfl⟩ := List.mem_map.mp member
      left
      refine ⟨before, inLeases, ?_⟩
      split <;> exact ⟨rfl, rfl, rfl⟩
  · split at added
    · contradiction
    · cases added
      rcases List.mem_append.mp member with earlier | new
      · exact .inl ⟨row, earlier, rfl, rfl, rfl⟩
      · exact .inr (List.mem_singleton.mp new)

/-- An insert loses no listener of anyone. -/
theorem stored_addLease {lease : PortLease} {after : List PortLease}
    (added : addLease lease leases = some after)
    (was : stored leases task node name = true) :
    stored after task node name = true := by
  obtain ⟨row, member, holder, onNode, named⟩ := stored_iff.mp was
  unfold addLease at added
  split at added
  · split at added
    · contradiction
    · cases added
      apply stored_iff.mpr
      refine ⟨_, List.mem_map_of_mem member, ?_⟩
      split <;> exact ⟨holder, onNode, named⟩
  · split at added
    · contradiction
    · cases added
      exact stored_iff.mpr ⟨row, List.mem_append_left _ member, holder, onNode, named⟩

/-- The listener an insert was for has its lease. -/
theorem stored_added {lease : PortLease} {after : List PortLease}
    (added : addLease lease leases = some after)
    (isBuild : lease.holder = .build task) :
    stored after task lease.node lease.name = true := by
  unfold addLease at added
  split at added
  · rename_i present found
    split at added
    · contradiction
    · cases added
      have same := List.find?_some found
      obtain ⟨holder, onNode, named⟩ := sameListener_build isBuild same
      apply stored_iff.mpr
      refine ⟨_, List.mem_map_of_mem (List.mem_of_find?_eq_some found), ?_⟩
      rw [if_pos same]
      exact ⟨holder.trans isBuild, onNode, named⟩
  · split at added
    · contradiction
    · cases added
      exact stored_iff.mpr
        ⟨lease, List.mem_append_right _ (List.mem_singleton_self _), isBuild, rfl, rfl⟩

/-- A release reaches the rows of its holder and node only. -/
theorem stored_releaseByHolder {place : NodeId} {holder : LeaseHolder}
    (was : stored leases task node name = true)
    (other : ¬ (node = place ∧ LeaseHolder.build task = holder)) :
    stored (releaseByHolder place holder leases) task node name = true := by
  obtain ⟨row, member, isBuild, onNode, named⟩ := stored_iff.mp was
  apply stored_iff.mpr
  refine ⟨row, List.mem_filter.mpr ⟨member, ?_⟩, isBuild, onNode, named⟩
  rw [onNode, isBuild]
  simpa using not_and_or.mp other

theorem stored_releaseNames {place : NodeId} {holder : LeaseHolder}
    {names : List String} (was : stored leases task node name = true)
    (other : node = place → LeaseHolder.build task = holder → name ∉ names) :
    stored (releaseNames place holder names leases) task node name = true := by
  obtain ⟨row, member, isBuild, onNode, named⟩ := stored_iff.mp was
  apply stored_iff.mpr
  refine ⟨row, List.mem_filter.mpr ⟨member, ?_⟩, isBuild, onNode, named⟩
  rw [onNode, isBuild, named]
  simp only [Bool.not_eq_true', Bool.and_eq_false_iff, decide_eq_false_iff_not,
    List.contains_eq_mem]
  by_cases here : node = place
  · by_cases mine : LeaseHolder.build task = holder
    · exact .inr (other here mine)
    · exact .inl (.inr mine)
  · exact .inl (.inl here)

end Leases

end NookOs.Placement
