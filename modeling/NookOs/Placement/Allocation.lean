/-
Module: NookOs.Placement.Allocation
Purpose: The allocation of a card's ports as a program of repository calls that may fail,
  what it answers and what it leaves of the card's leases when it does not.
Trusted boundary: none
Main exports: Statement, Rows, allocation, leaseOwned, leaseEach_ran, leaseOwned_settles
-/
import Mathlib.Order.Bounds.Basic
import NookOs.Lib.Program
import NookOs.Placement.PortLeases

namespace NookOs.Placement.Allocation

open Lib
open Lib.Program (Failing perform attempt)
open Jobs (NodeId TaskId)

/-!
The allocation runs alone here, so what it waits for is the repository.  A call
that fails has had no effect, or has had it and lost its answer.
-/

section Statements

inductive ApiError where
  | database
deriving DecidableEq

inductive Statement where
  | requirementsOf
  | rangeOf (node : NodeId)
  | leasesOf (node : NodeId) (holder : LeaseHolder)
  | exclusionsOf (node : NodeId)
  | reclaim (node : NodeId)
  | heldPorts (node : NodeId)
  | addLease (lease : PortLease)
  | releaseLeaseNames (node : NodeId) (holder : LeaseHolder) (names : List String)
deriving DecidableEq

abbrev Statement.Value : Statement → Type
  | .requirementsOf => List PortRequirement
  | .rangeOf _ => Option PortRange
  | .leasesOf .. => List LeasedPort
  | .exclusionsOf _ => List Int
  | .reclaim _ => Unit
  | .heldPorts _ => List Int
  | .addLease _ => Bool
  | .releaseLeaseNames .. => Unit

/-- What the workspace declares, what the node offers and rules out, which sessions are
live, and the leases. -/
structure Rows where
  requirements : List PortRequirement
  range : NodeId → Option PortRange
  exclusions : NodeId → List Int
  live : SessionId → Bool
  leases : List PortLease

/-- What a session holds, or a card's build on a node. -/
def leasesOf (node : NodeId) (leases : List PortLease) : LeaseHolder → List LeasedPort
  | .session id =>
      (leases.filter fun lease => lease.holder = .session id).map fun lease =>
        { name := lease.name, env := lease.env, port := lease.port }
  | .build task => Leases.buildLeasesOf node task leases

namespace Rows

def answer (rows : Rows) : (request : Statement) → Rows × request.Value
  | .requirementsOf => (rows, rows.requirements)
  | .rangeOf node => (rows, rows.range node)
  | .leasesOf node holder => (rows, leasesOf node rows.leases holder)
  | .exclusionsOf node => (rows, rows.exclusions node)
  | .reclaim node => ({ rows with leases := Leases.reclaim node rows.live rows.leases }, ())
  | .heldPorts node => (rows, Leases.heldPorts node rows.leases)
  | .addLease lease =>
      match Leases.addLease lease rows.leases with
      | some added => ({ rows with leases := added }, true)
      | none => (rows, false)
  | .releaseLeaseNames node holder names =>
      ({ rows with leases := Leases.releaseNames node holder names rows.leases }, ())

end Rows

/-- How a call goes: it runs, it fails before it has an effect, or it has its effect and
its answer is lost. -/
inductive Outcome where
  | runs
  | fails
  | lost
deriving DecidableEq

def Rows.execute (rows : Rows) (outcome : Outcome) (request : Statement) :
    Option (Rows × Except ApiError request.Value) :=
  let (after, value) := rows.answer request
  match outcome with
  | .runs => some (after, .ok value)
  | .fails => some (rows, .error .database)
  | .lost => some (after, .error .database)

end Statements

section Calls

abbrev Call (Answer : Type) := Failing Statement Statement.Value ApiError Answer

/-- A call of the repository. -/
abbrev repo (request : Statement) : Call request.Value := perform request

/-- One requirement, with the race retried. -/
def leaseOne (node : NodeId) (holder : LeaseHolder) (range : PortRange) (excluded : List Int)
    (req : PortRequirement) : Nat → Call (Except Refusal (Option Int))
  | 0 => pure (.error (.contention req))
  | tries + 1 => do
      repo (.reclaim node)
      let held ← repo (.heldPorts node)
      match lowestFree range held excluded with
      | none => pure (.ok none)
      | some port =>
          if ← repo (.addLease { holder, node, name := req.name, env := req.env, port }) then
            pure (.ok (some port))
          else leaseOne node holder range excluded req tries

/-- Give back what a refused allocation had already taken.  Builds only, and a failure is
logged. -/
def undo (node : NodeId) (holder : LeaseHolder) (names : List String) : Call Unit :=
  match holder with
  | .session _ => pure ()
  | .build _ =>
      if names = [] then pure ()
      else do
        let _ ← attempt (.releaseLeaseNames node holder names)
        pure ()

/-- The loop over the requirements, with what is leased, what is not, and what this call
has written. -/
def leaseEach (node : NodeId) (holder : LeaseHolder) (range : PortRange) (excluded : List Int)
    (held : List LeasedPort) :
    List PortRequirement → List LeasedPort → List String → List String →
      Call (Except Refusal Leased)
  | [], ports, unsatisfied, _ => pure (.ok { ports, unsatisfied })
  | req :: rest, ports, unsatisfied, takenHere =>
      match held.find? fun lease => lease.name = req.name with
      | some existing =>
          leaseEach node holder range excluded held rest (ports ++ [existing]) unsatisfied takenHere
      | none => do
          match ← leaseOne node holder range excluded req raceRetries with
          | .error refusal =>
              undo node holder takenHere
              pure (.error refusal)
          | .ok (some port) =>
              leaseEach node holder range excluded held rest
                (ports ++ [{ name := req.name, env := req.env, port }]) unsatisfied
                (takenHere ++ [req.name])
          | .ok none =>
              if req.required then do
                undo node holder takenHere
                pure (.error (.noFreePort req range excluded))
              else
                leaseEach node holder range excluded held rest ports
                  (unsatisfied ++ [req.name]) takenHere

def leaseOwned (node : NodeId) (holder : LeaseHolder) (runtime : String) (avoid : List Int) :
    Call (Except Refusal Leased) := do
  let reqs := (← repo .requirementsOf).filter (wants runtime)
  if reqs = [] then
    pure (.ok { ports := [], unsatisfied := [] })
  else
    match ← repo (.rangeOf node) with
    | none =>
        match reqs.find? PortRequirement.required with
        | some req => pure (.error (.noRange req))
        | none => pure (.ok { ports := [], unsatisfied := [] })
    | some range => do
        let held ← repo (.leasesOf node holder)
        let exclusions ← repo (.exclusionsOf node)
        leaseEach node holder range (exclusions ++ avoid).dedup held reqs [] [] []

def leaseForBuild (node : NodeId) (task : TaskId) : Call (Except Refusal Leased) :=
  leaseOwned node (.build task) buildRuntime []

structure Request where
  node : NodeId
  holder : LeaseHolder
  runtime : String
  avoid : List Int
deriving DecidableEq

def allocation : Service Rows Outcome Empty Request Statement
    (fun request => Except ApiError request.Value) (Except ApiError (Except Refusal Leased)) where
  handler request := leaseOwned request.node request.holder request.runtime request.avoid
  execute := Rows.execute
  happen _ event := event.elim

end Calls

section Alone

/-- A call of which nothing fails. -/
def alone {Answer : Type} :
    Program Statement (fun request => Except ApiError request.Value) Answer →
      Rows → Rows × Answer
  | .answer value, rows => (rows, value)
  | .statement request next, rows =>
      alone (next (.ok (rows.answer request).2)) (rows.answer request).1

end Alone

section Properties

/-- No two leases of a node have a port in common, and no two of a holder on it a
listener. -/
structure Indexed (leases : List PortLease) : Prop where
  ports : Table.Keyed (fun lease : PortLease => (lease.node, lease.port)) leases
  listeners : Table.Keyed (fun lease : PortLease => (lease.holder, lease.node, lease.name)) leases

/-- What a card has leased on a node. -/
def cardLeases (node : NodeId) (task : TaskId) (leases : List PortLease) : List PortLease :=
  leases.filter fun lease => lease.holder = .build task ∧ lease.node = node

/-- The free ports of a range, the lowest first. -/
def freePorts (range : PortRange) (taken excluded : List Int) : List Int :=
  ((List.range (range.last - range.start + 1).toNat).map fun offset : Nat =>
    range.start + (offset : Int)).filter fun port =>
      !taken.contains port && !excluded.contains port

namespace Rows

variable (rows : Rows) (node : NodeId) (task : TaskId) (runtime : String) (avoid : List Int)

def wanted : List PortRequirement := rows.requirements.filter (wants runtime)

def held : List LeasedPort := Leases.buildLeasesOf node task rows.leases

def excluded : List Int := (rows.exclusions node ++ avoid).dedup

/-- The ports the node has taken, once the dead sessions' are reclaimed. -/
def taken : List Int := Leases.heldPorts node (Leases.reclaim node rows.live rows.leases)

end Rows

/-- The requirements the card has no lease for. -/
def missing (held : List LeasedPort) (reqs : List PortRequirement) : List PortRequirement :=
  reqs.filter fun req => !held.any fun lease => lease.name = req.name

/-- What an allocation that succeeds has answered and stored.  A port it has newly taken
was the lowest that was not leased, by others or by itself before, and not excluded. -/
structure Answers (node : NodeId) (task : TaskId) (runtime : String) (avoid : List Int)
    (before after : Rows) (answer : Leased) : Prop where
  names : (answer.ports.map LeasedPort.name).Nodup
  ports : (answer.ports.map LeasedPort.port).Nodup
  stored : ∀ port ∈ answer.ports,
    { holder := .build task, node, name := port.name, env := port.env, port := port.port } ∈
      after.leases
  lowest : ∀ range ∈ before.range node, ∀ front port back,
    (answer.ports.filter fun port => !(before.held node task).any (·.name = port.name)) =
      front ++ port :: back →
    IsLeast {free | range.start ≤ free ∧ free ≤ range.last ∧
      free ∉ before.taken node ∧ free ∉ front.map LeasedPort.port ∧
      free ∉ before.excluded node avoid} port.port
  kept : ∀ lease ∈ cardLeases node task before.leases, lease ∈ after.leases
  reused : ∀ range ∈ before.range node, ∀ req ∈ before.wanted runtime,
    ∀ lease ∈ before.held node task, lease.name = req.name → lease ∈ answer.ports

/-- What the claim says of one allocation. -/
def AllOrNothing (node : NodeId) (task : TaskId) (runtime : String) (avoid : List Int)
    (before after : Rows) : Except ApiError (Except Refusal Leased) → Prop
  | .ok (.ok answer) => Answers node task runtime avoid before after answer
  | .ok (.error _) | .error _ =>
      cardLeases node task after.leases = cardLeases node task before.leases

/-- How many calls it takes until a required listener is refused, with so many ports
free: three for a listener that gets one, two for one that does not. -/
def callsToRefusal : Nat → List PortRequirement → Option Nat
  | _, [] => none
  | free + 1, _ :: rest => (callsToRefusal free rest).map (· + 3)
  | 0, req :: rest => if req.required then some 2 else (callsToRefusal 0 rest).map (· + 2)

/-- No port is free, or every call that fails is one before the first INSERT, or that
INSERT with nothing written, or the DELETE of the undo with its rows gone. -/
def Spared (node : NodeId) (task : TaskId) (runtime : String) (avoid : List Int)
    (before : Rows) (outcomes : List Outcome) : Prop :=
  ∀ range ∈ before.range node,
    let free := freePorts range (before.taken node) (before.excluded node avoid)
    let todo := missing (before.held node task) (before.wanted runtime)
    free = [] ∨ ∀ index outcome, outcomes[index]? = some outcome → outcome ≠ .runs →
      index < 6 ∨ (index = 6 ∧ outcome = .fails) ∨
        (outcome = .lost ∧ (callsToRefusal free.length todo).map (4 + ·) = some index)

end Properties

section FreePorts

variable {range : PortRange} {taken excluded : List Int} {port : Int}

theorem lowestFree_eq (range : PortRange) (taken excluded : List Int) :
    lowestFree range taken excluded = (freePorts range taken excluded).head? := by
  rw [freePorts, List.head?_filter, lowestFree]
  simp only [List.bind_eq_flatMap, List.pure_def, ← List.map_eq_flatMap, List.map_map]
  rfl

theorem mem_freePorts : port ∈ freePorts range taken excluded ↔
    range.start ≤ port ∧ port ≤ range.last ∧ port ∉ taken ∧ port ∉ excluded := by
  have inRange : port ∈ (List.range (range.last - range.start + 1).toNat).map
      (fun offset : Nat => range.start + (offset : Int)) ↔
        range.start ≤ port ∧ port ≤ range.last := by
    rw [List.mem_map]
    constructor
    · intro ⟨offset, member, isPort⟩
      rw [List.mem_range] at member
      omega
    · intro within
      exact ⟨(port - range.start).toNat, List.mem_range.mpr (by omega), by omega⟩
  rw [freePorts, List.mem_filter, inRange]
  simp [and_assoc]

theorem freePorts_sorted (range : PortRange) (taken excluded : List Int) :
    (freePorts range taken excluded).Pairwise (· < ·) := by
  apply List.Pairwise.filter
  rw [List.pairwise_map]
  exact List.pairwise_lt_range.imp fun less => by omega

/-- Taking the lowest leaves the others. -/
theorem freePorts_cons {rest : List Int} (free : freePorts range taken excluded = port :: rest) :
    freePorts range (taken ++ [port]) excluded = rest := by
  have without : freePorts range (taken ++ [port]) excluded =
      (freePorts range taken excluded).filter fun other => other ≠ port := by
    rw [freePorts, freePorts, List.filter_filter]
    apply List.filter_congr
    intro other _
    by_cases same : other = port <;> simp [same]
  have sorted := freePorts_sorted range taken excluded
  rw [free] at sorted
  rw [without, free, List.filter_cons_of_neg (by simp), List.filter_eq_self]
  intro other member
  have above := List.rel_of_pairwise_cons sorted member
  exact decide_eq_true (by omega)

/-- The first of the free ports is the lowest that none of the earlier ones is. -/
theorem isLeast_freePorts {front back : List Int}
    (free : freePorts range taken excluded = front ++ port :: back) :
    IsLeast {other | range.start ≤ other ∧ other ≤ range.last ∧ other ∉ taken ∧
      other ∉ front ∧ other ∉ excluded} port := by
  have sorted := freePorts_sorted range taken excluded
  rw [free, List.pairwise_append] at sorted
  obtain ⟨_, above, apart⟩ := sorted
  have isFree : port ∈ freePorts range taken excluded := by
    rw [free]
    exact List.mem_append_right _ List.mem_cons_self
  obtain ⟨atLeast, atMost, notTaken, notExcluded⟩ := mem_freePorts.mp isFree
  refine ⟨⟨atLeast, atMost, notTaken, fun member => ?_, notExcluded⟩, ?_⟩
  · exact lt_irrefl port (apart port member port List.mem_cons_self)
  · intro other ⟨start, last, otherNotTaken, notFront, otherNotExcluded⟩
    have member := mem_freePorts.mpr ⟨start, last, otherNotTaken, otherNotExcluded⟩
    rw [free, List.mem_append, List.mem_cons] at member
    cases member.resolve_left notFront with
    | inl same => exact same.ge
    | inr later => exact (List.rel_of_pairwise_cons above later).le

end FreePorts

section Table

variable {leases : List PortLease} {lease : PortLease} {node : NodeId} {task : TaskId}
  {live : SessionId → Bool}

theorem mem_cardLeases : lease ∈ cardLeases node task leases ↔
    lease ∈ leases ∧ lease.holder = .build task ∧ lease.node = node := by
  rw [cardLeases, List.mem_filter, decide_eq_true_eq]

/-- The reclaim leaves a card's leases. -/
theorem cardLeases_reclaim (place : NodeId) :
    cardLeases node task (Leases.reclaim place live leases) = cardLeases node task leases := by
  rw [cardLeases, Leases.reclaim, List.filter_filter, cardLeases]
  apply List.filter_congr
  intro lease _
  cases lease.holder with
  | session | build => simp

theorem reclaim_reclaim (place : NodeId) :
    Leases.reclaim place live (Leases.reclaim place live leases) =
      Leases.reclaim place live leases := by
  rw [Leases.reclaim, Leases.reclaim, List.filter_filter]
  apply List.filter_congr
  intro lease _
  exact Bool.and_self _

theorem reclaim_append_build (isBuild : lease.holder = .build task) :
    Leases.reclaim node live (leases ++ [lease]) =
      Leases.reclaim node live leases ++ [lease] := by
  rw [Leases.reclaim, Leases.reclaim, List.filter_append, List.filter_singleton, isBuild]
  rfl

theorem heldPorts_append (here : lease.node = node) :
    Leases.heldPorts node (leases ++ [lease]) = Leases.heldPorts node leases ++ [lease.port] := by
  rw [Leases.heldPorts, Leases.heldPorts, List.filter_append, List.map_append]
  simp [here]

theorem cardLeases_append (isBuild : lease.holder = .build task) (here : lease.node = node) :
    cardLeases node task (leases ++ [lease]) = cardLeases node task leases ++ [lease] := by
  rw [cardLeases, cardLeases, List.filter_append]
  simp [isBuild, here]

/-- A new listener's port that nobody has is stored. -/
theorem addLease_new (isBuild : lease.holder = .build task)
    (absent : ∀ other ∈ cardLeases lease.node task leases, other.name ≠ lease.name)
    (isFree : lease.port ∉ Leases.heldPorts lease.node leases) :
    Leases.addLease lease leases = some (leases ++ [lease]) := by
  have noListener : leases.find? (Leases.sameListener lease) = none := by
    rw [List.find?_eq_none]
    intro other member same
    obtain ⟨holder, here, named⟩ := Leases.sameListener_build isBuild same
    exact absent other (mem_cardLeases.mpr ⟨member, holder.trans isBuild, here⟩) named
  have noPort : leases.any (fun other => other.node = lease.node && other.port = lease.port) =
      false := by
    rw [List.any_eq_false]
    intro other member
    rw [Bool.and_eq_true, decide_eq_true_eq, decide_eq_true_eq]
    intro ⟨here, same⟩
    apply isFree
    exact List.mem_map.mpr ⟨other, List.mem_filter.mpr ⟨member, decide_eq_true here⟩, same⟩
  rw [Leases.addLease.eq_def, noListener]
  dsimp only
  rw [noPort]
  rfl

theorem Indexed.reclaim (indexed : Indexed leases) (place : NodeId) :
    Indexed (Leases.reclaim place live leases) where
  ports := indexed.ports.sublist (List.filter_sublist.map _)
  listeners := indexed.listeners.sublist (List.filter_sublist.map _)

theorem Indexed.append (indexed : Indexed leases) (isBuild : lease.holder = .build task)
    (absent : ∀ other ∈ cardLeases lease.node task leases, other.name ≠ lease.name)
    (isFree : lease.port ∉ Leases.heldPorts lease.node leases) :
    Indexed (leases ++ [lease]) where
  ports := by
    rw [Table.Keyed, List.map_append, List.nodup_append]
    refine ⟨indexed.ports, List.nodup_singleton _, ?_⟩
    intro key member other isOther same
    obtain ⟨present, inLeases, rfl⟩ := List.mem_map.mp member
    rw [List.map_singleton, List.mem_singleton] at isOther
    subst isOther
    obtain ⟨here, samePort⟩ := Prod.mk.inj same
    exact isFree (List.mem_map.mpr
      ⟨present, List.mem_filter.mpr ⟨inLeases, decide_eq_true here⟩, samePort⟩)
  listeners := by
    rw [Table.Keyed, List.map_append, List.nodup_append]
    refine ⟨indexed.listeners, List.nodup_singleton _, ?_⟩
    intro key member other isOther same
    obtain ⟨present, inLeases, rfl⟩ := List.mem_map.mp member
    rw [List.map_singleton, List.mem_singleton] at isOther
    subst isOther
    obtain ⟨holder, rest⟩ := Prod.mk.inj same
    obtain ⟨here, named⟩ := Prod.mk.inj rest
    exact absent present (mem_cardLeases.mpr ⟨inLeases, holder.trans isBuild, here⟩) named

/-- Releasing listeners the card has drops them from what it has. -/
theorem cardLeases_releaseNames (names : List String) :
    cardLeases node task (Leases.releaseNames node (.build task) names leases) =
      (cardLeases node task leases).filter fun lease => !names.contains lease.name := by
  rw [cardLeases, Leases.releaseNames, cardLeases, List.filter_filter, List.filter_filter]
  apply List.filter_congr
  intro lease _
  by_cases isBuild : lease.holder = .build task <;> by_cases here : lease.node = node <;>
    simp [isBuild, here]

end Table

section Steps

variable {Answer : Type} {rows after : Rows} {outcomes : List Outcome} {node : NodeId}
  {task : TaskId} {range : PortRange} {excluded : List Int} {req : PortRequirement}

/-- A call of the repository runs and the allocation goes on, or it fails and ends it. -/
theorem ran_repo {request : Statement} {next : request.Value → Call Answer}
    {result : Except ApiError Answer}
    (ran : allocation.finish (repo request >>= next).run rows outcomes = some (after, result)) :
    (∃ rest, outcomes = .runs :: rest ∧
      allocation.finish (next (rows.answer request).2).run (rows.answer request).1 rest =
        some (after, result)) ∨
    ∃ outcome, outcome ≠ .runs ∧ outcomes = [outcome] ∧ result = .error .database ∧
      after = if outcome = .lost then (rows.answer request).1 else rows := by
  obtain ⟨outcome, rest, middle, reply, rfl, executed, goesOn⟩ :=
    Service.finish_perform_bind ran
  cases outcome with
  | runs =>
      cases executed
      exact Or.inl ⟨rest, rfl, goesOn⟩
  | fails =>
      cases executed
      obtain ⟨rfl, rfl, rfl⟩ := goesOn
      exact Or.inr ⟨.fails, by decide, rfl, rfl, rfl⟩
  | lost =>
      cases executed
      obtain ⟨rfl, rfl, rfl⟩ := goesOn
      exact Or.inr ⟨.lost, by decide, rfl, rfl, rfl⟩

/-- The leases of dead sessions are dropped. -/
def Rows.reclaimed (rows : Rows) (node : NodeId) : Rows :=
  { rows with leases := Leases.reclaim node rows.live rows.leases }

/-- The listener has its lease. -/
def Rows.leased (rows : Rows) (node : NodeId) (task : TaskId) (req : PortRequirement)
    (port : Int) : Rows :=
  { rows with
    leases := rows.leases ++
      [{ holder := .build task, node, name := req.name, env := req.env, port }] }

/-- How a requirement's turn goes when nobody else leases. -/
inductive Tried (node : NodeId) (task : TaskId) (req : PortRequirement) (rows : Rows) :
    Option Int → List Outcome → Rows → Except ApiError (Except Refusal (Option Int)) → Prop
  | reclaimFails {free : Option Int} {outcome : Outcome} (broken : outcome ≠ .runs) :
      Tried node task req rows free [outcome]
        (if outcome = .lost then rows.reclaimed node else rows) (.error .database)
  | readFails {free : Option Int} {outcome : Outcome} (broken : outcome ≠ .runs) :
      Tried node task req rows free [.runs, outcome] (rows.reclaimed node) (.error .database)
  | exhausted : Tried node task req rows none [.runs, .runs] (rows.reclaimed node) (.ok (.ok none))
  | insertFails {port : Int} {outcome : Outcome} (broken : outcome ≠ .runs) :
      Tried node task req rows (some port) [.runs, .runs, outcome]
        (if outcome = .lost then (rows.reclaimed node).leased node task req port
        else rows.reclaimed node) (.error .database)
  | takes {port : Int} :
      Tried node task req rows (some port) [.runs, .runs, .runs]
        ((rows.reclaimed node).leased node task req port) (.ok (.ok (some port)))

/-- The first try decides. -/
theorem leaseOne_ran {tries : Nat} {result : Except ApiError (Except Refusal (Option Int))}
    (absent : ∀ other ∈ cardLeases node task rows.leases, other.name ≠ req.name)
    (ran : allocation.finish (leaseOne node (.build task) range excluded req (tries + 1)).run rows
      outcomes = some (after, result)) :
    Tried node task req rows (freePorts range (rows.taken node) excluded).head? outcomes after
      result := by
  rw [leaseOne] at ran
  cases ran_repo ran with
  | inr broke =>
      obtain ⟨outcome, broken, rfl, rfl, rfl⟩ := broke
      exact .reclaimFails broken
  | inl swept =>
  obtain ⟨second, rfl, reads⟩ := swept
  cases ran_repo reads with
  | inr broke =>
      obtain ⟨outcome, broken, rfl, rfl, isAfter⟩ := broke
      have same : after = rows.reclaimed node := isAfter.trans (ite_self _)
      rw [same]
      exact .readFails broken
  | inl read =>
  obtain ⟨third, rfl, picks⟩ := read
  have isLowest : lowestFree range (Leases.heldPorts node (rows.reclaimed node).leases) excluded =
      (freePorts range (rows.taken node) excluded).head? := lowestFree_eq ..
  change allocation.finish (ExceptT.run (match lowestFree range
    (Leases.heldPorts node (rows.reclaimed node).leases) excluded with
    | none => _
    | some port => _)) (rows.reclaimed node) third = _ at picks
  cases free : (freePorts range (rows.taken node) excluded).head? with
  | none =>
      rw [isLowest, free] at picks
      obtain ⟨rfl, rfl, rfl⟩ := Service.finish_answer _ picks
      exact .exhausted
  | some port =>
      rw [isLowest, free] at picks
      have isFree : port ∉ Leases.heldPorts node (rows.reclaimed node).leases :=
        (mem_freePorts.mp (List.mem_of_mem_head? free)).2.2.1
      have absentStill : ∀ other ∈ cardLeases node task (rows.reclaimed node).leases,
          other.name ≠ req.name := by
        intro other member
        rw [Rows.reclaimed, cardLeases_reclaim] at member
        exact absent other member
      have added : (rows.reclaimed node).answer (.addLease
          { holder := .build task, node, name := req.name, env := req.env, port }) =
          ((rows.reclaimed node).leased node task req port, true) := by
        rw [Rows.answer, addLease_new rfl absentStill isFree]
        rfl
      cases ran_repo picks with
      | inr broke =>
          obtain ⟨outcome, broken, rfl, rfl, rfl⟩ := broke
          rw [added]
          exact .insertFails broken
      | inl inserted =>
          obtain ⟨fourth, rfl, answers⟩ := inserted
          rw [added] at answers
          obtain ⟨rfl, rfl, rfl⟩ := Service.finish_answer _ answers
          exact .takes

/-- What a refused allocation leaves of the card's leases: those there are, but for what
it has taken if there is any and the undo does not fail. -/
inductive Undone (node : NodeId) (task : TaskId) (names : List String)
    (leases : List PortLease) : List Outcome → Rows → Prop
  | nothing {after : Rows} (none : names = [])
      (same : cardLeases node task after.leases = leases) : Undone node task names leases [] after
  | asked {outcome : Outcome} {after : Rows} (some : names ≠ [])
      (left : cardLeases node task after.leases =
        if outcome = .fails then leases
        else leases.filter fun lease => !names.contains lease.name) :
      Undone node task names leases [outcome] after

theorem undo_ran {names : List String} {value : Answer} {result : Except ApiError Answer}
    (ran : allocation.finish (undo node (.build task) names >>= fun _ => pure value).run rows
      outcomes = some (after, result)) :
    result = .ok value ∧
      Undone node task names (cardLeases node task rows.leases) outcomes after := by
  by_cases isEmpty : names = []
  · rw [undo, if_pos isEmpty] at ran
    obtain ⟨rfl, rfl, rfl⟩ := Service.finish_answer _ ran
    exact ⟨rfl, .nothing isEmpty rfl⟩
  · rw [undo, if_neg isEmpty] at ran
    cases outcomes with
    | nil => cases ran
    | cons outcome rest =>
        have released : cardLeases node task
            (Leases.releaseNames node (.build task) names rows.leases) =
            (cardLeases node task rows.leases).filter fun lease => !names.contains lease.name :=
          cardLeases_releaseNames names
        have isAnswer : allocation.finish (.answer (.ok value))
            (if outcome = .fails then rows
            else (rows.answer (.releaseLeaseNames node (.build task) names)).1) rest =
              some (after, result) := by
          cases outcome <;> exact ran
        obtain ⟨rfl, rfl, rfl⟩ := Service.finish_answer _ isAnswer
        refine ⟨rfl, .asked isEmpty ?_⟩
        cases outcome with
        | runs => exact released
        | fails => rfl
        | lost => exact released

end Steps

section Loop

variable {node : NodeId} {task : TaskId} {range : PortRange} {excluded : List Int}
  {held : List LeasedPort} {req : PortRequirement} {todo : List PortRequirement}
  {rows after : Rows} {port : Int}

theorem missing_held {existing : LeasedPort}
    (found : held.find? (fun lease => lease.name = req.name) = some existing) :
    missing held (req :: todo) = missing held todo := by
  have same := List.find?_some found
  have isHeld : held.any (fun lease => lease.name = req.name) = true :=
    List.any_eq_true.mpr ⟨existing, List.mem_of_find?_eq_some found, same⟩
  rw [missing, List.filter_cons_of_neg (by rw [isHeld]; decide), missing]

theorem missing_new (absent : held.find? (fun lease => lease.name = req.name) = none) :
    missing held (req :: todo) = req :: missing held todo := by
  have notHeld : held.any (fun lease => lease.name = req.name) = false := by
    rw [List.any_eq_false]
    exact List.find?_eq_none.mp absent
  rw [missing, List.filter_cons_of_pos (by rw [notHeld]; rfl), missing]

theorem callsToRefusal_cons {free calls : Nat} (refused :
    callsToRefusal free (req :: todo) = some calls) :
    2 ≤ calls ∧ (free ≠ 0 → 3 ≤ calls) := by
  cases free with
  | zero =>
      rw [callsToRefusal] at refused
      by_cases isRequired : req.required = true
      · rw [if_pos isRequired] at refused
        cases refused
        exact ⟨Nat.le_refl 2, fun none => absurd rfl none⟩
      · rw [if_neg isRequired] at refused
        obtain ⟨later, _, rfl⟩ := Option.map_eq_some_iff.mp refused
        exact ⟨Nat.le_add_left 2 later, fun none => absurd rfl none⟩
  | succ free =>
      rw [callsToRefusal] at refused
      obtain ⟨later, _, rfl⟩ := Option.map_eq_some_iff.mp refused
      exact ⟨by omega, fun _ => by omega⟩

/-- What the loop relies on: the requirements are distinct, and the card has no lease for
those that it has found none for. -/
structure Ready (node : NodeId) (task : TaskId) (held : List LeasedPort)
    (todo : List PortRequirement) (rows : Rows) : Prop where
  indexed : Indexed rows.leases
  absent : ∀ req ∈ missing held todo, ∀ lease ∈ cardLeases node task rows.leases,
    lease.name ≠ req.name
  names : (todo.map PortRequirement.name).Nodup

theorem Ready.tail (ready : Ready node task held (req :: todo) rows) :
    Ready node task held todo rows where
  indexed := ready.indexed
  absent other member := ready.absent other (by
    obtain ⟨inTodo, notHeld⟩ := List.mem_filter.mp member
    exact List.mem_filter.mpr ⟨List.mem_cons_of_mem req inTodo, notHeld⟩)
  names := (List.nodup_cons.mp ready.names).2

theorem cardLeases_reclaimed :
    cardLeases node task (rows.reclaimed node).leases = cardLeases node task rows.leases :=
  cardLeases_reclaim node

theorem cardLeases_leased :
    cardLeases node task (rows.leased node task req port).leases =
      cardLeases node task rows.leases ++
        [{ holder := .build task, node, name := req.name, env := req.env, port }] :=
  cardLeases_append rfl rfl

theorem Ready.reclaimed (ready : Ready node task held todo rows) :
    Ready node task held todo (rows.reclaimed node) where
  indexed := ready.indexed.reclaim node
  absent other member := by
    rw [cardLeases_reclaimed]
    exact ready.absent other member
  names := ready.names

theorem Ready.leased (ready : Ready node task held (req :: todo) rows)
    (absent : held.find? (fun lease => lease.name = req.name) = none)
    (isFree : port ∉ Leases.heldPorts node rows.leases) :
    Ready node task held todo (rows.leased node task req port) where
  indexed := by
    refine ready.indexed.append rfl ?_ isFree
    exact ready.absent req (by rw [missing_new absent]; exact List.mem_cons_self)
  absent other member lease isLease := by
    rw [cardLeases_leased] at isLease
    cases List.mem_append.mp isLease with
    | inl old => exact ready.tail.absent other member lease old
    | inr new =>
        cases List.mem_singleton.mp new
        intro same
        have inTodo : other ∈ todo := List.mem_of_mem_filter member
        apply (List.nodup_cons.mp ready.names).1
        have named : req.name = other.name := same
        rw [named]
        exact List.mem_map_of_mem inTodo
  names := (List.nodup_cons.mp ready.names).2

theorem taken_reclaimed : (rows.reclaimed node).taken node = rows.taken node :=
  congrArg (Leases.heldPorts node) (reclaim_reclaim node)

theorem taken_leased :
    ((rows.reclaimed node).leased node task req port).taken node = rows.taken node ++ [port] := by
  have reclaimedAgain : Leases.reclaim node rows.live
      (Leases.reclaim node rows.live rows.leases ++
        [{ holder := .build task, node, name := req.name, env := req.env, port }]) =
      Leases.reclaim node rows.live rows.leases ++
        [{ holder := .build task, node, name := req.name, env := req.env, port }] := by
    rw [reclaim_append_build rfl, reclaim_reclaim]
  exact (congrArg (Leases.heldPorts node) reclaimedAgain).trans (heldPorts_append rfl)

/-- The row of a card's port. -/
def LeasedPort.row (node : NodeId) (task : TaskId) (port : LeasedPort) : PortLease :=
  { holder := .build task, node, name := port.name, env := port.env, port := port.port }

/-- What the loop has added to its answer: ports held already and the new ones, which are
the lowest free in their order. -/
structure Granted (node : NodeId) (task : TaskId) (held : List LeasedPort) (free : List Int)
    (todo : List PortRequirement) (new : List PortLease) (more : List LeasedPort) : Prop where
  names : (more.map LeasedPort.name).Sublist (todo.map PortRequirement.name)
  source : ∀ port ∈ more, port ∈ held ∨ LeasedPort.row node task port ∈ new
  lowest : (more.filter fun port => !held.any (·.name = port.name)).map LeasedPort.port <+: free
  reused : ∀ req ∈ todo, ∀ existing,
    held.find? (fun lease => lease.name = req.name) = some existing → existing ∈ more

/-- How the loop ends when nobody else leases, and what the card has then. -/
inductive Ended (node : NodeId) (task : TaskId) (range : PortRange) (excluded : List Int)
    (held : List LeasedPort) (todo : List PortRequirement) (rows : Rows)
    (ports : List LeasedPort) (takenHere : List String) :
    List Outcome → Rows → Except ApiError (Except Refusal Leased) → Prop
  | broke {count : Nat} {outcome : Outcome} {new : List PortLease} {after : Rows}
      (broken : outcome ≠ .runs)
      (left : cardLeases node task after.leases = cardLeases node task rows.leases ++ new)
      (spares : new = [] ↔ freePorts range (rows.taken node) excluded = [] ∨ count < 2 ∨
        (count = 2 ∧ outcome = .fails))
      (early : ∀ calls ∈ callsToRefusal (freePorts range (rows.taken node) excluded).length
        (missing held todo), count < calls) :
      Ended node task range excluded held todo rows ports takenHere
        (List.replicate count .runs ++ [outcome]) after (.error .database)
  | refused {count : Nat} {new : List PortLease} {refusal : Refusal} {tail : List Outcome}
      {after : Rows}
      (calls : callsToRefusal (freePorts range (rows.taken node) excluded).length
        (missing held todo) = some count)
      (spares : new = [] ↔ freePorts range (rows.taken node) excluded = [])
      (named : ∀ lease ∈ new, ∃ req ∈ missing held todo, lease.name = req.name)
      (undone : Undone node task (takenHere ++ new.map PortLease.name)
        (cardLeases node task rows.leases ++ new) tail after) :
      Ended node task range excluded held todo rows ports takenHere
        (List.replicate count .runs ++ tail) after (.ok (.error refusal))
  | leased {count : Nat} {new : List PortLease} {more : List LeasedPort}
      {unsatisfied : List String} {after : Rows} (indexed : Indexed after.leases)
      (left : cardLeases node task after.leases = cardLeases node task rows.leases ++ new)
      (granted : Granted node task held (freePorts range (rows.taken node) excluded) todo new
        more) :
      Ended node task range excluded held todo rows ports takenHere
        (List.replicate count .runs) after (.ok (.ok { ports := ports ++ more, unsatisfied }))

section Turns

variable {ports : List LeasedPort} {takenHere : List String} {outcomes : List Outcome}
  {result : Except ApiError (Except Refusal Leased)}

/-- A requirement that is held keeps its port. -/
theorem Ended.existing {existing : LeasedPort}
    (found : held.find? (fun lease => lease.name = req.name) = some existing)
    (ended : Ended node task range excluded held todo rows (ports ++ [existing]) takenHere
      outcomes after result) :
    Ended node task range excluded held (req :: todo) rows ports takenHere outcomes after
      result := by
  have member := List.mem_of_find?_eq_some found
  have named := List.find?_some found
  cases ended with
  | broke broken left spares early =>
      exact .broke broken left spares (by rw [missing_held found]; exact early)
  | refused calls spares names undone =>
      exact .refused (by rw [missing_held found]; exact calls) spares
        (by rw [missing_held found]; exact names) undone
  | @leased _ new more _ _ indexed left granted =>
      rw [List.append_assoc]
      refine .leased indexed left ⟨?_, ?_, ?_, ?_⟩
      · rw [List.singleton_append, List.map_cons, List.map_cons, of_decide_eq_true named]
        exact granted.names.cons_cons _
      · intro port isMore
        cases List.mem_cons.mp isMore with
        | inl same => exact Or.inl (same ▸ member)
        | inr later => exact granted.source port later
      · have isHeld : held.any (fun lease => lease.name = existing.name) = true :=
          List.any_eq_true.mpr ⟨existing, member, decide_eq_true rfl⟩
        rw [List.singleton_append, List.filter_cons_of_neg (by rw [isHeld]; decide)]
        exact granted.lowest
      · intro other inTodo lease isLease
        cases List.mem_cons.mp inTodo with
        | inl same =>
            rw [same, found] at isLease
            cases isLease
            exact List.mem_cons_self
        | inr later => exact List.mem_cons_of_mem _ (granted.reused other later lease isLease)

/-- A call that fails in a requirement's turn ends the loop. -/
theorem Ended.failed {failure : ApiError}
    (absent : held.find? (fun lease => lease.name = req.name) = none)
    (tried : Tried node task req rows (freePorts range (rows.taken node) excluded).head? outcomes
      after (.error failure)) :
    Ended node task range excluded held (req :: todo) rows ports takenHere outcomes after
      (.error failure) := by
  have late {calls : Nat} (isCalls : calls ∈ callsToRefusal
      (freePorts range (rows.taken node) excluded).length (missing held (req :: todo))) :
      2 ≤ calls ∧ ((freePorts range (rows.taken node) excluded).length ≠ 0 → 3 ≤ calls) := by
    rw [missing_new absent] at isCalls
    exact callsToRefusal_cons isCalls
  generalize isFree : (freePorts range (rows.taken node) excluded).head? = free at tried
  cases tried with
  | @reclaimFails _ outcome broken =>
      refine @Ended.broke _ _ _ _ _ _ _ _ _ 0 outcome [] _ broken ?_
        (iff_of_true rfl (Or.inr (Or.inl (by decide)))) fun calls isCalls => by
          have atLeast := (late isCalls).1
          omega
      rw [List.append_nil]
      cases outcome with
      | runs | fails => rfl
      | lost => exact cardLeases_reclaimed
  | @readFails _ outcome broken =>
      refine @Ended.broke _ _ _ _ _ _ _ _ _ 1 outcome [] _ broken ?_
        (iff_of_true rfl (Or.inr (Or.inl (by decide)))) fun calls isCalls => (late isCalls).1
      rw [List.append_nil]
      exact cardLeases_reclaimed
  | @insertFails port outcome broken =>
      have nonempty : freePorts range (rows.taken node) excluded ≠ [] := by
        intro none
        rw [none] at isFree
        cases isFree
      have early : ∀ calls ∈ callsToRefusal (freePorts range (rows.taken node) excluded).length
          (missing held (req :: todo)), 2 < calls := fun calls isCalls =>
        (late isCalls).2 (List.length_eq_zero_iff.not.mpr nonempty)
      cases outcome with
      | runs => exact absurd rfl broken
      | fails =>
          exact @Ended.broke _ _ _ _ _ _ _ _ _ 2 .fails [] _ broken
            (cardLeases_reclaimed.trans (List.append_nil _).symm)
            (iff_of_true rfl (Or.inr (Or.inr ⟨rfl, rfl⟩))) early
      | lost =>
          refine @Ended.broke _ _ _ _ _ _ _ _ _ 2 .lost
            [{ holder := .build task, node, name := req.name, env := req.env, port }] _ broken
            ?_ (iff_of_false (List.cons_ne_nil _ _) ?_) early
          · rw [if_pos rfl, cardLeases_leased, cardLeases_reclaimed]
          · intro spared
            cases spared with
            | inl none => exact nonempty none
            | inr early =>
                cases early with
                | inl less => exact absurd less (by decide)
                | inr both => exact absurd both.2 (by decide)

/-- An optional requirement goes without, where no port is free. -/
theorem Ended.skipped
    (absent : held.find? (fun lease => lease.name = req.name) = none)
    (exhausted : freePorts range (rows.taken node) excluded = [])
    (optional : ¬ req.required = true)
    (ended : Ended node task range excluded held todo (rows.reclaimed node) ports takenHere
      outcomes after result) :
    Ended node task range excluded held (req :: todo) rows ports takenHere
      (.runs :: .runs :: outcomes) after result := by
  have later : callsToRefusal (freePorts range (rows.taken node) excluded).length
      (missing held (req :: todo)) =
      (callsToRefusal (freePorts range (rows.taken node) excluded).length
        (missing held todo)).map (· + 2) := by
    rw [missing_new absent, exhausted, List.length_nil, callsToRefusal, if_neg optional]
  cases ended with
  | @broke count outcome new _ broken left spares early =>
      rw [taken_reclaimed] at spares early
      rw [cardLeases_reclaimed] at left
      refine @Ended.broke _ _ _ _ _ _ _ _ _ (count + 2) _ _ _ broken left ?_ ?_
      · exact iff_of_true (spares.mpr (Or.inl exhausted)) (Or.inl exhausted)
      · intro calls isCalls
        rw [later] at isCalls
        obtain ⟨before, isBefore, rfl⟩ := Option.map_eq_some_iff.mp isCalls
        exact Nat.add_lt_add_right (early before isBefore) 2
  | @refused count new _ _ _ calls spares names undone =>
      rw [taken_reclaimed] at spares calls
      rw [cardLeases_reclaimed] at undone
      refine @Ended.refused _ _ _ _ _ _ _ _ _ (count + 2) _ _ _ _ ?_ spares ?_ undone
      · rw [later, calls]
        rfl
      · intro lease member
        obtain ⟨other, isMissing, same⟩ := names lease member
        exact ⟨other, by rw [missing_new absent]; exact List.mem_cons_of_mem req isMissing, same⟩
  | @leased count new more _ _ indexed left granted =>
      rw [taken_reclaimed] at granted
      rw [cardLeases_reclaimed] at left
      refine @Ended.leased _ _ _ _ _ _ _ _ _ (count + 2) _ _ _ _ indexed left
        ⟨granted.names.cons _, granted.source, granted.lowest, ?_⟩
      intro other inTodo lease isLease
      cases List.mem_cons.mp inTodo with
      | inl same =>
          rw [same, absent] at isLease
          cases isLease
      | inr laterOne => exact granted.reused other laterOne lease isLease

/-- A requirement takes the lowest port that is free. -/
theorem Ended.taken {rest : List Int}
    (absent : held.find? (fun lease => lease.name = req.name) = none)
    (free : freePorts range (rows.taken node) excluded = port :: rest)
    (ended : Ended node task range excluded held todo
      ((rows.reclaimed node).leased node task req port)
      (ports ++ [{ name := req.name, env := req.env, port }]) (takenHere ++ [req.name])
      outcomes after result) :
    Ended node task range excluded held (req :: todo) rows ports takenHere
      (.runs :: .runs :: .runs :: outcomes) after result := by
  have nonempty : freePorts range (rows.taken node) excluded ≠ [] := by
    rw [free]
    exact List.cons_ne_nil port rest
  have freeLater : freePorts range
      (((rows.reclaimed node).leased node task req port).taken node) excluded = rest := by
    rw [taken_leased]
    exact freePorts_cons free
  have later : callsToRefusal (freePorts range (rows.taken node) excluded).length
      (missing held (req :: todo)) =
      (callsToRefusal rest.length (missing held todo)).map (· + 3) := by
    rw [missing_new absent, free, List.length_cons, callsToRefusal]
  cases ended with
  | @broke count outcome new _ broken left spares early =>
      rw [freeLater] at early
      rw [cardLeases_leased, cardLeases_reclaimed, List.append_assoc] at left
      refine @Ended.broke _ _ _ _ _ _ _ _ _ (count + 3) _ _ _ broken left ?_ ?_
      · apply iff_of_false (List.cons_ne_nil _ _)
        intro spared
        cases spared with
        | inl isEmpty => exact nonempty isEmpty
        | inr early => omega
      · intro calls isCalls
        rw [later] at isCalls
        obtain ⟨before, isBefore, rfl⟩ := Option.map_eq_some_iff.mp isCalls
        exact Nat.add_lt_add_right (early before isBefore) 3
  | @refused count new _ _ _ calls spares names undone =>
      rw [freeLater] at calls
      rw [cardLeases_leased, cardLeases_reclaimed, List.append_assoc, List.append_assoc] at undone
      refine @Ended.refused _ _ _ _ _ _ _ _ _ (count + 3)
        ({ holder := .build task, node, name := req.name, env := req.env, port } :: new) _ _ _
        ?_ ?_ ?_ undone
      · rw [later, calls]
        rfl
      · exact iff_of_false (List.cons_ne_nil _ _) nonempty
      · rw [missing_new absent]
        intro lease member
        cases List.mem_cons.mp member with
        | inl same => exact ⟨req, List.mem_cons_self, by rw [same]⟩
        | inr laterOne =>
            obtain ⟨other, isMissing, same⟩ := names lease laterOne
            exact ⟨other, List.mem_cons_of_mem req isMissing, same⟩
  | @leased count new more _ _ indexed left granted =>
      rw [freeLater] at granted
      rw [cardLeases_leased, cardLeases_reclaimed, List.append_assoc] at left
      rw [List.append_assoc]
      refine @Ended.leased _ _ _ _ _ _ _ _ _ (count + 3) _ _ _ _ indexed left ⟨?_, ?_, ?_, ?_⟩
      · exact granted.names.cons_cons _
      · intro other isMore
        cases List.mem_cons.mp isMore with
        | inl same =>
            rw [same]
            exact Or.inr List.mem_cons_self
        | inr laterOne =>
            exact (granted.source other laterOne).imp_right (List.mem_cons_of_mem _)
      · have notHeld : held.any (fun lease => lease.name = req.name) = false := by
          rw [List.any_eq_false]
          exact List.find?_eq_none.mp absent
        rw [List.singleton_append, List.filter_cons_of_pos (by rw [notHeld]; rfl), List.map_cons,
          free]
        exact List.prefix_cons_inj port |>.mpr granted.lowest
      · intro other inTodo lease isLease
        cases List.mem_cons.mp inTodo with
        | inl same =>
            rw [same, absent] at isLease
            cases isLease
        | inr laterOne =>
            exact List.mem_cons_of_mem _ (granted.reused other laterOne lease isLease)

end Turns

/-- The loop, whatever fails in it. -/
theorem leaseEach_ran {ports : List LeasedPort} {unsatisfied takenHere : List String}
    {outcomes : List Outcome} {result : Except ApiError (Except Refusal Leased)}
    (ready : Ready node task held todo rows)
    (ran : allocation.finish
      (leaseEach node (.build task) range excluded held todo ports unsatisfied takenHere).run rows
      outcomes = some (after, result)) :
    Ended node task range excluded held todo rows ports takenHere outcomes after result := by
  induction todo generalizing rows ports unsatisfied takenHere outcomes with
  | nil =>
      obtain ⟨rfl, rfl, rfl⟩ := Service.finish_answer _ ran
      have granted : Granted node task held (freePorts range (after.taken node) excluded) [] []
          [] :=
        ⟨.slnil, fun _ member => absurd member List.not_mem_nil, List.nil_prefix,
          fun _ member => absurd member List.not_mem_nil⟩
      have ended := @Ended.leased node task range excluded held [] after ports takenHere 0 [] []
        unsatisfied after ready.indexed (List.append_nil _).symm granted
      rwa [List.append_nil] at ended
  | cons req todo ih =>
      cases found : held.find? (fun lease => lease.name = req.name) with
      | some existing =>
          rw [leaseEach, found] at ran
          exact (ih ready.tail ran).existing found
      | none =>
          rw [leaseEach, found] at ran
          have absent : ∀ other ∈ cardLeases node task rows.leases, other.name ≠ req.name :=
            ready.absent req (by rw [missing_new found]; exact List.mem_cons_self)
          cases Service.finish_failing_bind ran with
          | inl failed =>
              obtain ⟨failure, rfl, tried⟩ := failed
              exact Ended.failed found (leaseOne_ran absent tried)
          | inr succeeded =>
              obtain ⟨first, second, middle, answer, rfl, tried, goesOn⟩ := succeeded
              have step := leaseOne_ran absent tried
              cases free : freePorts range (rows.taken node) excluded with
              | nil =>
                  rw [free, List.head?_nil] at step
                  cases step with
                  | exhausted =>
                      dsimp only at goesOn
                      by_cases isRequired : req.required = true
                      · rw [if_pos isRequired] at goesOn
                        obtain ⟨rfl, undone⟩ := undo_ran goesOn
                        rw [cardLeases_reclaimed] at undone
                        refine @Ended.refused _ _ _ _ _ _ _ _ _ 2 [] _ _ _ ?_
                          (iff_of_true rfl free) (fun _ member =>
                            absurd member List.not_mem_nil) ?_
                        · rw [missing_new found, free, List.length_nil, callsToRefusal,
                            if_pos isRequired]
                        · rwa [List.map_nil, List.append_nil, List.append_nil]
                      · rw [if_neg isRequired] at goesOn
                        exact (ih ready.tail.reclaimed goesOn).skipped found
                          free isRequired
              | cons port rest =>
                  rw [free, List.head?_cons] at step
                  cases step with
                  | takes =>
                      have isFree : port ∉ Leases.heldPorts node (rows.reclaimed node).leases := by
                        have isMember : port ∈ freePorts range (rows.taken node) excluded := by
                          rw [free]
                          exact List.mem_cons_self
                        exact (mem_freePorts.mp isMember).2.2.1
                      exact (ih (ready.reclaimed.leased found isFree)
                        goesOn).taken found free

end Loop

section Whole

variable {node : NodeId} {task : TaskId} {runtime : String} {avoid : List Int}
  {before after : Rows} {outcomes : List Outcome}

theorem mem_held {port : LeasedPort} : port ∈ before.held node task ↔
    LeasedPort.row node task port ∈ before.leases := by
  rw [Rows.held, Leases.buildLeasesOf, List.mem_map]
  constructor
  · intro ⟨lease, member, isPort⟩
    obtain ⟨inLeases, mine⟩ := List.mem_filter.mp member
    rw [Bool.and_eq_true, decide_eq_true_eq, decide_eq_true_eq] at mine
    obtain ⟨holder, here⟩ := mine
    subst isPort here
    have same : LeasedPort.row lease.node task
        { name := lease.name, env := lease.env, port := lease.port } = lease := by
      rw [LeasedPort.row, ← holder]
    rw [same]
    exact inLeases
  · intro member
    refine ⟨_, List.mem_filter.mpr ⟨member, ?_⟩, rfl⟩
    simp [LeasedPort.row]

theorem held_eq_of_name (indexed : Indexed before.leases) {one other : LeasedPort}
    (isHeld : one ∈ before.held node task) (otherHeld : other ∈ before.held node task)
    (same : one.name = other.name) : one = other := by
  have rows := List.inj_on_of_nodup_map indexed.listeners (mem_held.mp isHeld)
    (mem_held.mp otherHeld) (by simp only [LeasedPort.row, same])
  have fields := PortLease.mk.inj rows
  cases one
  cases other
  simp only [LeasedPort.mk.injEq]
  exact ⟨same, fields.2.2.2.1, fields.2.2.2.2⟩

/-- What is granted is what a succeeding allocation answers. -/
theorem Granted.answers {range : PortRange} {new : List PortLease} {more : List LeasedPort}
    {unsatisfied : List String} (indexed : Indexed before.leases)
    (distinct : (before.requirements.map PortRequirement.name).Nodup)
    (isRange : before.range node = some range) (indexedAfter : Indexed after.leases)
    (left : cardLeases node task after.leases = cardLeases node task before.leases ++ new)
    (granted : Granted node task (before.held node task)
      (freePorts range (before.taken node) (before.excluded node avoid)) (before.wanted runtime)
      new more) :
    Answers node task runtime avoid before after { ports := more, unsatisfied } := by
  have names : (more.map LeasedPort.name).Nodup :=
    (distinct.sublist (List.filter_sublist.map _)).sublist granted.names
  have kept : ∀ lease ∈ cardLeases node task before.leases, lease ∈ after.leases := by
    intro lease member
    have stays : lease ∈ cardLeases node task after.leases := by
      rw [left]
      exact List.mem_append_left new member
    exact (mem_cardLeases.mp stays).1
  have stored : ∀ port ∈ more, LeasedPort.row node task port ∈ after.leases := by
    intro port member
    cases granted.source port member with
    | inl isHeld => exact kept _ (mem_cardLeases.mpr ⟨mem_held.mp isHeld, rfl, rfl⟩)
    | inr isNew =>
        have stays : LeasedPort.row node task port ∈ cardLeases node task after.leases := by
          rw [left]
          exact List.mem_append_right _ isNew
        exact (mem_cardLeases.mp stays).1
  refine ⟨names, ?_, stored, ?_, kept, ?_⟩
  · apply List.Nodup.map_on _ names.of_map
    intro one isOne other isOther same
    have rows := List.inj_on_of_nodup_map indexedAfter.ports (stored one isOne)
      (stored other isOther) (by simp only [LeasedPort.row, same])
    have fields := PortLease.mk.inj rows
    cases one
    cases other
    simp only [LeasedPort.mk.injEq]
    exact ⟨fields.2.2.1, fields.2.2.2.1, same⟩
  · intro other isOther front port back split
    rw [isRange] at isOther
    cases isOther
    obtain ⟨rest, free⟩ := granted.lowest
    rw [split, List.map_append, List.map_cons, List.append_assoc, List.cons_append] at free
    exact isLeast_freePorts free.symm
  · intro other _ req member lease isHeld named
    cases found : (before.held node task).find? (fun lease => lease.name = req.name) with
    | none => exact absurd (decide_eq_true named) (List.find?_eq_none.mp found lease isHeld)
    | some existing =>
        have existingNamed := List.find?_some found
        have same := held_eq_of_name indexed isHeld (List.mem_of_find?_eq_some found)
          (named.trans (of_decide_eq_true existingNamed).symm)
        rw [same]
        exact granted.reused req member existing found

/-- An allocation that declares nothing, or has no range and no required listener. -/
theorem answers_nothing
    (nothing : before.wanted runtime = [] ∨ before.range node = none) :
    Answers node task runtime avoid before before { ports := [], unsatisfied := [] } where
  names := List.nodup_nil
  ports := List.nodup_nil
  stored _ member := absurd member List.not_mem_nil
  lowest _ _ front port back split := absurd split (by simp)
  kept _ member := (mem_cardLeases.mp member).1
  reused range isRange req member := by
    cases nothing with
    | inl none =>
        rw [none] at member
        exact absurd member List.not_mem_nil
    | inr none =>
        rw [none] at isRange
        cases isRange

theorem spared_of_short (short : outcomes.length ≤ 6) :
    Spared node task runtime avoid before outcomes := by
  intro _ _
  refine Or.inr fun index outcome isOutcome _ => Or.inl ?_
  have within := (List.getElem?_eq_some_iff.mp isOutcome).1
  omega

theorem spared_of_runs {count : Nat} :
    Spared node task runtime avoid before (List.replicate count .runs) := by
  intro _ _
  refine Or.inr fun index outcome isOutcome broken => absurd ?_ broken
  exact List.eq_of_mem_replicate (List.mem_of_getElem? isOutcome)

/-- With one failing call at the end, that one decides. -/
theorem spared_iff {range : PortRange} {count : Nat} {outcome : Outcome}
    (isRange : before.range node = some range) (broken : outcome ≠ .runs) :
    Spared node task runtime avoid before (List.replicate count .runs ++ [outcome]) ↔
      freePorts range (before.taken node) (before.excluded node avoid) = [] ∨ count < 6 ∨
        (count = 6 ∧ outcome = .fails) ∨
        (outcome = .lost ∧ (callsToRefusal
          (freePorts range (before.taken node) (before.excluded node avoid)).length
          (missing (before.held node task) (before.wanted runtime))).map (4 + ·) = some count) := by
  have isLast : (List.replicate count Outcome.runs ++ [outcome])[count]? = some outcome := by
    rw [List.getElem?_append_right (by rw [List.length_replicate]), List.length_replicate,
      Nat.sub_self]
    rfl
  constructor
  · intro spared
    exact (spared range isRange).imp_right fun each => each count outcome isLast broken
  · intro condition other isOther
    rw [isRange] at isOther
    cases isOther
    refine condition.imp_right fun each index found isFound notRuns => ?_
    have isIndex : index = count := by
      by_contra differs
      have within := (List.getElem?_eq_some_iff.mp isFound).1
      rw [List.length_append, List.length_replicate, List.length_singleton] at within
      have before : index < count := by omega
      rw [List.getElem?_append_left (by rw [List.length_replicate]; exact before),
        List.getElem?_replicate, if_pos before] at isFound
      exact notRuns (Option.some.inj isFound).symm
    rw [isIndex, isLast] at isFound
    cases isFound
    rw [isIndex]
    exact each

/-- The undo takes back what was written and leaves what the card had. -/
theorem filter_undone {new : List PortLease}
    (absent : ∀ req ∈ missing (before.held node task) (before.wanted runtime),
      ∀ lease ∈ cardLeases node task before.leases, lease.name ≠ req.name)
    (named : ∀ lease ∈ new, ∃ req ∈ missing (before.held node task) (before.wanted runtime),
      lease.name = req.name) :
    (cardLeases node task before.leases ++ new).filter
        (fun lease => !([] ++ new.map PortLease.name).contains lease.name) =
      cardLeases node task before.leases := by
  rw [List.nil_append, List.filter_append, List.filter_eq_self.mpr,
    List.filter_eq_nil_iff.mpr, List.append_nil]
  · intro lease member
    simp [List.mem_map_of_mem member]
  · intro lease member
    rw [Bool.not_eq_true', List.contains_eq_mem, decide_eq_false_iff_not]
    intro isTaken
    obtain ⟨taken, isNew, same⟩ := List.mem_map.mp isTaken
    obtain ⟨req, isMissing, isName⟩ := named taken isNew
    exact absent req isMissing lease member (same.symm.trans isName)

/-- A refusal that has something to undo comes after a first INSERT. -/
theorem late_refusal {free count : Nat} {todo : List PortRequirement}
    (calls : callsToRefusal free todo = some count) (nonempty : free ≠ 0) : 3 ≤ count := by
  cases todo with
  | nil => cases free <;> cases calls
  | cons req todo => exact (callsToRefusal_cons calls).2 nonempty

/-- A call of the loop that fails. -/
theorem spared_broke {range : PortRange} {count : Nat} {outcome : Outcome}
    (isRange : before.range node = some range) (broken : outcome ≠ .runs)
    (early : ∀ calls ∈ callsToRefusal
      (freePorts range (before.taken node) (before.excluded node avoid)).length
      (missing (before.held node task) (before.wanted runtime)), count < calls) :
    Spared node task runtime avoid before (List.replicate (count + 4) .runs ++ [outcome]) ↔
      freePorts range (before.taken node) (before.excluded node avoid) = [] ∨ count < 2 ∨
        (count = 2 ∧ outcome = .fails) := by
  rw [spared_iff isRange broken]
  have notUndo : (callsToRefusal
      (freePorts range (before.taken node) (before.excluded node avoid)).length
      (missing (before.held node task) (before.wanted runtime))).map (4 + ·) ≠
        some (count + 4) := by
    intro isUndo
    obtain ⟨calls, isCalls, total⟩ := Option.map_eq_some_iff.mp isUndo
    have less := early calls isCalls
    omega
  apply or_congr_right
  constructor
  · rintro (less | insert | undone)
    · exact .inl (by omega)
    · exact .inr ⟨by omega, insert.2⟩
    · exact absurd undone.2 notUndo
  · rintro (less | insert)
    · exact .inl (by omega)
    · exact .inr (.inl ⟨by omega, insert.2⟩)

/-- How the loop over all requirements ended decides both. -/
theorem Ended.settles {range : PortRange}
    {result : Except ApiError (Except Refusal Leased)} (indexed : Indexed before.leases)
    (distinct : (before.requirements.map PortRequirement.name).Nodup)
    (isRange : before.range node = some range)
    (absent : ∀ req ∈ missing (before.held node task) (before.wanted runtime),
      ∀ lease ∈ cardLeases node task before.leases, lease.name ≠ req.name)
    (ended : Ended node task range (before.excluded node avoid) (before.held node task)
      (before.wanted runtime) before [] [] outcomes after result) :
    AllOrNothing node task runtime avoid before after result ↔
      Spared node task runtime avoid before
        (.runs :: .runs :: .runs :: .runs :: outcomes) := by
  have four {count : Nat} {tail : List Outcome} :
      Outcome.runs :: .runs :: .runs :: .runs :: (List.replicate count .runs ++ tail) =
        List.replicate (count + 4) .runs ++ tail := rfl
  cases ended with
  | @broke count outcome new _ broken left spares early =>
      have same : AllOrNothing node task runtime avoid before after (.error .database) ↔
          new = [] := by
        rw [AllOrNothing, left, List.append_right_eq_self]
      rw [four, spared_broke isRange broken early, same, spares]
  | @refused count new refusal tail _ calls spares names undone =>
      cases undone with
      | nothing none same =>
          rw [List.nil_append, List.map_eq_nil_iff] at none
          rw [none, List.append_nil] at same
          rw [List.append_nil]
          exact iff_of_true same (@spared_of_runs _ _ _ _ _ (count + 4))
      | @asked outcome _ some left =>
          rw [List.nil_append, Ne, List.map_eq_nil_iff] at some
          have nonempty := spares.not.mp some
          have kept := filter_undone absent names
          have late := late_refusal calls (List.length_eq_zero_iff.not.mpr nonempty)
          cases outcome with
          | runs =>
              have allRun : List.replicate (count + 4) Outcome.runs ++ [.runs] =
                  List.replicate (count + 5) .runs := List.replicate_succ'.symm
              rw [four, allRun]
              exact iff_of_true (left.trans kept) spared_of_runs
          | fails =>
              rw [four, spared_iff isRange (by decide)]
              apply iff_of_false
              · rw [AllOrNothing, left, if_pos rfl, List.append_right_eq_self]
                exact some
              · intro spared
                cases spared.resolve_left nonempty with
                | inl less => omega
                | inr rest =>
                    cases rest with
                    | inl insert => omega
                    | inr undone => exact absurd undone.1 (by decide)
          | lost =>
              rw [four, spared_iff isRange (by decide), calls]
              refine iff_of_true (left.trans kept) (Or.inr (Or.inr (Or.inr ⟨rfl, ?_⟩)))
              exact congrArg Option.some (Nat.add_comm 4 count)
  | leased indexedAfter left granted =>
      exact iff_of_true (granted.answers indexed distinct isRange indexedAfter left)
        (@spared_of_runs _ _ _ _ _ (_ + 4))

/-- A read before the loop that fails leaves everything as it was. -/
theorem settles_unread {condition : Prop} [Decidable condition]
    (isAfter : after = if condition then before else before) (short : outcomes.length ≤ 6) :
    AllOrNothing node task runtime avoid before after (.error .database) ↔
      Spared node task runtime avoid before outcomes := by
  rw [isAfter, ite_self]
  exact iff_of_true rfl (spared_of_short short)

/-- An allocation for a card that runs alone changes nothing unless it succeeds, and then
answers what it has stored, the new ports the lowest, exactly when no port is free or
every call that fails is one before the first INSERT, or that INSERT with nothing
written, or the DELETE of the undo with its rows gone. -/
theorem leaseOwned_settles {result : Except ApiError (Except Refusal Leased)}
    (indexed : Indexed before.leases)
    (distinct : (before.requirements.map PortRequirement.name).Nodup)
    (ran : allocation.finish (leaseOwned node (.build task) runtime avoid).run before outcomes =
      some (after, result)) :
    AllOrNothing node task runtime avoid before after result ↔
      Spared node task runtime avoid before outcomes := by
  rw [leaseOwned] at ran
  cases ran_repo ran with
  | inr broke =>
      obtain ⟨outcome, _, rfl, rfl, isAfter⟩ := broke
      exact settles_unread isAfter (by simp)
  | inl declared =>
  obtain ⟨second, rfl, chooses⟩ := declared
  change allocation.finish (ExceptT.run (if before.wanted runtime = [] then _ else _)) before
    second = _ at chooses
  by_cases empty : before.wanted runtime = []
  · rw [if_pos empty] at chooses
    obtain ⟨rfl, rfl, rfl⟩ := Service.finish_answer _ chooses
    exact iff_of_true (answers_nothing (Or.inl empty)) (spared_of_short (by simp))
  rw [if_neg empty] at chooses
  cases ran_repo chooses with
  | inr broke =>
      obtain ⟨outcome, _, rfl, rfl, isAfter⟩ := broke
      exact settles_unread isAfter (by simp)
  | inl offered =>
  obtain ⟨third, rfl, ranges⟩ := offered
  cases isRange : before.range node with
  | none =>
      have noRange : (before.answer (.rangeOf node)).2 = none := isRange
      rw [noRange] at ranges
      cases first : (before.wanted runtime).find? PortRequirement.required with
      | none =>
          have noneRequired : ((before.answer .requirementsOf).2.filter (wants runtime)).find?
            PortRequirement.required = none := first
          rw [noneRequired] at ranges
          obtain ⟨rfl, rfl, rfl⟩ := Service.finish_answer _ ranges
          exact iff_of_true (answers_nothing (Or.inr isRange)) (spared_of_short (by simp))
      | some req =>
          have isRequired : ((before.answer .requirementsOf).2.filter (wants runtime)).find?
            PortRequirement.required = some req := first
          rw [isRequired] at ranges
          obtain ⟨rfl, rfl, rfl⟩ := Service.finish_answer _ ranges
          exact iff_of_true rfl (spared_of_short (by simp))
  | some range =>
  have hasRange : (before.answer (.rangeOf node)).2 = some range := isRange
  rw [hasRange] at ranges
  cases ran_repo ranges with
  | inr broke =>
      obtain ⟨outcome, _, rfl, rfl, isAfter⟩ := broke
      exact settles_unread isAfter (by simp)
  | inl read =>
  obtain ⟨fourth, rfl, reads⟩ := read
  cases ran_repo reads with
  | inr broke =>
      obtain ⟨outcome, _, rfl, rfl, isAfter⟩ := broke
      exact settles_unread isAfter (by simp)
  | inl excludes =>
  obtain ⟨outcomes, rfl, loops⟩ := excludes
  have absent : ∀ req ∈ missing (before.held node task) (before.wanted runtime),
      ∀ lease ∈ cardLeases node task before.leases, lease.name ≠ req.name := by
    intro req member lease isLease same
    obtain ⟨inLeases, holder, here⟩ := mem_cardLeases.mp isLease
    obtain ⟨_, notHeld⟩ := List.mem_filter.mp member
    rw [Bool.not_eq_true', List.any_eq_false] at notHeld
    refine notHeld { name := lease.name, env := lease.env, port := lease.port }
      (mem_held.mpr ?_) (decide_eq_true same)
    have isRow : LeasedPort.row node task
        { name := lease.name, env := lease.env, port := lease.port } = lease := by
      rw [LeasedPort.row, ← holder, ← here]
    rw [isRow]
    exact inLeases
  have ready : Ready node task (before.held node task) (before.wanted runtime) before :=
    ⟨indexed, absent, distinct.sublist (List.filter_sublist.map _)⟩
  exact (leaseEach_ran ready loops).settles indexed distinct isRange absent

/-- Two required listeners, and a port more than they need on the one node there is. -/
def webAndApi : Rows where
  requirements := [
    { name := "web", env := "PORT", required := true, runtimes := [] },
    { name := "api", env := "API_PORT", required := true, runtimes := [] }]
  range _ := some { start := 4100, last := 4103 }
  exclusions _ := [4100]
  live _ := false
  leases := [{ holder := .session 3, node := 1, name := "web", env := "PORT", port := 4101 }]

theorem webAndApi_indexed : Indexed webAndApi.leases where
  ports := List.nodup_singleton _
  listeners := List.nodup_singleton _

/-- The second reclaim fails, and the first listener's port stays with a card whose build
was not placed. -/
theorem leaseOwned_leaves :
    Indexed webAndApi.leases ∧
    (webAndApi.requirements.map PortRequirement.name).Nodup ∧
    ∃ after, allocation.finish (leaseForBuild 1 7).run webAndApi
        (List.replicate 7 .runs ++ [.fails]) = some (after, .error .database) ∧
      ¬ AllOrNothing 1 7 buildRuntime [] webAndApi after (.error .database) := by
  refine ⟨webAndApi_indexed, by decide, _, rfl, fun same => ?_⟩
  exact absurd (congrArg List.length same) (by decide)

theorem leaseOwned_settles_twoListeners :
    ∃ after answer,
      allocation.finish (leaseForBuild 1 7).run webAndApi (List.replicate 10 .runs) =
        some (after, .ok (.ok answer)) ∧
      AllOrNothing 1 7 buildRuntime [] webAndApi after (.ok (.ok answer)) :=
  ⟨_, _, rfl, (leaseOwned_settles webAndApi_indexed (by decide) rfl).mpr
    (@spared_of_runs _ _ _ _ _ 10)⟩

end Whole

/-! ### Without a failing call -/

section Unfailing

variable {node : NodeId} {task : TaskId} {range : PortRange} {excluded : List Int}
  {held : List LeasedPort} {before rows after : Rows} {takenHere : List String}
  {First Answer : Type}

/-- Every lease is one from before, or one the card has taken here. -/
def Covered (node : NodeId) (task : TaskId) (before : Rows) (takenHere : List String)
    (rows : Rows) : Prop :=
  ∀ lease ∈ rows.leases, lease ∈ before.leases ∨
    (lease.holder = .build task ∧ lease.node = node ∧ lease.name ∈ takenHere)

theorem Covered.reclaimed (covered : Covered node task before takenHere rows) :
    Covered node task before takenHere (rows.reclaimed node) :=
  fun lease member => covered lease (Leases.mem_of_mem_reclaim member)

/-- An INSERT adds a row of its listener, or moves the ones there are. -/
theorem Covered.added {lease : PortLease} {added : List PortLease}
    (covered : Covered node task before takenHere rows) (isBuild : lease.holder = .build task)
    (here : lease.node = node) (isAdded : Leases.addLease lease rows.leases = some added) :
    Covered node task before (takenHere ++ [lease.name]) { rows with leases := added } := by
  have earlier (row : PortLease) (member : row ∈ rows.leases) : row ∈ before.leases ∨
      (row.holder = .build task ∧ row.node = node ∧ row.name ∈ takenHere ++ [lease.name]) :=
    (covered row member).imp_right fun taken =>
      ⟨taken.1, taken.2.1, List.mem_append_left _ taken.2.2⟩
  have last : lease.name ∈ takenHere ++ [lease.name] :=
    List.mem_append_right _ List.mem_cons_self
  intro row member
  change row ∈ added at member
  rw [Leases.addLease.eq_def] at isAdded
  cases found : rows.leases.find? (Leases.sameListener lease) with
  | some present =>
      rw [found] at isAdded
      dsimp only at isAdded
      split at isAdded
      · cases isAdded
      · cases isAdded
        obtain ⟨old, isOld, rfl⟩ := List.mem_map.mp member
        by_cases same : Leases.sameListener lease old = true
        · obtain ⟨holder, onNode, named⟩ := Leases.sameListener_build isBuild same
          rw [if_pos same]
          exact Or.inr ⟨holder.trans isBuild, onNode.trans here, by
            change old.name ∈ _
            rw [named]
            exact last⟩
        · rw [if_neg same]
          exact earlier old isOld
  | none =>
      rw [found] at isAdded
      dsimp only at isAdded
      split at isAdded
      · cases isAdded
      · cases isAdded
        cases List.mem_append.mp member with
        | inl old => exact earlier row old
        | inr new =>
            cases List.mem_singleton.mp new
            exact Or.inr ⟨isBuild, here, last⟩

theorem Covered.undone {names : List String} (covered : Covered node task before names rows) :
    ∀ lease ∈ Leases.releaseNames node (.build task) names rows.leases,
      lease ∈ before.leases := by
  intro lease member
  obtain ⟨inRows, kept⟩ := List.mem_filter.mp member
  apply (covered lease inRows).resolve_right
  intro ⟨isBuild, here, isTaken⟩
  rw [isBuild, here] at kept
  simp [isTaken] at kept

/-- What a requirement's turn has added. -/
def namesAfter (req : PortRequirement) (takenHere : List String) :
    Except Refusal (Option Int) → List String
  | .ok (some _) => takenHere ++ [req.name]
  | .ok none | .error _ => takenHere

/-- A call of the repository answers, and the allocation goes on. -/
theorem alone_repo {request : Statement} {next : request.Value → Call Answer} :
    alone (repo request >>= next).run rows =
      alone (next (rows.answer request).2).run (rows.answer request).1 := rfl

theorem alone_added {lease : PortLease} {added : List PortLease} {next : Bool → Call Answer}
    (inserted : Leases.addLease lease rows.leases = some added) :
    alone (repo (.addLease lease) >>= next).run rows =
      alone (next true).run { rows with leases := added } := by
  have answered : rows.answer (.addLease lease) = ({ rows with leases := added }, true) := by
    simp only [Rows.answer, inserted]
  rw [alone_repo, answered]

theorem alone_refused {lease : PortLease} {next : Bool → Call Answer}
    (refused : Leases.addLease lease rows.leases = none) :
    alone (repo (.addLease lease) >>= next).run rows = alone (next false).run rows := by
  have answered : rows.answer (.addLease lease) = (rows, false) := by
    simp only [Rows.answer, refused]
  rw [alone_repo, answered]

theorem alone_ok_bind {program : Call First} {next : First → Call Answer} {given : First}
    (ran : alone program.run rows = (after, .ok given)) :
    alone (program >>= next).run rows = alone (next given).run after := by
  have bound : ∀ (first : Program Statement (fun request => Except ApiError request.Value)
      (Except ApiError First)) (rows : Rows), alone first rows = (after, .ok given) →
      alone (ExceptT.run (ExceptT.mk first >>= next)) rows = alone (next given).run after := by
    intro first
    induction first with
    | answer value =>
        intro rows isAnswer
        cases isAnswer
        rfl
    | statement request onward ih =>
        intro rows isStatement
        exact ih _ _ isStatement
  exact bound program.run rows ran

/-- What is given back was not there before. -/
theorem undo_alone (covered : Covered node task before takenHere rows) :
    ∃ after, alone (undo node (.build task) takenHere).run rows = (after, .ok ()) ∧
      ∀ lease ∈ after.leases, lease ∈ before.leases := by
  unfold undo
  dsimp only
  split
  · next nothing =>
      refine ⟨rows, rfl, fun lease member => (covered lease member).resolve_right ?_⟩
      rw [nothing]
      exact fun taken => absurd taken.2.2 List.not_mem_nil
  · exact ⟨_, rfl, covered.undone⟩

theorem leaseOne_alone (req : PortRequirement) (tries : Nat)
    (covered : Covered node task before takenHere rows) :
    ∃ after answer,
      alone (leaseOne node (.build task) range excluded req tries).run rows =
        (after, .ok answer) ∧
      Covered node task before (namesAfter req takenHere answer) after := by
  induction tries generalizing rows with
  | zero => exact ⟨rows, .error (.contention req), rfl, covered⟩
  | succ tries ih =>
      rw [leaseOne, alone_repo, alone_repo]
      dsimp only [Rows.answer]
      split
      · exact ⟨rows.reclaimed node, .ok none, rfl, covered.reclaimed⟩
      · next port _ =>
          let lease : PortLease :=
            { holder := .build task, node, name := req.name, env := req.env, port }
          cases inserted : Leases.addLease lease (rows.reclaimed node).leases with
          | some added =>
              exact ⟨_, .ok (some port), alone_added inserted,
                covered.reclaimed.added rfl rfl inserted⟩
          | none =>
              obtain ⟨after, answer, ran, still⟩ := ih covered.reclaimed
              exact ⟨after, answer, (alone_refused inserted).trans ran, still⟩

/-- The loop answers with leases, or gives back all it has taken and refuses. -/
theorem leaseEach_alone (reqs : List PortRequirement) (ports : List LeasedPort)
    (unsatisfied : List String) (covered : Covered node task before takenHere rows) :
    ∃ after answer,
      alone (leaseEach node (.build task) range excluded held reqs ports unsatisfied
        takenHere).run rows = (after, .ok answer) ∧
      ∀ refusal, answer = .error refusal → ∀ lease ∈ after.leases, lease ∈ before.leases := by
  induction reqs generalizing rows ports unsatisfied takenHere with
  | nil => exact ⟨rows, .ok { ports, unsatisfied }, rfl, fun _ refused => nomatch refused⟩
  | cons req rest ih =>
      rw [leaseEach]
      split
      · exact ih _ _ covered
      · obtain ⟨middle, answer, ran, still⟩ := leaseOne_alone req raceRetries covered
        rw [alone_ok_bind ran]
        cases answer with
        | error refusal =>
            obtain ⟨after, undid, clean⟩ := undo_alone still
            exact ⟨after, .error refusal, alone_ok_bind undid, fun _ _ => clean⟩
        | ok leased =>
            cases leased with
            | some port => exact ih _ _ still
            | none =>
                dsimp only
                split
                · obtain ⟨after, undid, clean⟩ := undo_alone still
                  exact ⟨after, _, alone_ok_bind undid, fun _ _ => clean⟩
                · exact ih _ _ still

theorem leaseForBuild_alone (before : Rows) :
    ∃ after answer, alone (leaseForBuild node task).run before = (after, .ok answer) ∧
      ∀ refusal, answer = .error refusal → ∀ lease ∈ after.leases, lease ∈ before.leases := by
  have nothing (answer : Except Refusal Leased) : ∃ after given,
      alone (pure answer : Call (Except Refusal Leased)).run before = (after, .ok given) ∧
        ∀ refusal, given = .error refusal → ∀ lease ∈ after.leases, lease ∈ before.leases :=
    ⟨before, answer, rfl, fun _ _ _ member => member⟩
  rw [leaseForBuild, leaseOwned, alone_repo]
  dsimp only [Rows.answer]
  split
  · exact nothing _
  · rw [alone_repo]
    dsimp only [Rows.answer]
    split
    · split
      · exact nothing _
      · exact nothing _
    · rw [alone_repo, alone_repo]
      exact leaseEach_alone _ _ _ fun _ member => Or.inl member

end Unfailing

end NookOs.Placement.Allocation
