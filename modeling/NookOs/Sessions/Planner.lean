/-
Module: NookOs.Sessions.Planner
Purpose: The plan of one workspace's managed sessions: which nodes hold it, where its
  sessions are placed, what is stopped and started for it, and what a pass has spent of
  each node when the next workspace is planned.
Trusted boundary: none
Main exports: NodeFacts, CheckoutSlot, Actual, Plan, blockers, eligibleNodes, plan, NodeBudget
-/
import Mathlib.Data.List.Sort
import NookOs.Lib.Dealing
import NookOs.Lib.Tally

namespace NookOs.Sessions

open Lib Lib.Dealing

section Data

abbrev NodeId := Nat
abbrev NodeWorkspaceId := Nat
abbrev SessionId := Nat

/-- What a job or a session may hold of a node that reports no ceiling. -/
def capacityWhenUnreported : UInt32 := 2

structure NodeTaint where
  key : String
  effect : String
deriving DecidableEq

structure Toleration where
  key : String
  effect : String
deriving DecidableEq

inductive Replicas where
  | count (count : UInt32)
  | single
  | all
deriving DecidableEq

/-- What is declared; the selector is in the order of its keys. -/
structure SessionSpec where
  runtime : String
  nodeSelector : List (String × String)
  tolerations : List Toleration
  replicas : Replicas
deriving DecidableEq

inductive NodeBlocker where
  | offline
  | runtimeUnavailable (wanted : String) (available : List String)
  | selectorMismatch (key wanted : String) (actual : Option String)
  | untoleratedTaint (key effect : String)
deriving DecidableEq

/-- A slice of a declaration's work. -/
structure ShardAssignment where
  index : UInt32
  of : UInt32
deriving DecidableEq

/-- The whole of the work. -/
def ShardAssignment.solo : ShardAssignment := { index := 0, of := 1 }

structure NodeFacts where
  id : NodeId
  online : Bool
  labels : List (String × String)
  taints : List NodeTaint
  runtimes : List String
  maxLoopJobs : Option UInt32
  reserved : Nat
deriving DecidableEq

/-- How much the node holds of all workspaces together. -/
def NodeFacts.ceiling (node : NodeFacts) : Nat :=
  (node.maxLoopJobs.getD capacityWhenUnreported).toNat

def NodeFacts.capacity (node : NodeFacts) : Nat := node.ceiling - node.reserved

/-- A present checkout of the workspace. -/
structure CheckoutSlot where
  checkoutId : NodeWorkspaceId
  nodeId : NodeId
  path : String
deriving DecidableEq

/-- A live managed session. -/
structure Actual where
  sessionId : SessionId
  checkoutId : NodeWorkspaceId
  nodeId : NodeId
  shard : ShardAssignment
deriving DecidableEq

inductive Action where
  | start (checkout : NodeWorkspaceId) (node : NodeId) (path : String) (shard : ShardAssignment)
  | stop (session : SessionId) (node : NodeId)
deriving DecidableEq

structure Plan where
  actions : List Action
  needsClone : List NodeId
  desired : Nat
  placed : Nat
  shortfall : Nat
  capped : Bool
  perNode : Tally NodeId

inductive PortSafety where
  | declared
  | undeclared
deriving DecidableEq

inductive Spread where
  | perCheckout
  | sharded
deriving DecidableEq

end Data

section Eligibility

/-- Every ground on which a node is not eligible. -/
def blockers (spec : SessionSpec) (node : NodeFacts) : List NodeBlocker :=
  (if node.online then [] else [.offline]) ++
  (if node.runtimes ≠ [] ∧ spec.runtime ∉ node.runtimes then
    [.runtimeUnavailable spec.runtime node.runtimes] else []) ++
  (spec.nodeSelector.filterMap fun (key, wanted) =>
    if node.labels.lookup key ≠ some wanted then
      some (.selectorMismatch key wanted (node.labels.lookup key))
    else none) ++
  node.taints.filterMap fun taint =>
    if spec.tolerations.any fun toleration =>
        toleration.key = taint.key ∧ toleration.effect = taint.effect then none
    else some (.untoleratedTaint taint.key taint.effect)

def eligible (spec : SessionSpec) (node : NodeFacts) : Bool := (blockers spec node).isEmpty

def hasCheckout (checkouts : List CheckoutSlot) (node : NodeId) : Bool :=
  checkouts.any fun checkout => checkout.nodeId = node

/-- Nodes with a checkout first, and by id where both have one or neither has. -/
def SortsBefore (checkouts : List CheckoutSlot) (first second : NodeFacts) : Prop :=
  if hasCheckout checkouts first.id = hasCheckout checkouts second.id then first.id ≤ second.id
  else hasCheckout checkouts first.id = true

instance (checkouts : List CheckoutSlot) : DecidableRel (SortsBefore checkouts) :=
  fun first second => inferInstanceAs <| Decidable <|
    if hasCheckout checkouts first.id = hasCheckout checkouts second.id then first.id ≤ second.id
    else hasCheckout checkouts first.id = true

def eligibleNodes (spec : SessionSpec) (nodes : List NodeFacts) (checkouts : List CheckoutSlot) :
    List NodeFacts :=
  (nodes.filter (eligible spec)).insertionSort (SortsBefore checkouts)

end Eligibility

section Placing

/-- Checkouts in the order of their ids. -/
def byId (checkouts : List CheckoutSlot) : List CheckoutSlot :=
  checkouts.insertionSort fun first second => first.checkoutId ≤ second.checkoutId

/-- The first checkout of each node. -/
def firstPerNode : List NodeId → List CheckoutSlot → List CheckoutSlot
  | _, [] => []
  | seen, slot :: rest =>
      if slot.nodeId ∈ seen then firstPerNode seen rest
      else slot :: firstPerNode (seen ++ [slot.nodeId]) rest

variable (spec : SessionSpec) (ranked : List NodeFacts) (checkouts : List CheckoutSlot)
  (capped : Bool)

/-- How many nodes are to hold the repository. -/
def targetNodes : Nat :=
  match spec.replicas with
  | .count count => count.toNat
  | .single => 1
  | .all => ranked.length

def chosenNodes : List NodeId := (ranked.take (targetNodes spec ranked)).map (·.id)

/-- The checkouts of the chosen nodes, one for each node where the ports cap it. -/
def checkoutSlots : List CheckoutSlot :=
  let slots := byId <| checkouts.filter fun checkout =>
    checkout.nodeId ∈ chosenNodes spec ranked
  if capped then firstPerNode [] slots else slots

/-- What a node may hold of this workspace. -/
def capacityOf (node : NodeFacts) : Nat := if capped then min node.capacity 1 else node.capacity

/-- How many sessions are asked for. -/
def targetSessions : Nat :=
  match spec.replicas with
  | .count count => count.toNat
  | .single => 1
  | .all => (ranked.map (capacityOf capped)).sum

/-- The nodes worth involving. -/
def involvedNodes : List NodeFacts :=
  cover (capacityOf capped) (targetSessions spec ranked capped) 0 ranked

/-- A node with its checkouts, if it has any. -/
structure SessionHost where
  node : NodeFacts
  first : CheckoutSlot
  others : List CheckoutSlot
deriving DecidableEq

def hostOf (node : NodeFacts) : Option SessionHost :=
  match byId (checkouts.filter fun checkout => checkout.nodeId = node.id) with
  | [] => none
  | first :: others => some { node := node, first := first, others := others }

def sessionHosts : List SessionHost :=
  (involvedNodes spec ranked capped).filterMap (hostOf checkouts)

/-- The checkout that a host gives in a round. -/
def SessionHost.give (host : SessionHost) (round : Nat) : CheckoutSlot :=
  (host.first :: host.others).getD (round % (host.first :: host.others).length) host.first

def shardSlots : List CheckoutSlot :=
  deal (fun host : SessionHost => capacityOf capped host.node) SessionHost.give
    (targetSessions spec ranked capped)
    (sessionHosts spec ranked checkouts capped) 0 []

/-- The slots with the slice that each is handed; the divisor is what was placed. -/
def withShards (slots : List CheckoutSlot) : List (CheckoutSlot × ShardAssignment) :=
  let of := UInt32.ofNat (max slots.length 1)
  slots.zipIdx.map fun (slot, index) => (slot, { index := UInt32.ofNat index, of := of })

end Placing

section Planning

def stop (session : Actual) : Action := .stop session.sessionId session.nodeId

def start (slot : CheckoutSlot) (shard : ShardAssignment) : Action :=
  .start slot.checkoutId slot.nodeId slot.path shard

/-- `replicas` counts nodes; every checkout on a chosen node gets a session. -/
def planPerCheckout (spec : SessionSpec) (ranked : List NodeFacts)
    (checkouts : List CheckoutSlot) (actual : List Actual) (capped : Bool) : Plan :=
  let unmetNodes := targetNodes spec ranked - ranked.length
  let slots := checkoutSlots spec ranked checkouts capped
  let needsClone := (chosenNodes spec ranked).filter fun id => !hasCheckout checkouts id
  let slotIds := slots.map (·.checkoutId)
  let held := (actual.map (·.checkoutId)).filter (· ∈ slotIds)
  { actions :=
      (actual.filter fun session => session.checkoutId ∉ slotIds).map stop ++
        (slots.filter fun slot => slot.checkoutId ∉ held).map (start · .solo)
    needsClone := needsClone
    desired := slots.length + needsClone.length + unmetNodes
    placed := slots.length
    shortfall := needsClone.length + unmetNodes
    capped := capped
    perNode := .ofKeys (slots.map (·.nodeId)) }

/-- Hold each wanted assignment once and stop the other sessions. -/
def hold (wanted : List (NodeWorkspaceId × ShardAssignment)) :
    List (NodeWorkspaceId × ShardAssignment) → List Actual →
      List (NodeWorkspaceId × ShardAssignment) × List Action
  | held, [] => (held, [])
  | held, session :: rest =>
      if (session.checkoutId, session.shard) ∈ wanted ∧
          (session.checkoutId, session.shard) ∉ held then
        hold wanted (held ++ [(session.checkoutId, session.shard)]) rest
      else
        let (held, stops) := hold wanted held rest
        (held, stop session :: stops)

/-- `replicas` counts sessions, and one node may hold several. -/
def planSharded (spec : SessionSpec) (ranked : List NodeFacts)
    (checkouts : List CheckoutSlot) (actual : List Actual) (capped : Bool) : Plan :=
  let target := targetSessions spec ranked capped
  let needsClone := ((involvedNodes spec ranked capped).filter fun node =>
    !hasCheckout checkouts node.id).map (·.id)
  let desired := withShards (shardSlots spec ranked checkouts capped)
  let (held, stops) := hold (desired.map fun (slot, shard) => (slot.checkoutId, shard)) [] actual
  { actions := stops ++
      (desired.filter fun (slot, shard) => (slot.checkoutId, shard) ∉ held).map
        fun (slot, shard) => start slot shard
    needsClone := needsClone
    desired := target
    placed := desired.length
    shortfall := target - desired.length
    capped := capped
    perNode := .ofKeys (desired.map fun (slot, _) => slot.nodeId) }

def plan (spec : SessionSpec) (nodes : List NodeFacts) (checkouts : List CheckoutSlot)
    (actual : List Actual) (ports : PortSafety) (spread : Spread) : Plan :=
  let ranked := eligibleNodes spec nodes checkouts
  let capped := ports = .undeclared
  match spread with
  | .perCheckout => planPerCheckout spec ranked checkouts actual capped
  | .sharded => planSharded spec ranked checkouts actual capped

/-- The slots that a plan places, with their shards. -/
def placements (spec : SessionSpec) (nodes : List NodeFacts) (checkouts : List CheckoutSlot)
    (ports : PortSafety) (spread : Spread) : List (CheckoutSlot × ShardAssignment) :=
  let ranked := eligibleNodes spec nodes checkouts
  let capped := ports = .undeclared
  match spread with
  | .perCheckout =>
      (checkoutSlots spec ranked checkouts capped).map fun slot => (slot, .solo)
  | .sharded => withShards (shardSlots spec ranked checkouts capped)

end Planning

section Budget

/-- What the workspaces of a pass have spent of each node. -/
structure NodeBudget where
  spent : Tally NodeId := .empty

/-- The fleet as the next workspace sees it. -/
def NodeBudget.appliedTo (budget : NodeBudget) (nodes : List NodeFacts) : List NodeFacts :=
  nodes.map fun node => { node with reserved := budget.spent.get node.id }

def NodeBudget.charge (budget : NodeBudget) (plan : Plan) : NodeBudget :=
  { spent := budget.spent.merge plan.perNode }

end Budget

end NookOs.Sessions
