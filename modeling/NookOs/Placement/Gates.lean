/-
Module: NookOs.Placement.Gates
Purpose: The node row as placement reads it, the query for the candidates of a job, and
  the gates that each candidate is put to.
Trusted boundary: the derived deserializers, and how Postgres prints a JSON value
Main exports: Node, Outside, Repo.eligibleLoopExecutors, kindWallRefusal, rangeOf, exclusionsOf
-/
import NookOs.Agent.Cordon
import NookOs.Db.Dialect
import NookOs.Placement.Capacity
import NookOs.Placement.PortLeases

namespace NookOs.Placement.Gates

open Lib Jobs

/-!
The engine is Postgres, whose JSON operators decide who is a candidate; the gates after
the query read the stored documents in Rust.
-/

section Documents

inductive Number where
  | integer (value : Int)
  | float (text : String)
deriving DecidableEq

abbrev Json := Db.Dialect.Json Number

def get (key : String) (doc : Json) : Option Json := Db.Dialect.field key.toList doc

def asStr : Json → Option String
  | .scalar (.str text) => some (String.ofList text)
  | _ => none

def asBool : Json → Option Bool
  | .scalar (.bool value) => some value
  | _ => none

def asArray : Json → Option (List Json)
  | .arr elements => some elements
  | _ => none

def asU64 : Json → Option Nat
  | .scalar (.num (.integer value)) =>
      if 0 ≤ value ∧ value < 2 ^ 64 then some value.toNat else none
  | _ => none

def asI64 : Json → Option Int
  | .scalar (.num (.integer value)) =>
      if -(2 ^ 63) ≤ value ∧ value < 2 ^ 63 then some value else none
  | _ => none

/-- `as i32`. -/
def asI32 (value : Int) : Int := value.bmod (2 ^ 32)

end Documents

section Rows

abbrev PersonId := Nat

/-- The columns of a node's row that placement reads. -/
structure Node where
  id : NodeId
  tenantId : TenantId
  name : String
  platform : String
  capabilities : Json
  resources : Json
  online : Bool
  ownerPersonId : Option PersonId
  crossTenant : Bool
  labels : Json
  cordon : Option Json
  portRangeStart : Option Int
  portRangeEnd : Option Int
  portExclusions : Option Json
  maxLoopJobs : Option Int

/-- A row of `users`, as the candidate query reads it. -/
structure User where
  tenantId : TenantId
  personId : Option PersonId
deriving DecidableEq

/-- A node's report on its sandbox. -/
inductive SandboxCapability where
  | ready (image : String)
  | pulling (image : String)
  | exempt (detail : String)
  | unavailable (detail : String)
deriving DecidableEq

/-- What is not in the repository: how Postgres prints JSON, and what the derived
deserializers read, or say of what they cannot. -/
structure Outside where
  engines : Db.Dialect.Engines Number
  cordon : Json → Option Agent.NodeCordon
  sandbox : Json → Except String SandboxCapability
  requirements : Json → Option (List PortRequirement)

end Rows

/-- A kind as the column has it. -/
def kindText : JobKind → String
  | .spec => "spec"
  | .decompose => "decompose"
  | .epicRun => "epic-run"
  | .build => "build"
  | .review => "review"
  | .investigate => "investigate"

section Candidates

/-- `capabilities @> '{"shared_operator":true}'`. -/
def sharedOperatorClause (node : Node) : Bool :=
  Db.Dialect.Postgres.contains node.capabilities [("shared_operator".toList, .bool true)]

/-- Some reported profile of the runtime is authorized. -/
def runtimeAuth (engines : Db.Dialect.Engines Number) (runtime : String) (node : Node) :
    Except Db.Dialect.Failure Bool := do
  let reported ← Db.Dialect.Postgres.getJson node.capabilities "runtime_auth".toList
  let elements ← Db.Dialect.Postgres.arrayElements (Db.Dialect.Postgres.orEmpty reported)
  elements.anyM fun element => do
    let named ← Db.Dialect.Postgres.getText engines element "runtime".toList
    let state ← Db.Dialect.Postgres.getText engines element "state".toList
    return named = some runtime.toList && state = some "authorized".toList

def declaresKind (kind : JobKind) (node : Node) : Except Db.Dialect.Failure Bool := do
  let declared ← Db.Dialect.Postgres.getJson node.capabilities "loop_kinds".toList
  return Db.Dialect.Postgres.arrayContainsText (Db.Dialect.Postgres.orEmpty declared)
    (kindText kind).toList

/-- The tenancy clause: one's own node or the shared operator inside the tenant, and
outside it a consenting member's. -/
def withinReach (users : List User) (tenant : TenantId) (person : PersonId) (node : Node) :
    Bool :=
  (node.tenantId = tenant && (node.ownerPersonId = some person || sharedOperatorClause node)) ||
    (node.tenantId ≠ tenant && !sharedOperatorClause node && node.crossTenant &&
      users.any fun user =>
        user.tenantId = tenant && user.personId.isSome && user.personId = node.ownerPersonId)

/-- The WHERE clause, one test after the other. -/
def eligible (engines : Db.Dialect.Engines Number) (users : List User) (tenant : TenantId)
    (person : PersonId) (runtime : String) (kind : JobKind) (node : Node) :
    Except Db.Dialect.Failure Bool :=
  if !node.online || !withinReach users tenant person node ||
      (kind = .build && sharedOperatorClause node) then .ok false
  else do
    if ← runtimeAuth engines runtime node then declaresKind kind node
    else return false

/-- `ORDER BY (owner_person_id = $2) DESC NULLS LAST, id`. -/
def preference (person : PersonId) (node : Node) : Nat :=
  match node.ownerPersonId with
  | some owner => if owner = person then 0 else 1
  | none => 2

def preferred (person : PersonId) (first second : Node) : Prop :=
  preference person first < preference person second ∨
    (preference person first = preference person second ∧ first.id ≤ second.id)

instance (person : PersonId) : DecidableRel (preferred person) :=
  fun _ _ => inferInstanceAs (Decidable (_ ∨ (_ ∧ _)))

def Repo.eligibleLoopExecutors (engines : Db.Dialect.Engines Number) (nodes : List Node)
    (users : List User) (tenant : TenantId) (person : PersonId) (runtime : String)
    (kind : JobKind) : Except Db.Dialect.Failure (List NodeId) := do
  let rows ← nodes.filterM (eligible engines users tenant person runtime kind)
  return (rows.insertionSort (preferred person)).map Node.id

/-- `by_id_any_tenant_or_none`. -/
def Repo.byId (nodes : List Node) (node : NodeId) : Option Node := Table.find Node.id nodes node

def Repo.isSharedOperator (nodes : List Node) (node : NodeId) : Bool :=
  (Repo.byId nodes node).any sharedOperatorClause

/-- The loop kinds a node declares. -/
def Repo.loopProfile (nodes : List Node) (node : NodeId) : Option (List String) :=
  (Repo.byId nodes node).map fun row =>
    (((get "loop_kinds" row.capabilities).bind asArray).map (·.filterMap asStr)).getD []

/-- The wall, asked of the stored row; the build rule first. -/
def kindWallRefusal (nodes : List Node) (node : NodeId) (kind : JobKind) : Option String :=
  if kind = .build && Repo.isSharedOperator nodes node then
    some ("refused: node " ++ toString node ++
      " is a shared operator, and shared operators never run build work")
  else
    let declared := (Repo.loopProfile nodes node).getD []
    if kindText kind ∈ declared then none
    else
      some ("refused: node " ++ toString node ++ " does not accept " ++ kindText kind ++
        " jobs (it accepts: " ++
        (if declared = [] then "none" else ", ".intercalate declared) ++ ")")

end Candidates

section Labels

/-- A map from labels to their values. -/
abbrev LabelMap := String → Option String

def customLabels (node : Node) : LabelMap := fun key => (get key node.labels).bind asStr

def derivedLabels (node : Node) : LabelMap := fun key =>
  if key = "os" then if node.platform = "" then none else some node.platform
  else if key = "arch" then (get "architecture" node.capabilities).bind asStr
  else if key = "role" then
    if ((get "shared_operator" node.capabilities).bind asBool).getD false then some "loop"
    else none
  else none

/-- `role=<v>` widens to `role/<v>=true`, unless that key has a value. -/
def widenRoleLabels (labels : LabelMap) : LabelMap := fun key =>
  match labels key, labels "role" with
  | some value, _ => some value
  | none, some role =>
      let role := String.ofList (Text.trim role.toList)
      if role ≠ "" ∧ key = "role/" ++ role then some "true" else none
  | none, none => none

/-- What placement reads: the derived labels win. -/
def placementOf (node : Node) : LabelMap :=
  widenRoleLabels fun key => (derivedLabels node key).or (customLabels node key)

def reviewLoopSelector : List (String × String) := [("role/loop", "true")]

def buildLabel : String := "role/build"

def buildSelector : List (String × String) := [(buildLabel, "true")]

def placementSelector : JobKind → Option (List (String × String))
  | .review => some reviewLoopSelector
  | .build => some buildSelector
  | _ => none

end Labels

section Readiness

def nodeCordon (outside : Outside) (node : Node) : Option Agent.NodeCordon :=
  node.cordon.bind outside.cordon

def SandboxCapability.refusal : SandboxCapability → Option String
  | ready _ | exempt _ => none
  | pulling image =>
      some ("it is still pulling its job sandbox image " ++ image ++
        "; work resumes on its own once the pull finishes")
  | unavailable detail => some detail

def isNull : Json → Bool
  | .scalar .null => true
  | _ => false

/-- Silence and what cannot be read are refused. -/
def sandboxRefusal (outside : Outside) (capabilities : Json) : Option String :=
  match (get "sandbox" capabilities).filter (!isNull ·) with
  | none =>
      some ("its agent predates per-job sandboxing and reports no sandbox capability " ++
        "(upgrade the node agent)")
  | some raw =>
      match outside.sandbox raw with
      | .ok reported => reported.refusal
      | .error message => some ("its sandbox report could not be read (" ++ message ++ ")")

/-- Silence is waved through. -/
def diskRefusal (resources : Json) : Option String :=
  ((get "disk_shortage" resources).bind asStr).filter fun detail =>
    Text.trim detail.toList ≠ []

/-- What the capacity in force is computed from. -/
def capacityRow (node : Node) : NodeRow where
  maxLoopJobs := node.maxLoopJobs
  advertised := (get "max_loop_jobs" node.capabilities).bind asU64
  maxLoopJobsPinned := ((get "max_loop_jobs_pinned" node.capabilities).bind asBool).getD false

/-- The node would have room if nobody were waiting on a human. -/
def onlyPausedBlocks (held : HeldJobs) (capacity : Nat) : Bool :=
  held.waitingOnHuman ≠ [] && held.inFlight.length < capacity

end Readiness

section Ports

/-- What the node itself reports. -/
def advertised (capabilities : Json) : Option PortRange := do
  let pair ← (← get "port_range" capabilities) |> asArray
  let start ← (← pair[0]?) |> asI64
  let last ← (← pair[1]?) |> asI64
  if start ≤ 0 ∨ last < start then none
  else some { start := asI32 start, last := asI32 last }

def rangeOf (nodes : List Node) (node : NodeId) : Option PortRange :=
  (Repo.byId nodes node).bind fun row =>
    match row.portRangeStart, row.portRangeEnd with
    | some start, some last => some { start, last }
    | _, _ => advertised row.capabilities

/-- The ports the node must never lease, lowest first. -/
def exclusionsOf (nodes : List Node) (node : NodeId) : List Int :=
  match Repo.byId nodes node with
  | none => []
  | some row =>
      ((((row.portExclusions.bind asArray).getD []).filterMap asI64).map
        asI32).insertionSort (· ≤ ·) |>.dedup

/-- What a workspace gets that has declared nothing. -/
def defaultRequirements : List PortRequirement :=
  [{ name := "web", env := "NOOK_PORT", required := false, runtimes := [] }]

end Ports

end NookOs.Placement.Gates
