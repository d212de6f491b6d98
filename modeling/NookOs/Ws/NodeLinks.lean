/-
Module: NookOs.Ws.NodeLinks
Purpose: The connections of one node to any number of replicas, from `register_node` to
  the last step of the cleanup, over the node's row, its jobs and its tunnels.
Trusted boundary: none
Main exports: LinkPhase, NodeLinks, LinkStep, NodeLinks.step, Served, Orderly, node_served
-/
import NookOs.Lib.Run
import NookOs.Lib.Table
import NookOs.Jobs.Endings
import NookOs.Ws.TunnelRoutes
import Mathlib.Data.List.Basic
import Mathlib.Logic.Function.Basic

namespace NookOs.Ws

open Lib Jobs

inductive NodeStatus where
  | online
  | offline
deriving DecidableEq

/-- The columns of the node's row that its connections write. -/
structure NodeRow (Replica : Type) where
  status : NodeStatus
  owningInstanceId : Option Replica
  leaseExpiresAt : Option Instant
deriving DecidableEq

/-- `LEASE_SECONDS`, in the unit of an instant. -/
def leaseSeconds : Int := 45

namespace NodeRow

variable {Replica : Type} [DecidableEq Replica]

def takeLease (instanceId : Replica) (now : Instant) (row : NodeRow Replica) :
    NodeRow Replica :=
  { row with
    owningInstanceId := some instanceId
    leaseExpiresAt := some (now + leaseSeconds) }

/-- The statement matches only while the instance still owns the lease. -/
def releaseLease (instanceId : Replica) (row : NodeRow Replica) : NodeRow Replica :=
  if row.owningInstanceId = some instanceId then
    { status := .offline, owningInstanceId := none, leaseExpiresAt := none }
  else row

/-- A heartbeat says `online`, and renews the lease only for its owner. -/
def recordResources (instanceId : Replica) (now : Instant) (row : NodeRow Replica) :
    NodeRow Replica :=
  { row with
    status := .online
    leaseExpiresAt :=
      if row.owningInstanceId = some instanceId then some (now + leaseSeconds)
      else row.leaseExpiresAt }

end NodeRow

/-- Where the handler of a connection is.  `sweeping` carries the call of
`fail_stranded_for_node` that is under way. -/
inductive LinkPhase where
  | registered
  | serving
  | releasing
  | stranding
  | sweeping (sweep : Jobs.Sweep)
  | closing
  | announcing
  | concluded
deriving DecidableEq

/-- The cleanup has passed the registry's guard and not yet closed the tunnels. -/
def LinkPhase.cleansUp : LinkPhase → Bool
  | .releasing | .stranding | .sweeping _ | .closing => true
  | .registered | .serving | .announcing | .concluded => false

/-- The handler has not left its read loop. -/
def LinkPhase.isOpen : LinkPhase → Bool
  | .registered | .serving => true
  | .releasing | .stranding | .sweeping _ | .closing | .announcing | .concluded => false

/-- A connection of the node: the replica it reached and the epoch it was given. -/
structure Connection (Replica : Type) where
  replica : Replica
  epoch : Nat
deriving DecidableEq

/-- One node.  `nodes` is each replica's entry for it, `connections` are all that were
ever made, oldest first, and `heard` those of which a heartbeat was recorded. -/
structure NodeLinks (Replica : Type) where
  row : NodeRow Replica
  nextEpoch : Replica → Nat
  nodes : Replica → Option Nat
  connections : List (Connection Replica)
  phase : Nat → LinkPhase
  heard : Nat → Bool
  jobs : List Jobs.Run
  tunnels : TunnelRoutes Replica

/-- A step of the connection at an index, a new connection, or a change of the jobs or
the tunnels by anybody else. -/
inductive LinkStep (Replica : Type) where
  | registerNode (replica : Replica)
  | takeLease (link : Nat) (now : Instant)
  | recordResources (link : Nat) (now : Instant)
  | unregisterNode (link : Nat)
  | releaseLease (link : Nat)
  | failStrandedForNode (link : Nat)
  | readRecorded (link : Nat)
  | loadStranded (link : Nat)
  | concludeStranded (link : Nat) (now : Instant)
  | finishStranded (link : Nat)
  | takeTunnelsForNode (link : Nat)
  | announceOffline (link : Nat)
  | workOn (jobs : List Jobs.Run)
  | tunnel (taken : TunnelStep Replica)

namespace NodeLinks

section Steps

variable {Replica : Type} [DecidableEq Replica]

/-- The replica's entry for the node is the connection's. -/
def IsRegistered (system : NodeLinks Replica) (link : Connection Replica) : Prop :=
  system.nodes link.replica = some link.epoch

instance (system : NodeLinks Replica) (link : Connection Replica) :
    Decidable (system.IsRegistered link) :=
  inferInstanceAs (Decidable (_ = _))

def setPhase (link : Nat) (phase : LinkPhase) (system : NodeLinks Replica) :
    NodeLinks Replica :=
  { system with phase := Function.update system.phase link phase }

/-- The epoch is the registry's counter, and the entry of an older connection to the
replica is overwritten. -/
def registerNode (replica : Replica) (system : NodeLinks Replica) : NodeLinks Replica :=
  let epoch := system.nextEpoch replica
  { system with
    nextEpoch := Function.update system.nextEpoch replica (epoch + 1)
    nodes := Function.update system.nodes replica (some epoch)
    connections := system.connections ++ [⟨replica, epoch⟩]
    phase := Function.update system.phase system.connections.length .registered
    heard := Function.update system.heard system.connections.length false }

/-- `remove_if` on the epoch: a connection that is not the replica's current one has
nothing to clean up. -/
def unregisterNode (index : Nat) (link : Connection Replica)
    (system : NodeLinks Replica) : NodeLinks Replica :=
  if system.IsRegistered link then
    { system with nodes := Function.update system.nodes link.replica none }.setPhase index
      .releasing
  else system.setPhase index .concluded

/-- The connection at an index, where its handler is in the phase. -/
def linkIn (phase : LinkPhase) (index : Nat) (system : NodeLinks Replica) :
    Option (Connection Replica) :=
  if system.phase index = phase then system.connections[index]? else none

/-- The sweep of a handler that is sweeping. -/
def sweepOf (index : Nat) (system : NodeLinks Replica) : Option Jobs.Sweep :=
  match system.phase index with
  | .sweeping sweep => some sweep
  | _ => none

def step (node : NodeId) (system : NodeLinks Replica) :
    LinkStep Replica → Option (NodeLinks Replica)
  | .registerNode replica => some (system.registerNode replica)
  | .takeLease index now => do
      let link ← system.linkIn .registered index
      some ({ system with row := system.row.takeLease link.replica now }.setPhase index
        .serving)
  | .recordResources index now => do
      let link ← system.linkIn .serving index
      some { system with
        row := system.row.recordResources link.replica now
        heard := Function.update system.heard index true }
  | .unregisterNode index => do
      let link ← system.linkIn .serving index
      some (system.unregisterNode index link)
  | .releaseLease index => do
      let link ← system.linkIn .releasing index
      some ({ system with row := system.row.releaseLease link.replica }.setPhase index
        .stranding)
  | .failStrandedForNode index => do
      let _ ← system.linkIn .stranding index
      let stranded :=
        (system.jobs.filter fun run => Repo.inFlightOnNode node run.row).map Run.id
      some (system.setPhase index (.sweeping ⟨node, stranded, .next⟩))
  | .readRecorded index => do
      let sweep ← system.sweepOf index
      let next ← sweep.readRecorded system.jobs
      some (system.setPhase index (.sweeping next))
  | .loadStranded index => do
      let sweep ← system.sweepOf index
      let next ← sweep.load system.jobs
      some (system.setPhase index (.sweeping next))
  | .concludeStranded index now => do
      let sweep ← system.sweepOf index
      match sweep.stranded, sweep.phase with
      | id :: _, .checked call =>
          some ({ system with
            jobs := Table.update Run.id id (Run.transition now call.target)
              system.jobs }.setPhase index (.sweeping sweep.advance))
      | _, _ => none
  | .finishStranded index => do
      let sweep ← system.sweepOf index
      if sweep.stranded = [] then some (system.setPhase index .closing) else none
  | .takeTunnelsForNode index => do
      let link ← system.linkIn .closing index
      let tunnels ← system.tunnels.step (.takeTunnelsForNode link.replica node)
      some ({ system with tunnels }.setPhase index .announcing)
  | .announceOffline index => do
      let _ ← system.linkIn .announcing index
      some (system.setPhase index .concluded)
  | .workOn jobs => some { system with jobs }
  | .tunnel taken => do
      let tunnels ← system.tunnels.step taken
      some { system with tunnels }

/-! ## What a live node is promised -/

/-- The node's current connection, the newest, is registered and its heartbeat has been
recorded: the row says online, with a lease of that replica. -/
def Served (system : NodeLinks Replica) : Prop :=
  ∀ link ∈ system.connections.getLast?, system.IsRegistered link →
    system.heard (system.connections.length - 1) = true →
      system.row.status = .online ∧ system.row.owningInstanceId = some link.replica ∧
        system.row.leaseExpiresAt ≠ none

instance (system : NodeLinks Replica) : Decidable system.Served :=
  inferInstanceAs (Decidable (∀ _ ∈ _, _ → _ → _ ∧ _ ∧ _ ≠ _))

/-- The node has a registered connection newer than the one at the index. -/
def Superseded (index : Nat) (system : NodeLinks Replica) : Prop :=
  ∃ newer ∈ system.connections.drop (index + 1), system.IsRegistered newer

instance (index : Nat) (system : NodeLinks Replica) : Decidable (Superseded index system) :=
  inferInstanceAs (Decidable (∃ _ ∈ _, _))

/-- The jobs that the step failed. -/
def newlyFailed (before after : NodeLinks Replica) : List Jobs.Run :=
  after.jobs.filter fun run => run.row.state = .failed ∧ run ∉ before.jobs

/-- A cleanup fails no job and closes no tunnel of a node with a newer connection. -/
def Unstranded (before : NodeLinks Replica) (label : LinkStep Replica)
    (after : NodeLinks Replica) : Prop :=
  match label with
  | .concludeStranded index _ =>
      Superseded index before → before.newlyFailed after = []
  | .takeTunnelsForNode index =>
      Superseded index before → after.tunnels.live = before.tunnels.live
  | _ => True

/-- A step of the model that keeps the promise. -/
def Keeps (before : NodeLinks Replica) (label : LinkStep Replica)
    (after : NodeLinks Replica) : Prop :=
  after.Served ∧ Unstranded before label after

instance (before : NodeLinks Replica) (label : LinkStep Replica)
    (after : NodeLinks Replica) : Decidable (Unstranded before label after) :=
  match label with
  | .concludeStranded _ _ => inferInstanceAs (Decidable (_ → _ = _))
  | .takeTunnelsForNode _ => inferInstanceAs (Decidable (_ → _ = _))
  | .registerNode _ | .takeLease _ _ | .recordResources _ _ | .unregisterNode _
  | .releaseLease _ | .failStrandedForNode _ | .readRecorded _ | .loadStranded _
  | .finishStranded _ | .announceOffline _ | .workOn _ | .tunnel _ => isTrue trivial

instance (before : NodeLinks Replica) (label : LinkStep Replica)
    (after : NodeLinks Replica) : Decidable (Keeps before label after) :=
  inferInstanceAs (Decidable (_ ∧ _))

/-- A cleanup is under way. -/
def Cleaning (system : NodeLinks Replica) : Prop :=
  ∃ index < system.connections.length, (system.phase index).cleansUp = true

instance (system : NodeLinks Replica) : Decidable system.Cleaning :=
  inferInstanceAs (Decidable (∃ index < _, _ = true))

/-- The newest connection is registered with another replica and has its lease. -/
def LeasedElsewhere (replica : Replica) (system : NodeLinks Replica) : Prop :=
  ∃ link ∈ system.connections.getLast?, link.replica ≠ replica ∧
    system.IsRegistered link ∧ system.phase (system.connections.length - 1) = .serving

instance (replica : Replica) (system : NodeLinks Replica) :
    Decidable (LeasedElsewhere replica system) :=
  inferInstanceAs (Decidable (∃ _ ∈ _, _ ≠ _ ∧ _ ∧ _))

/-- A node that comes back finds no cleanup under way, a connection that ends on one
replica finds no newer one on another, and a late `take_lease` does not take the lease
from another replica. -/
def Orderly (before : NodeLinks Replica) (label : LinkStep Replica)
    (_after : NodeLinks Replica) : Prop :=
  match label with
  | .registerNode _ => ¬ before.Cleaning
  | .unregisterNode index =>
      ∀ link ∈ before.connections[index]?, before.IsRegistered link →
        ¬ Superseded index before
  | .takeLease index _ =>
      ∀ link ∈ before.connections[index]?, ¬ before.LeasedElsewhere link.replica
  | _ => True

instance (before : NodeLinks Replica) (label : LinkStep Replica)
    (after : NodeLinks Replica) : Decidable (Orderly before label after) :=
  match label with
  | .registerNode _ => inferInstanceAs (Decidable (¬ _))
  | .unregisterNode _ => inferInstanceAs (Decidable (∀ _ ∈ _, _ → ¬ _))
  | .takeLease _ _ => inferInstanceAs (Decidable (∀ _ ∈ _, ¬ _))
  | .recordResources _ _ | .releaseLease _ | .failStrandedForNode _ | .readRecorded _
  | .loadStranded _ | .concludeStranded _ _ | .finishStranded _ | .takeTunnelsForNode _
  | .announceOffline _ | .workOn _ | .tunnel _ => isTrue trivial

end Steps

/-! ## What is true in every orderly run -/

section Preservation

variable {Replica : Type} {system before after : NodeLinks Replica}

/-- Epochs are ahead of the connections that have one; a handler that left its loop is not
registered, and while it cleans up nothing newer is; and the newest connection owns the
lease once it has taken it. -/
structure Sound (system : NodeLinks Replica) : Prop where
  fresh : ∀ index, system.connections.length ≤ index → system.phase index = .concluded
  epochs : ∀ link ∈ system.connections, link.epoch < system.nextEpoch link.replica
  ended : ∀ index link, system.connections[index]? = some link →
    (system.phase index).isOpen = false → ¬ system.IsRegistered link
  cleaned : ∀ index, (system.phase index).cleansUp = true →
    ∀ newer ∈ system.connections.drop (index + 1), ¬ system.IsRegistered newer
  owned : ∀ link ∈ system.connections.getLast?, system.IsRegistered link →
    system.phase (system.connections.length - 1) = .serving →
      system.row.owningInstanceId = some link.replica ∧ system.row.leaseExpiresAt ≠ none
  online : ∀ link ∈ system.connections.getLast?, system.IsRegistered link →
    system.heard (system.connections.length - 1) = true → system.row.status = .online
  greeted : ∀ index, system.heard index = true → system.phase index ≠ .registered

theorem LinkPhase.isOpen_of_cleansUp {phase : LinkPhase} (cleans : phase.cleansUp = true) :
    phase.isOpen = false := by
  cases phase with
  | releasing | stranding | sweeping | closing => rfl
  | registered | serving | announcing | concluded => cases cleans

theorem Sound.served (sound : system.Sound) : system.Served := by
  intro link newest registered heard
  refine ⟨sound.online link newest registered heard, ?_⟩
  apply sound.owned link newest registered
  have position : system.connections[system.connections.length - 1]? = some link := by
    rw [← List.getLast?_eq_getElem?]
    exact newest
  cases phase : system.phase (system.connections.length - 1) with
  | serving => rfl
  | registered => exact absurd phase (sound.greeted _ heard)
  | releasing | stranding | sweeping | closing | announcing | concluded =>
      exact absurd registered (sound.ended _ link position (by rw [phase]; rfl))

variable {index : Nat}

/-- Under a cleanup nothing newer is registered, and the newest connection is not. -/
theorem Sound.newest_of_cleansUp (sound : system.Sound)
    (cleans : (system.phase index).cleansUp = true) :
    ∀ link ∈ system.connections.getLast?, ¬ system.IsRegistered link := by
  intro link newest
  have position : system.connections[system.connections.length - 1]? = some link := by
    rw [← List.getLast?_eq_getElem?]
    exact newest
  have inside : index < system.connections.length := by
    by_contra outside
    rw [sound.fresh index (Nat.not_lt.mp outside)] at cleans
    cases cleans
  rcases Nat.lt_or_ge index (system.connections.length - 1) with older | same
  · apply sound.cleaned index cleans
    apply List.mem_of_getElem?
    rw [List.getElem?_drop, Nat.add_sub_cancel' older]
    exact position
  · have isLast : index = system.connections.length - 1 := by omega
    apply sound.ended index link (by rw [isLast]; exact position)
    exact LinkPhase.isOpen_of_cleansUp cleans

theorem Sound.not_superseded (sound : system.Sound)
    (cleans : (system.phase index).cleansUp = true) : ¬ Superseded index system := by
  intro superseded
  obtain ⟨newer, member, registered⟩ := superseded
  exact sound.cleaned index cleans newer member registered

variable {link : Connection Replica}

/-- The handler of a connection that is not registered goes on to a phase outside its
loop; where that is a cleanup, nothing newer is registered. -/
theorem Sound.advance (sound : system.Sound) (next : LinkPhase)
    (position : system.connections[index]? = some link) (absent : ¬ system.IsRegistered link)
    (stays : next.isOpen = false) (cleans : next.cleansUp = true → ¬ Superseded index system) :
    (system.setPhase index next).Sound where
  fresh := by
    intro other outside
    have inside := (List.getElem?_eq_some_iff.mp position).1
    have differs : other ≠ index := by
      intro same
      exact absurd inside (Nat.not_lt.mpr (same ▸ outside))
    simp only [setPhase, Function.update_of_ne differs]
    exact sound.fresh other outside
  epochs := sound.epochs
  ended := by
    intro other there atOther closed
    by_cases same : other = index
    · rw [same] at atOther
      rw [← Option.some.inj (position.symm.trans atOther)]
      exact absent
    · simp only [setPhase, Function.update_of_ne same] at closed
      exact sound.ended other there atOther closed
  cleaned := by
    intro other busy newer member registered
    by_cases same : other = index
    · rw [same] at member
      simp only [setPhase, same, Function.update_self] at busy
      exact cleans busy ⟨newer, member, registered⟩
    · simp only [setPhase, Function.update_of_ne same] at busy
      exact sound.cleaned other busy newer member registered
  owned := by
    intro link newest registered serving
    apply sound.owned link newest registered
    by_cases same : system.connections.length - 1 = index
    · simp only [setPhase, same, Function.update_self] at serving
      rw [serving] at stays
      cases stays
    · simp only [setPhase, Function.update_of_ne same] at serving
      exact serving
  online := sound.online
  greeted := by
    intro other heard
    by_cases same : other = index
    · simp only [setPhase, same, Function.update_self]
      intro registered
      rw [registered] at stays
      cases stays
    · simp only [setPhase, Function.update_of_ne same]
      exact sound.greeted other heard

/-- The jobs and the tunnels are not in the invariant. -/
theorem Sound.setJobs (sound : system.Sound) (jobs : List Jobs.Run) :
    ({ system with jobs } : NodeLinks Replica).Sound :=
  ⟨sound.fresh, sound.epochs, sound.ended, sound.cleaned, sound.owned, sound.online,
    sound.greeted⟩

theorem Sound.setTunnels (sound : system.Sound) (tunnels : TunnelRoutes Replica) :
    ({ system with tunnels } : NodeLinks Replica).Sound :=
  ⟨sound.fresh, sound.epochs, sound.ended, sound.cleaned, sound.owned, sound.online,
    sound.greeted⟩

/-- While the newest connection is not registered, the row may be anything. -/
theorem Sound.setRow (sound : system.Sound) (row : NodeRow Replica)
    (absent : ∀ link ∈ system.connections.getLast?, ¬ system.IsRegistered link) :
    ({ system with row } : NodeLinks Replica).Sound where
  fresh := sound.fresh
  epochs := sound.epochs
  ended := sound.ended
  cleaned := sound.cleaned
  owned := by
    intro link newest registered
    exact absurd registered (absent link newest)
  online := by
    intro link newest registered
    exact absurd registered (absent link newest)
  greeted := sound.greeted

theorem linkIn_eq_some {phase : LinkPhase} (found : system.linkIn phase index = some link) :
    system.phase index = phase ∧ system.connections[index]? = some link := by
  unfold linkIn at found
  split at found
  · next inPhase => exact ⟨inPhase, found⟩
  · cases found

theorem sweepOf_eq_some {sweep : Jobs.Sweep} (found : system.sweepOf index = some sweep) :
    system.phase index = .sweeping sweep := by
  unfold sweepOf at found
  split at found
  · next inPhase =>
    rw [inPhase, Option.some.inj found]
  · cases found

/-- A connection found in a phase of the cleanup is in its cleanup. -/
theorem cleansUp_of_linkIn {phase : LinkPhase}
    (found : system.linkIn phase index = some link) (cleans : phase.cleansUp = true) :
    (system.phase index).cleansUp = true :=
  (linkIn_eq_some found).1.symm ▸ cleans

theorem cleansUp_of_sweepOf {sweep : Jobs.Sweep}
    (found : system.sweepOf index = some sweep) : (system.phase index).cleansUp = true :=
  (sweepOf_eq_some found).symm ▸ rfl

variable [DecidableEq Replica]

/-- A new connection, when no cleanup is under way. -/
theorem Sound.registerNode (sound : system.Sound) (replica : Replica)
    (quiet : ¬ system.Cleaning) : (system.registerNode replica).Sound where
  fresh := by
    intro index outside
    simp only [NodeLinks.registerNode, List.length_append, List.length_singleton] at outside ⊢
    rw [Function.update_of_ne (by omega)]
    exact sound.fresh index (by omega)
  epochs := by
    intro link member
    simp only [NodeLinks.registerNode] at member ⊢
    rcases List.mem_append.mp member with old | new
    · have below := sound.epochs link old
      by_cases same : link.replica = replica
      · rw [same] at below ⊢
        rw [Function.update_self]
        exact Nat.lt_succ_of_lt below
      · rw [Function.update_of_ne same]
        exact below
    · rw [List.mem_singleton.mp new, Function.update_self]
      exact Nat.lt_succ_self _
  ended := by
    intro index link position closed
    simp only [NodeLinks.registerNode] at position closed
    rcases Nat.lt_or_ge index system.connections.length with old | new
    · rw [Function.update_of_ne (Nat.ne_of_lt old)] at closed
      rw [List.getElem?_append_left old] at position
      have before := sound.ended index link position closed
      intro registered
      simp only [IsRegistered, NodeLinks.registerNode] at registered
      by_cases same : link.replica = replica
      · rw [same, Function.update_self] at registered
        have below := sound.epochs link (List.mem_of_getElem? position)
        rw [same, ← Option.some.inj registered] at below
        exact Nat.lt_irrefl _ below
      · rw [Function.update_of_ne same] at registered
        exact before registered
    · have atEnd : index = system.connections.length := by
        have inside := (List.getElem?_eq_some_iff.mp position).1
        simp only [List.length_append, List.length_singleton] at inside
        omega
      rw [atEnd, Function.update_self] at closed
      cases closed
  cleaned := by
    intro index cleans
    simp only [NodeLinks.registerNode] at cleans
    by_cases new : index = system.connections.length
    · rw [new, Function.update_self] at cleans
      cases cleans
    · rw [Function.update_of_ne new] at cleans
      rcases Nat.lt_or_ge index system.connections.length with old | outside
      · exact absurd ⟨index, old, cleans⟩ quiet
      · rw [sound.fresh index outside] at cleans
        cases cleans
  owned := by
    intro link newest registered serving
    simp only [NodeLinks.registerNode, List.length_append, List.length_singleton,
      Nat.add_sub_cancel, Function.update_self, reduceCtorEq] at serving
  online := by
    intro link newest registered heard
    simp only [NodeLinks.registerNode, List.length_append, List.length_singleton,
      Nat.add_sub_cancel, Function.update_self, Bool.false_eq_true] at heard
  greeted := by
    intro index heard
    simp only [NodeLinks.registerNode] at heard ⊢
    by_cases new : index = system.connections.length
    · rw [new, Function.update_self] at heard
      cases heard
    · rw [Function.update_of_ne new] at heard ⊢
      exact sound.greeted index heard

/-- The lease is taken, and not from a newer connection elsewhere. -/
theorem Sound.takeLease (sound : system.Sound)
    (now : Instant) (found : system.linkIn .registered index = some link)
    (own : ¬ system.LeasedElsewhere link.replica) :
    ({ system with row := system.row.takeLease link.replica now }.setPhase index
      .serving).Sound := by
  obtain ⟨phase, position⟩ := linkIn_eq_some found
  have inside := (List.getElem?_eq_some_iff.mp position).1
  exact
    { fresh := by
        intro other outside
        have differs : other ≠ index := by
          intro same
          exact absurd inside (Nat.not_lt.mpr (same ▸ outside))
        simp only [setPhase, Function.update_of_ne differs]
        exact sound.fresh other outside
      epochs := sound.epochs
      ended := by
        intro other link' position' closed
        by_cases same : other = index
        · simp only [setPhase, same, Function.update_self] at closed
          cases closed
        · simp only [setPhase, Function.update_of_ne same] at closed
          exact sound.ended other link' position' closed
      cleaned := by
        intro other cleans
        by_cases same : other = index
        · simp only [setPhase, same, Function.update_self] at cleans
          cases cleans
        · simp only [setPhase, Function.update_of_ne same] at cleans
          exact sound.cleaned other cleans
      owned := by
        intro newest isNewest registered serving
        refine ⟨?_, Option.some_ne_none _⟩
        simp only [setPhase, NodeRow.takeLease, Option.some.injEq]
        by_cases same : system.connections.length - 1 = index
        · have sameLink : system.connections.getLast? = some link := by
            rw [List.getLast?_eq_getElem?, same]
            exact position
          have newestIs : system.connections.getLast? = some newest := isNewest
          rw [Option.some.inj (sameLink.symm.trans newestIs)]
        · simp only [setPhase, Function.update_of_ne same] at serving
          by_contra differs
          exact own ⟨newest, isNewest, fun same => differs same.symm, registered, serving⟩
      online := sound.online
      greeted := by
        intro other heard
        by_cases same : other = index
        · simp only [setPhase, same, Function.update_self, ne_eq, reduceCtorEq,
            not_false_eq_true]
        · simp only [setPhase, Function.update_of_ne same]
          exact sound.greeted other heard }

/-- A heartbeat writes `online` and leaves the owner alone. -/
theorem Sound.recordResources (sound : system.Sound) (now : Instant)
    (found : system.linkIn .serving index = some link) :
    ({ system with
        row := system.row.recordResources link.replica now
        heard := Function.update system.heard index true } :
      NodeLinks Replica).Sound where
  fresh := sound.fresh
  epochs := sound.epochs
  ended := sound.ended
  cleaned := sound.cleaned
  owned := by
    intro newest isNewest registered serving
    obtain ⟨owner, expires⟩ := sound.owned newest isNewest registered serving
    refine ⟨owner, ?_⟩
    simp only [NodeRow.recordResources]
    split
    · exact Option.some_ne_none _
    · exact expires
  online := by
    intro newest isNewest registered heard
    rfl
  greeted := by
    intro other heard
    by_cases same : other = index
    · rw [same, (linkIn_eq_some found).1]
      intro impossible
      cases impossible
    · simp only [Function.update_of_ne same] at heard
      exact sound.greeted other heard

/-- A replica's entry goes, and so nothing comes to be registered. -/
theorem IsRegistered.of_drop {replica : Replica}
    (still : ({ system with nodes := Function.update system.nodes replica none } :
      NodeLinks Replica).IsRegistered link) :
    system.IsRegistered link ∧ link.replica ≠ replica := by
  simp only [IsRegistered] at still ⊢
  by_cases same : link.replica = replica
  · rw [same, Function.update_self] at still
    cases still
  · rw [Function.update_of_ne same] at still
    exact ⟨still, same⟩

theorem Sound.dropEntry (sound : system.Sound) (replica : Replica) :
    ({ system with nodes := Function.update system.nodes replica none } :
      NodeLinks Replica).Sound where
  fresh := sound.fresh
  epochs := sound.epochs
  ended := by
    intro index link position closed still
    exact sound.ended index link position closed (IsRegistered.of_drop still).1
  cleaned := by
    intro index cleans newer member still
    exact sound.cleaned index cleans newer member (IsRegistered.of_drop still).1
  owned := by
    intro newest isNewest still
    exact sound.owned newest isNewest (IsRegistered.of_drop still).1
  online := by
    intro newest isNewest still
    exact sound.online newest isNewest (IsRegistered.of_drop still).1
  greeted := sound.greeted

/-- The end of a connection, when no newer one is registered on another replica. -/
theorem Sound.unregisterNode (sound : system.Sound)
    (found : system.linkIn .serving index = some link)
    (alone : system.IsRegistered link → ¬ Superseded index system) :
    (system.unregisterNode index link).Sound := by
  obtain ⟨phase, position⟩ := linkIn_eq_some found
  unfold NodeLinks.unregisterNode
  split
  · next registered =>
    apply (sound.dropEntry link.replica).advance .releasing position
    · intro still
      exact (IsRegistered.of_drop still).2 rfl
    · rfl
    · intro _ superseded
      obtain ⟨newer, member, still⟩ := superseded
      exact alone registered ⟨newer, member, (IsRegistered.of_drop still).1⟩
  · next superseded =>
    apply sound.advance .concluded position superseded rfl
    intro cleans
    cases cleans

omit [DecidableEq Replica] in
/-- A handler in its cleanup goes on to the next step of it. -/
theorem Sound.goOn (sound : system.Sound) (next : LinkPhase)
    (cleans : (system.phase index).cleansUp = true) (stays : next.isOpen = false) :
    (system.setPhase index next).Sound := by
  have inside : index < system.connections.length := by
    by_contra outside
    rw [sound.fresh index (Nat.not_lt.mp outside)] at cleans
    cases cleans
  have position := List.getElem?_eq_getElem inside
  apply sound.advance next position
  · exact sound.ended index _ position (LinkPhase.isOpen_of_cleansUp cleans)
  · exact stays
  · intro _
    exact sound.not_superseded cleans

theorem step_sound {node : NodeId} {label : LinkStep Replica} (sound : before.Sound)
    (taken : step node before label = some after)
    (orderly : before.Orderly label after) : after.Sound := by
  cases label with
  | registerNode replica =>
      cases taken
      exact sound.registerNode replica orderly
  | takeLease index now =>
      obtain ⟨link, found, wrote⟩ := Option.bind_eq_some_iff.mp taken
      cases wrote
      exact sound.takeLease now found (orderly link (linkIn_eq_some found).2)
  | recordResources index now =>
      obtain ⟨link, found, wrote⟩ := Option.bind_eq_some_iff.mp taken
      cases wrote
      exact sound.recordResources now found
  | unregisterNode index =>
      obtain ⟨link, found, wrote⟩ := Option.bind_eq_some_iff.mp taken
      cases wrote
      exact sound.unregisterNode found (orderly link (linkIn_eq_some found).2)
  | releaseLease index =>
      obtain ⟨link, found, wrote⟩ := Option.bind_eq_some_iff.mp taken
      cases wrote
      have cleans := cleansUp_of_linkIn found rfl
      exact (sound.setRow (before.row.releaseLease link.replica)
        (sound.newest_of_cleansUp cleans)).goOn .stranding cleans rfl
  | failStrandedForNode index =>
      obtain ⟨link, found, wrote⟩ := Option.bind_eq_some_iff.mp taken
      cases wrote
      exact sound.goOn _ (cleansUp_of_linkIn found rfl) rfl
  | readRecorded | loadStranded =>
      obtain ⟨sweep, found, read⟩ := Option.bind_eq_some_iff.mp taken
      obtain ⟨next, advanced, wrote⟩ := Option.bind_eq_some_iff.mp read
      cases wrote
      exact sound.goOn _ (cleansUp_of_sweepOf found) rfl
  | concludeStranded index now =>
      obtain ⟨sweep, found, concluded⟩ := Option.bind_eq_some_iff.mp taken
      split at concluded
      · cases concluded
        exact (sound.setJobs _).goOn _ (cleansUp_of_sweepOf found) rfl
      · cases concluded
  | finishStranded index =>
      obtain ⟨sweep, found, finished⟩ := Option.bind_eq_some_iff.mp taken
      split at finished
      · cases finished
        exact sound.goOn _ (cleansUp_of_sweepOf found) rfl
      · cases finished
  | takeTunnelsForNode index =>
      obtain ⟨link, found, rest⟩ := Option.bind_eq_some_iff.mp taken
      obtain ⟨tunnels, closed, wrote⟩ := Option.bind_eq_some_iff.mp rest
      cases wrote
      exact (sound.setTunnels tunnels).goOn _ (cleansUp_of_linkIn found rfl) rfl
  | announceOffline index =>
      obtain ⟨link, found, wrote⟩ := Option.bind_eq_some_iff.mp taken
      obtain ⟨phase, position⟩ := linkIn_eq_some found
      cases wrote
      apply sound.advance .concluded position
      · exact sound.ended index link position (by rw [phase]; rfl)
      · rfl
      · intro cleans
        cases cleans
  | workOn jobs =>
      cases taken
      exact sound.setJobs jobs
  | tunnel other =>
      obtain ⟨tunnels, changed, wrote⟩ := Option.bind_eq_some_iff.mp taken
      cases wrote
      exact sound.setTunnels tunnels

theorem step_unstranded {node : NodeId} {label : LinkStep Replica} (sound : before.Sound)
    (taken : step node before label = some after) : before.Unstranded label after := by
  cases label with
  | concludeStranded index now =>
      intro superseded
      obtain ⟨sweep, found, concluded⟩ := Option.bind_eq_some_iff.mp taken
      exact absurd superseded (sound.not_superseded (cleansUp_of_sweepOf found))
  | takeTunnelsForNode index =>
      intro superseded
      obtain ⟨link, found, rest⟩ := Option.bind_eq_some_iff.mp taken
      exact absurd superseded (sound.not_superseded (cleansUp_of_linkIn found rfl))
  | registerNode _ | takeLease _ _ | recordResources _ _ | unregisterNode _
  | releaseLease _ | failStrandedForNode _ | readRecorded _ | loadStranded _
  | finishStranded _ | announceOffline _ | workOn _ | tunnel _ => trivial

/-- A node that no replica has ever had a connection of. -/
def start (row : NodeRow Replica) (jobs : List Jobs.Run) (tunnels : TunnelRoutes Replica) :
    NodeLinks Replica where
  row := row
  nextEpoch := fun _ => 1
  nodes := fun _ => none
  connections := []
  phase := fun _ => .concluded
  heard := fun _ => false
  jobs := jobs
  tunnels := tunnels

omit [DecidableEq Replica] in
theorem start_sound (row : NodeRow Replica) (jobs : List Jobs.Run)
    (tunnels : TunnelRoutes Replica) : (start row jobs tunnels).Sound where
  fresh := by intro index _; rfl
  epochs := by intro link member; cases member
  ended := by intro index link position; cases position
  cleaned := by intro index cleans; cases cleans
  owned := by intro link newest; cases newest
  online := by intro link newest; cases newest
  greeted := by intro index heard; cases heard

/-- In every orderly run the row of a node with a live connection says so, and no cleanup
fails a job or closes a tunnel of a node that has come back. -/
theorem node_served (node : NodeId) (row : NodeRow Replica) (jobs : List Jobs.Run)
    (tunnels : TunnelRoutes Replica) (labels : List (LinkStep Replica))
    (orderly : Along (step node) Orderly (start row jobs tunnels) labels) :
    Along (step node) Keeps (start row jobs tunnels) labels := by
  apply orderly.of_invariant Sound
  · intro before label after sound taken orderly
    exact step_sound sound taken orderly
  · intro before label after sound taken orderly
    exact ⟨(step_sound sound taken orderly).served, step_unstranded sound taken⟩
  · exact start_sound row jobs tunnels

end Preservation

/-! ## Orders that strand a live node -/

/-- A build that runs on node 1, which also serves a tunnel. -/
def busyNode : NodeLinks Bool :=
  start ⟨.offline, none, none⟩
    [Run.start
      { Repo.create 0
          { id := 1, tenant := 1, kind := .build, targetTaskId := some 7
            workspaceId := some 3, requestedBy := 2, seed := none
            predecessorJobId := none, reviewPrNumber := none, reviewHeadSha := none
            reviewForced := false, buildFingerprint := none } with
        state := .running, executorNodeId := some 1 } none]
    (TunnelRoutes.empty.openTunnelRoute false 0 "web" (TunnelRoutes.aTunnel 3000))

/-- The node has moved from one replica to the other before the first notices. -/
def movedAcross : List (LinkStep Bool) :=
  [.registerNode false, .takeLease 0 1, .recordResources 0 2, .registerNode true,
    .takeLease 1 3, .recordResources 1 4, .unregisterNode 0, .releaseLease 0,
    .failStrandedForNode 0]

/-- The node comes back to the replica that is about to release its lease. -/
def backTooSoon : List (LinkStep Bool) :=
  [.registerNode false, .takeLease 0 1, .unregisterNode 0, .registerNode false,
    .takeLease 1 2, .recordResources 1 3, .releaseLease 0]

/-- The lease is taken for a connection that the node has left. -/
def leasedTooLate : List (LinkStep Bool) :=
  [.registerNode false, .registerNode true, .takeLease 1 1, .recordResources 1 2,
    .takeLease 0 3]

/-- A node that is heartbeating on a newer connection has its job failed and its tunnel
closed; its row says offline; and its lease is another replica's. -/
theorem live_node_stranded :
    ¬ Along (step 1) Keeps busyNode
      (movedAcross ++ [.readRecorded 0, .loadStranded 0, .concludeStranded 0 5]) ∧
    ¬ Along (step 1) Keeps busyNode
      (movedAcross ++ [.workOn [], .readRecorded 0, .finishStranded 0,
        .takeTunnelsForNode 0]) ∧
    ¬ Along (step 1) Keeps busyNode backTooSoon ∧
    ¬ Along (step 1) Keeps busyNode leasedTooLate := by
  decide +kernel

/-- A node that connects, heartbeats, goes and comes back to the other replica once it
has been cleaned up after. -/
theorem node_served_in_order :
    Along (step 1) Keeps busyNode
      [.registerNode false, .takeLease 0 1, .recordResources 0 2, .unregisterNode 0,
        .releaseLease 0, .failStrandedForNode 0, .readRecorded 0, .loadStranded 0,
        .concludeStranded 0 3, .finishStranded 0, .takeTunnelsForNode 0,
        .announceOffline 0, .registerNode true, .takeLease 1 4, .recordResources 1 5] :=
  node_served 1 _ _ _ _ (by decide +kernel)

end NodeLinks

end NookOs.Ws
