/-
Module: NookOs.Sessions.Exactness
Purpose: A plan accounts for every session that is asked for, is done with once it has
  been carried out, does not depend on the order of what it is given, and keeps within
  what the nodes hold over all workspaces of a pass.
Trusted boundary: none
Main exports: settle, Workspace, pass, Exact, hold_spec, Exact.of_small, plan_exact_iff
-/
import NookOs.Sessions.Placing

namespace NookOs.Sessions

open Lib Lib.Dealing

section Carrying

def Action.stopped : Action → Option SessionId
  | stop session _ => some session
  | start .. => none

def Action.started : Action → Option (NodeWorkspaceId × NodeId × ShardAssignment)
  | start checkout node _ shard => some (checkout, node, shard)
  | stop .. => none

/-- The live sessions once the actions have been carried out; the sessions that are
started have new ids. -/
def settle (fresh : Nat → SessionId) (plan : Plan) (actual : List Actual) : List Actual :=
  (actual.filter fun session => session.sessionId ∉ plan.actions.filterMap Action.stopped) ++
    (plan.actions.filterMap Action.started).zipIdx.map fun ((checkout, node, shard), index) =>
      { sessionId := fresh index, checkoutId := checkout, nodeId := node, shard := shard }

/-- What a session is held for. -/
def Actual.assignment (session : Actual) : NodeWorkspaceId × ShardAssignment :=
  (session.checkoutId, session.shard)

/-- A workspace as a pass reads it. -/
structure Workspace where
  spec : SessionSpec
  checkouts : List CheckoutSlot
  actual : List Actual
  ports : PortSafety

/-- The workspaces of a pass, each planned against what those before it have spent. -/
def pass (nodes : List NodeFacts) (workspaces : List Workspace) : NodeBudget :=
  workspaces.foldl (fun budget workspace => budget.charge <| plan workspace.spec
    (budget.appliedTo nodes) workspace.checkouts workspace.actual workspace.ports .sharded) {}

end Carrying

section Properties

variable (spec : SessionSpec) (nodes : List NodeFacts) (checkouts : List CheckoutSlot)
  (actual : List Actual) (ports : PortSafety) (spread : Spread)

/-- The sessions are those of the placed slots, one each. -/
def Occupied (after : List Actual) : Prop :=
  match spread with
  | .perCheckout => (actual.map (·.checkoutId)).Nodup →
      (after.map (·.checkoutId)).Perm
        ((placements spec nodes checkouts ports spread).map fun (slot, _) => slot.checkoutId)
  | .sharded =>
      (after.map Actual.assignment).Perm
        ((placements spec nodes checkouts ports spread).map fun (slot, shard) =>
          (slot.checkoutId, shard))

/-- The plan is exact and stable. -/
structure Exact : Prop where
  conserved : (plan spec nodes checkouts actual ports spread).placed +
    (plan spec nodes checkouts actual ports spread).shortfall =
      (plan spec nodes checkouts actual ports spread).desired
  counted : (plan spec nodes checkouts actual ports spread).perNode.total =
    (plan spec nodes checkouts actual ports spread).placed
  occupied : ∀ fresh, Occupied spec nodes checkouts actual ports spread
    (settle fresh (plan spec nodes checkouts actual ports spread) actual)
  stable : ∀ fresh, (plan spec nodes checkouts
    (settle fresh (plan spec nodes checkouts actual ports spread) actual) ports spread).actions = []
  ordered : ∀ others moved shuffled, nodes.Perm others → checkouts.Perm moved →
    actual.Perm shuffled →
      placements spec others moved ports spread = placements spec nodes checkouts ports spread ∧
      (plan spec others moved shuffled ports spread).desired =
        (plan spec nodes checkouts actual ports spread).desired ∧
      (plan spec others moved shuffled ports spread).shortfall =
        (plan spec nodes checkouts actual ports spread).shortfall ∧
      (plan spec others moved shuffled ports spread).needsClone =
        (plan spec nodes checkouts actual ports spread).needsClone
  capped : (plan spec nodes checkouts actual ports spread).capped = true →
    ∀ node, (plan spec nodes checkouts actual ports spread).perNode.get node ≤ 1
  sharded : spread = .sharded →
    (placements spec nodes checkouts ports spread).map
        (fun (_, shard) => (shard.index.toNat, shard.of.toNat)) =
      (List.range (plan spec nodes checkouts actual ports spread).placed).map
        (fun index => (index, (plan spec nodes checkouts actual ports spread).placed)) ∧
    (plan spec nodes checkouts actual ports spread).placed =
      min (targetSessions spec (eligibleNodes spec nodes checkouts) (ports = .undeclared))
        (roomOf (eligibleNodes spec nodes checkouts) checkouts (ports = .undeclared))
  bounded : ∀ workspaces, ∀ node ∈ nodes,
    (pass nodes workspaces).spent.get node.id ≤ node.ceiling

end Properties

/-! ### Carrying a plan out -/

section Holding

variable {wanted held : List (NodeWorkspaceId × ShardAssignment)} {actual : List Actual}

/-- Sessions are kept or stopped, and those that are kept are wanted and differ. -/
theorem hold_spec (wanted : List (NodeWorkspaceId × ShardAssignment)) (actual : List Actual)
    (distinct : held.Nodup) : ∃ kept dropped,
    actual.Perm (kept ++ dropped) ∧
      hold wanted held actual = (held ++ kept.map Actual.assignment, dropped.map stop) ∧
      (held ++ kept.map Actual.assignment).Nodup ∧
      ∀ session ∈ kept, session.assignment ∈ wanted := by
  induction actual generalizing held with
  | nil => exact ⟨[], [], .refl _, by simp [hold], by simpa using distinct, nofun⟩
  | cons session rest ih =>
      rw [hold]
      split
      · next isHeld =>
          obtain ⟨isWanted, isNew⟩ := isHeld
          have more : (held ++ [session.assignment]).Nodup :=
            List.nodup_append.mpr ⟨distinct, List.nodup_singleton _, by
              rintro other member _ (_ | ⟨_, ⟨⟩⟩) rfl
              exact isNew member⟩
          obtain ⟨kept, dropped, perm, same, apart, areWanted⟩ := ih more
          refine ⟨session :: kept, dropped, perm.cons session, ?_, ?_, ?_⟩
          · exact same.trans (congrArg (Prod.mk · _) (List.append_assoc ..))
          · rw [List.map_cons, List.append_cons]
            exact apart
          · rintro other (_ | ⟨_, member⟩)
            · exact isWanted
            · exact areWanted other member
      · obtain ⟨kept, dropped, perm, same, apart, areWanted⟩ := ih distinct
        refine ⟨kept, session :: dropped, (perm.cons session).trans List.perm_middle.symm, ?_,
          apart, areWanted⟩
        rw [same]
        rfl

/-- Sessions that are wanted and differ are all held. -/
theorem hold_all (apart : (held ++ actual.map Actual.assignment).Nodup)
    (areWanted : ∀ session ∈ actual, session.assignment ∈ wanted) :
    hold wanted held actual = (held ++ actual.map Actual.assignment, []) := by
  induction actual generalizing held with
  | nil => simp [hold]
  | cons session rest ih =>
      have isNew : session.assignment ∉ held := by
        intro member
        exact (List.nodup_append.mp apart).2.2 _ member _ List.mem_cons_self rfl
      rw [List.map_cons, List.append_cons] at apart ⊢
      rw [hold, if_pos ⟨areWanted session List.mem_cons_self, isNew⟩]
      exact ih apart fun other member =>
        areWanted other (List.mem_cons_of_mem session member)

variable {plan : Plan} {kept dropped : List Actual} {slots : List (CheckoutSlot × ShardAssignment)}

/-- Once a plan has been carried out, there are the sessions that it kept and those that
it started. -/
theorem settle_eq (fresh : Nat → SessionId) (distinct : (actual.map (·.sessionId)).Nodup)
    (perm : actual.Perm (kept ++ dropped))
    (acts : plan.actions = dropped.map stop ++ slots.map fun (slot, shard) => start slot shard) :
    ((settle fresh plan actual).map Actual.assignment).Perm
      (kept.map Actual.assignment ++ slots.map fun (slot, shard) => (slot.checkoutId, shard)) := by
  have stops : plan.actions.filterMap Action.stopped = dropped.map (·.sessionId) := by
    have none : (slots.map fun (slot, shard) => start slot shard).filterMap Action.stopped = [] :=
      List.filterMap_eq_nil_iff.mpr fun action member => by
        obtain ⟨slot, -, rfl⟩ := List.mem_map.mp member
        rfl
    rw [acts, List.filterMap_append, none, List.append_nil, List.filterMap_map]
    exact congrFun (List.filterMap_eq_map (f := fun session : Actual => session.sessionId)) _
  have starts : plan.actions.filterMap Action.started =
      slots.map fun (slot, shard) => (slot.checkoutId, slot.nodeId, shard) := by
    have none : (dropped.map stop).filterMap Action.started = [] :=
      List.filterMap_eq_nil_iff.mpr fun action member => by
        obtain ⟨session, -, rfl⟩ := List.mem_map.mp member
        rfl
    rw [acts, List.filterMap_append, none, List.nil_append, List.filterMap_map]
    exact congrFun (List.filterMap_eq_map (f := fun place : CheckoutSlot × ShardAssignment =>
      (place.1.checkoutId, place.1.nodeId, place.2))) _
  rw [settle, stops, starts, List.map_append]
  refine List.Perm.append ?_ (.of_eq ?_)
  · -- the ids differ, so exactly the dropped sessions are stopped
    have allDistinct := (perm.map (·.sessionId)).nodup_iff.mp distinct
    rw [List.map_append] at allDistinct
    have apart := (List.nodup_append.mp allDistinct).2.2
    refine ((perm.filter _).map _).trans (.of_eq ?_)
    have keeps : kept.filter (fun session =>
        session.sessionId ∉ dropped.map (·.sessionId)) = kept :=
      List.filter_eq_self.mpr fun session member => decide_eq_true fun isDropped =>
        apart _ (List.mem_map_of_mem member) _ isDropped rfl
    have drops : dropped.filter (fun session =>
        session.sessionId ∉ dropped.map (·.sessionId)) = [] :=
      List.filter_eq_nil_iff.mpr fun session member keeps =>
        of_decide_eq_true keeps (List.mem_map_of_mem member)
    rw [List.filter_append, keeps, drops, List.append_nil]
  · rw [List.map_map]
    have indexed := List.zipIdx_map_fst 0
      (slots.map fun (slot, shard) => (slot.checkoutId, slot.nodeId, shard))
    calc _ = ((slots.map fun (slot, shard) => (slot.checkoutId, slot.nodeId, shard)).zipIdx.map
          Prod.fst).map fun (checkout, _, shard) => (checkout, shard) := by
            rw [List.map_map]
            rfl
      _ = _ := by
            rw [indexed, List.map_map]
            rfl

/-- What is held and what is started for the rest is what is wanted. -/
theorem perm_wanted {Item : Type*} [BEq Item] [LawfulBEq Item] {wanted held : List Item}
    (distinct : wanted.Nodup) (heldDistinct : held.Nodup)
    (areWanted : ∀ item ∈ held, item ∈ wanted) :
    (held ++ wanted.filter (· ∉ held)).Perm wanted := by
  refine (List.perm_ext_iff_of_nodup ?_ distinct).mpr ?_
  · refine List.nodup_append.mpr ⟨heldDistinct, distinct.sublist List.filter_sublist, ?_⟩
    rintro item isHeld other member rfl
    exact of_decide_eq_true (List.mem_filter.mp member).2 isHeld
  · intro item
    rw [List.mem_append, List.mem_filter, decide_eq_true_eq]
    constructor
    · rintro (isHeld | ⟨isWanted, -⟩)
      · exact areWanted item isHeld
      · exact isWanted
    · intro isWanted
      by_cases isHeld : item ∈ held
      · exact .inl isHeld
      · exact .inr ⟨isWanted, isHeld⟩

end Holding

/-! ### What a plan keeps -/

section Plans

variable {spec : SessionSpec} {nodes : List NodeFacts} {checkouts : List CheckoutSlot}
  {actual : List Actual} {ports : PortSafety} {spread : Spread} {capped : Bool}

theorem placed_add_shortfall : (plan spec nodes checkouts actual ports spread).placed +
    (plan spec nodes checkouts actual ports spread).shortfall =
      (plan spec nodes checkouts actual ports spread).desired := by
  cases spread with
  | perCheckout =>
      change _ + (_ + _) = _ + _ + _
      exact (Nat.add_assoc ..).symm
  | sharded =>
      have dealt := length_shardSlots spec (ports = .undeclared)
        (eligibleNodes_sorted spec nodes checkouts)
      change (withShards _).length + (_ - (withShards _).length) = _
      rw [length_withShards, dealt]
      exact Nat.add_sub_cancel' (Nat.min_le_left _ _)

/-- A plan counts the places that it has. -/
theorem per_node_eq : (plan spec nodes checkouts actual ports spread).perNode =
    .ofKeys ((placements spec nodes checkouts ports spread).map fun (slot, _) => slot.nodeId) := by
  cases spread with
  | perCheckout =>
      change Tally.ofKeys (List.map _ _) = .ofKeys (List.map _ (List.map _ _))
      rw [List.map_map]
      rfl
  | sharded => rfl

theorem placed_eq : (plan spec nodes checkouts actual ports spread).placed =
    (placements spec nodes checkouts ports spread).length := by
  cases spread with
  | perCheckout => exact (List.length_map _).symm
  | sharded => rfl

theorem total_per_node : (plan spec nodes checkouts actual ports spread).perNode.total =
    (plan spec nodes checkouts actual ports spread).placed := by
  rw [per_node_eq, placed_eq, Tally.total_ofKeys, List.length_map]

theorem per_node_shard_eq (node : NodeId) :
    (plan spec nodes checkouts actual ports .sharded).perNode.get node =
      (shardSlots spec (eligibleNodes spec nodes checkouts) checkouts
        (ports = .undeclared)).countP fun slot => slot.nodeId = node := by
  have onNode : ((placements spec nodes checkouts ports .sharded).map
      fun (slot, _) => slot.nodeId) =
        (shardSlots spec (eligibleNodes spec nodes checkouts) checkouts
          (ports = .undeclared)).map (·.nodeId) := by
    conv_rhs => rw [← map_fst_withShards (shardSlots ..), List.map_map]
    rfl
  rw [per_node_eq, Tally.get_ofKeys, onNode, List.count, List.countP_map]
  rfl

theorem mem_nodes_of_shardSlot {slot : CheckoutSlot}
    (inSlots : slot ∈ shardSlots spec (eligibleNodes spec nodes checkouts) checkouts capped) :
    ∃ node ∈ eligibleNodes spec nodes checkouts, slot.nodeId = node.id := by
  obtain ⟨-, node, involved, ofNode⟩ := mem_shardSlots inSlots
  exact ⟨node, (cover_isPrefix ..).subset involved, ofNode⟩

/-- The places on a node are within what it may hold. -/
theorem per_node_sharded (distinct : (nodes.map (·.id)).Nodup) (node : NodeFacts)
    (member : node ∈ nodes) :
    (plan spec nodes checkouts actual ports .sharded).perNode.get node.id ≤
      capacityOf (ports = .undeclared) node := by
  rw [per_node_shard_eq]
  have eligibleDistinct := eligibleNodes_distinct spec checkouts distinct
  by_cases isEligible : node ∈ eligibleNodes spec nodes checkouts
  · exact countP_shardSlots eligibleDistinct isEligible
  · refine (List.countP_eq_zero.mpr ?_).le.trans (Nat.zero_le _)
    intro slot inSlots onNode
    obtain ⟨other, isOther, ofOther⟩ := mem_nodes_of_shardSlot inSlots
    have known : other ∈ nodes := List.mem_of_mem_filter (eligibleNodes_perm.mem_iff.mp isOther)
    have same : node = other := List.inj_on_of_nodup_map distinct member known
      ((of_decide_eq_true onNode).symm.trans ofOther)
    exact isEligible (same ▸ isOther)

theorem per_node_perCheckout (isCapped : ports = .undeclared) (node : NodeId) :
    (plan spec nodes checkouts actual ports .perCheckout).perNode.get node ≤ 1 := by
  subst isCapped
  rw [per_node_eq, Tally.get_ofKeys]
  refine List.nodup_iff_count_le_one.mp ?_ node
  change (List.map _ (List.map _ (firstPerNode _ _))).Nodup
  rw [List.map_map]
  exact (firstPerNode_distinct ..).1

theorem capped_iff : (plan spec nodes checkouts actual ports spread).capped = true ↔
    ports = .undeclared := by
  cases spread <;> exact decide_eq_true_iff

theorem capped_le_one (distinct : (nodes.map (·.id)).Nodup)
    (isCapped : (plan spec nodes checkouts actual ports spread).capped = true) (node : NodeId) :
    (plan spec nodes checkouts actual ports spread).perNode.get node ≤ 1 := by
  rw [capped_iff] at isCapped
  cases spread with
  | perCheckout => exact per_node_perCheckout isCapped node
  | sharded =>
      by_cases known : ∃ facts ∈ nodes, facts.id = node
      · obtain ⟨facts, member, rfl⟩ := known
        refine (per_node_sharded distinct facts member).trans ?_
        rw [capacityOf, if_pos (decide_eq_true isCapped)]
        exact Nat.min_le_right _ _
      · rw [per_node_shard_eq]
        refine (List.countP_eq_zero.mpr ?_).le.trans (Nat.zero_le _)
        intro slot inSlots onNode
        obtain ⟨other, member, ofOther⟩ := mem_nodes_of_shardSlot inSlots
        exact known ⟨other, (eligibleNodes_perm.mem_iff.mp member |> List.mem_of_mem_filter),
          ofOther.symm.trans (of_decide_eq_true onNode)⟩

/-- No node is ever planned more sessions than it holds. -/
theorem pass_le (distinct : (nodes.map (·.id)).Nodup) (workspaces : List Workspace) :
    ∀ node ∈ nodes, (pass nodes workspaces).spent.get node.id ≤ node.ceiling := by
  suffices ∀ budget : NodeBudget, (∀ node ∈ nodes, budget.spent.get node.id ≤ node.ceiling) →
      ∀ node ∈ nodes, (workspaces.foldl (fun budget workspace => budget.charge <|
        plan workspace.spec (budget.appliedTo nodes) workspace.checkouts workspace.actual
          workspace.ports .sharded) budget).spent.get node.id ≤ node.ceiling from
    this {} fun _ _ => Nat.zero_le _
  induction workspaces with
  | nil => exact fun budget within => within
  | cons workspace rest ih =>
      intro budget within
      refine ih _ fun node member => ?_
      have applied : { node with reserved := budget.spent.get node.id } ∈
          budget.appliedTo nodes := List.mem_map.mpr ⟨node, member, rfl⟩
      have sameIds : (budget.appliedTo nodes).map (·.id) = nodes.map (·.id) := by
        rw [NodeBudget.appliedTo, List.map_map]
        rfl
      have more : (plan workspace.spec (budget.appliedTo nodes) workspace.checkouts
          workspace.actual workspace.ports .sharded).perNode.get node.id ≤ _ :=
        per_node_sharded (sameIds ▸ distinct)
          { node with reserved := budget.spent.get node.id } applied
      have room : capacityOf (workspace.ports = .undeclared)
          { node with reserved := budget.spent.get node.id } ≤
            node.ceiling - budget.spent.get node.id := by
        rw [capacityOf]
        split
        · exact Nat.min_le_left _ _
        · exact Nat.le_refl _
      have before := within node member
      have after : (budget.charge (plan workspace.spec (budget.appliedTo nodes)
          workspace.checkouts workspace.actual workspace.ports .sharded)).spent.get node.id = _ :=
        Tally.get_merge
      rw [after]
      omega

/-- The plan for the same facts in another order. -/
theorem plan_of_sameFacts {others : List NodeFacts} {moved : List CheckoutSlot}
    {shuffled : List Actual} (same : SameFacts nodes others checkouts moved) :
    placements spec others moved ports spread = placements spec nodes checkouts ports spread ∧
      (plan spec others moved shuffled ports spread).desired =
        (plan spec nodes checkouts actual ports spread).desired ∧
      (plan spec others moved shuffled ports spread).shortfall =
        (plan spec nodes checkouts actual ports spread).shortfall ∧
      (plan spec others moved shuffled ports spread).needsClone =
        (plan spec nodes checkouts actual ports spread).needsClone := by
  have has : hasCheckout checkouts = hasCheckout moved := funext same.hasCheckout
  refine ⟨same.placements.symm, ?_⟩
  cases spread with
  | perCheckout =>
      unfold plan planPerCheckout
      dsimp only
      rw [same.eligibleNodes, same.checkoutSlots, has]
      exact ⟨rfl, rfl, rfl⟩
  | sharded =>
      unfold plan planSharded
      dsimp only
      rw [same.eligibleNodes, same.shardSlots, has]
      exact ⟨rfl, rfl, rfl⟩

end Plans

/-! ### Plans that are carried out -/

section Settling

variable {spec : SessionSpec} {nodes : List NodeFacts} {checkouts : List CheckoutSlot}
  {actual : List Actual} {ports : PortSafety} {fresh : Nat → SessionId}

/-- Under shards, the sessions come to be those that are wanted. -/
theorem occupied_sharded (sessions : (actual.map (·.sessionId)).Nodup)
    (small : (placements spec nodes checkouts ports .sharded).length < 2 ^ 32) :
    ((settle fresh (plan spec nodes checkouts actual ports .sharded) actual).map
      Actual.assignment).Perm
        ((placements spec nodes checkouts ports .sharded).map fun (slot, shard) =>
          (slot.checkoutId, shard)) := by
  set desired := placements spec nodes checkouts ports .sharded with isDesired
  set wanted := desired.map fun (slot, shard) => (slot.checkoutId, shard) with isWanted
  have distinct : wanted.Nodup := shards_distinct (by rwa [isDesired, placements,
    length_withShards] at small)
  obtain ⟨kept, dropped, perm, held, apart, areWanted⟩ := hold_spec wanted actual List.nodup_nil
  rw [List.nil_append] at held apart
  have acts : (plan spec nodes checkouts actual ports .sharded).actions =
      dropped.map stop ++ (desired.filter fun (slot, shard) =>
        (slot.checkoutId, shard) ∉ kept.map Actual.assignment).map
          fun (slot, shard) => start slot shard := by
    change (hold wanted [] actual).2 ++ (desired.filter fun (slot, shard) =>
        (slot.checkoutId, shard) ∉ (hold wanted [] actual).1).map
          (fun (slot, shard) => start slot shard) = _
    rw [held]
  refine (settle_eq fresh sessions perm acts).trans ?_
  have started : (desired.filter fun (slot, shard) =>
      (slot.checkoutId, shard) ∉ kept.map Actual.assignment).map
        (fun (slot, shard) => (slot.checkoutId, shard)) =
      wanted.filter (· ∉ kept.map Actual.assignment) := by
    rw [isWanted, List.filter_map]
    rfl
  rw [started]
  refine perm_wanted distinct apart ?_
  intro item member
  obtain ⟨session, isKept, rfl⟩ := List.mem_map.mp member
  exact areWanted session isKept

/-- Where the sessions are those that are wanted, there is nothing to do. -/
theorem stable_sharded {after : List Actual}
    (distinct : ((placements spec nodes checkouts ports .sharded).map fun (slot, shard) =>
      (slot.checkoutId, shard)).Nodup)
    (occupied : (after.map Actual.assignment).Perm
      ((placements spec nodes checkouts ports .sharded).map fun (slot, shard) =>
        (slot.checkoutId, shard))) :
    (plan spec nodes checkouts after ports .sharded).actions = [] := by
  set desired := placements spec nodes checkouts ports .sharded with isDesired
  set wanted := desired.map fun (slot, shard) => (slot.checkoutId, shard) with isWanted
  have held : hold wanted [] after = ([] ++ after.map Actual.assignment, []) :=
    hold_all (occupied.nodup_iff.mpr distinct) fun session member =>
      occupied.mem_iff.mp (List.mem_map_of_mem member)
  change (hold wanted [] after).2 ++ (desired.filter fun (slot, shard) =>
      (slot.checkoutId, shard) ∉ (hold wanted [] after).1).map
        (fun (slot, shard) => start slot shard) = []
  rw [held, List.nil_append, List.nil_append]
  have none : desired.filter (fun (slot, shard) =>
      (slot.checkoutId, shard) ∉ after.map Actual.assignment) = [] := by
    rw [List.filter_eq_nil_iff]
    intro place member isNew
    refine of_decide_eq_true isNew (occupied.mem_iff.mpr ?_)
    exact List.mem_map_of_mem (f := fun (slot, shard) =>
      ((slot : CheckoutSlot).checkoutId, (shard : ShardAssignment))) member
  rw [none, List.map_nil]

section Checkouts

variable {slots : List CheckoutSlot} {after : List Actual}

/-- What a plan by checkouts does. -/
theorem actions_perCheckout
    (isSlots : slots = checkoutSlots spec (eligibleNodes spec nodes checkouts) checkouts
      (ports = .undeclared)) :
    (plan spec nodes checkouts actual ports .perCheckout).actions =
      (actual.filter fun session => session.checkoutId ∉ slots.map (·.checkoutId)).map stop ++
        ((slots.filter fun slot => slot.checkoutId ∉ (actual.map (·.checkoutId)).filter
          (· ∈ slots.map (·.checkoutId))).map fun slot => (slot, ShardAssignment.solo)).map
            fun (slot, shard) => start slot shard := by
  rw [List.map_map, isSlots]
  rfl

/-- Once it has been carried out, there are the sessions of slots and new ones for the
slots without one. -/
theorem settled_perCheckout (sessions : (actual.map (·.sessionId)).Nodup)
    (isSlots : slots = checkoutSlots spec (eligibleNodes spec nodes checkouts) checkouts
      (ports = .undeclared)) :
    ((settle fresh (plan spec nodes checkouts actual ports .perCheckout) actual).map
      (·.checkoutId)).Perm
        ((actual.map (·.checkoutId)).filter (· ∈ slots.map (·.checkoutId)) ++
          (slots.map (·.checkoutId)).filter
            (· ∉ (actual.map (·.checkoutId)).filter (· ∈ slots.map (·.checkoutId)))) := by
  have perm : actual.Perm
      (actual.filter (fun session => session.checkoutId ∈ slots.map (·.checkoutId)) ++
        actual.filter fun session => session.checkoutId ∉ slots.map (·.checkoutId)) := by
    have parts := (List.filter_append_perm (fun session : Actual =>
      decide (session.checkoutId ∈ slots.map (·.checkoutId))) actual).symm
    simpa only [decide_not] using parts
  have settled := (settle_eq fresh sessions perm (actions_perCheckout isSlots)).map Prod.fst
  rw [List.map_append, List.map_map, List.map_map, List.map_map, List.map_map] at settled
  refine settled.trans (.of_eq ?_)
  rw [List.filter_map, List.filter_map]
  rfl

theorem occupied_perCheckout (known : (checkouts.map (·.checkoutId)).Nodup)
    (sessions : (actual.map (·.sessionId)).Nodup) (single : (actual.map (·.checkoutId)).Nodup) :
    ((settle fresh (plan spec nodes checkouts actual ports .perCheckout) actual).map
      (·.checkoutId)).Perm
        ((placements spec nodes checkouts ports .perCheckout).map fun (slot, _) =>
          slot.checkoutId) := by
  have asPlaces : (placements spec nodes checkouts ports .perCheckout).map
      (fun (slot, _) => slot.checkoutId) =
        (checkoutSlots spec (eligibleNodes spec nodes checkouts) checkouts
          (ports = .undeclared)).map (·.checkoutId) := by
    change (List.map _ _).map _ = _
    rw [List.map_map]
    rfl
  rw [asPlaces]
  refine (settled_perCheckout sessions rfl).trans ?_
  refine perm_wanted (checkoutSlots_distinct known) (single.sublist List.filter_sublist) ?_
  exact fun item member => of_decide_eq_true (List.mem_filter.mp member).2

/-- Where the sessions are in slots and every slot has one, there is nothing to do. -/
theorem stable_perCheckout
    (isSlots : slots = checkoutSlots spec (eligibleNodes spec nodes checkouts) checkouts
      (ports = .undeclared))
    (inSlots : ∀ checkout, checkout ∈ after.map (·.checkoutId) ↔
      checkout ∈ slots.map (·.checkoutId)) :
    (plan spec nodes checkouts after ports .perCheckout).actions = [] := by
  rw [actions_perCheckout isSlots]
  have noStops : after.filter (fun session =>
      session.checkoutId ∉ slots.map (·.checkoutId)) = [] :=
    List.filter_eq_nil_iff.mpr fun session member isOut =>
      of_decide_eq_true isOut ((inSlots _).mp (List.mem_map_of_mem member))
  have noStarts : slots.filter (fun slot => slot.checkoutId ∉
      (after.map (·.checkoutId)).filter (· ∈ slots.map (·.checkoutId))) = [] := by
    rw [List.filter_eq_nil_iff]
    intro slot member isNew
    have isSlot : slot.checkoutId ∈ slots.map (·.checkoutId) := List.mem_map_of_mem member
    exact of_decide_eq_true isNew
      (List.mem_filter.mpr ⟨(inSlots _).mpr isSlot, decide_eq_true isSlot⟩)
  rw [noStops, noStarts]
  rfl

end Checkouts

theorem stable_after_perCheckout (sessions : (actual.map (·.sessionId)).Nodup) :
    (plan spec nodes checkouts
      (settle fresh (plan spec nodes checkouts actual ports .perCheckout) actual) ports
        .perCheckout).actions = [] := by
  refine stable_perCheckout rfl fun checkout => ?_
  rw [(settled_perCheckout sessions rfl).mem_iff, List.mem_append, List.mem_filter,
    List.mem_filter, decide_eq_true_eq, decide_eq_true_eq]
  constructor
  · rintro (⟨-, isSlot⟩ | ⟨isSlot, -⟩) <;> exact isSlot
  · intro isSlot
    by_cases isHeld : checkout ∈ (actual.map (·.checkoutId)).filter (· ∈ (checkoutSlots spec
        (eligibleNodes spec nodes checkouts) checkouts (ports = .undeclared)).map (·.checkoutId))
    · exact .inl ⟨(List.mem_filter.mp isHeld).1, isSlot⟩
    · exact .inr ⟨isSlot, isHeld⟩

end Settling

/-! ### Exactness -/

section Exactness

variable {spec : SessionSpec} {nodes : List NodeFacts} {checkouts : List CheckoutSlot}
  {actual : List Actual} {ports : PortSafety} {spread : Spread}

theorem length_placements_sharded :
    (placements spec nodes checkouts ports .sharded).length =
      min (targetSessions spec (eligibleNodes spec nodes checkouts) (ports = .undeclared))
        (roomOf (eligibleNodes spec nodes checkouts) checkouts (ports = .undeclared)) :=
  length_withShards.trans (length_shardSlots spec _ (eligibleNodes_sorted ..))

theorem shards_iff :
    (placements spec nodes checkouts ports .sharded).map
        (fun (_, shard) => (shard.index.toNat, shard.of.toNat)) =
      (List.range (plan spec nodes checkouts actual ports .sharded).placed).map
        (fun index => (index, (plan spec nodes checkouts actual ports .sharded).placed)) ↔
      min (targetSessions spec (eligibleNodes spec nodes checkouts) (ports = .undeclared))
        (roomOf (eligibleNodes spec nodes checkouts) checkouts (ports = .undeclared)) < 2 ^ 32 := by
  have same : (placements spec nodes checkouts ports .sharded).length =
      (shardSlots spec (eligibleNodes spec nodes checkouts) checkouts
        (ports = .undeclared)).length := length_withShards
  rw [placed_eq, ← length_placements_sharded, same]
  exact shards_withShards

/-- A plan whose shards are numbers of their width is exact. -/
theorem Exact.of_small (nodesDistinct : (nodes.map (·.id)).Nodup)
    (checkoutsDistinct : (checkouts.map (·.checkoutId)).Nodup)
    (sessionsDistinct : (actual.map (·.sessionId)).Nodup)
    (small : spread = .sharded →
      min (targetSessions spec (eligibleNodes spec nodes checkouts) (ports = .undeclared))
        (roomOf (eligibleNodes spec nodes checkouts) checkouts (ports = .undeclared)) < 2 ^ 32) :
    Exact spec nodes checkouts actual ports spread where
  conserved := placed_add_shortfall
  counted := total_per_node
  occupied fresh := by
    cases spread with
    | perCheckout => exact occupied_perCheckout checkoutsDistinct sessionsDistinct
    | sharded =>
        exact occupied_sharded sessionsDistinct (length_placements_sharded ▸ small rfl)
  stable fresh := by
    cases spread with
    | perCheckout => exact stable_after_perCheckout sessionsDistinct
    | sharded =>
        have within := length_placements_sharded ▸ small rfl
        have distinct := shards_distinct (by rwa [placements, length_withShards] at within)
        exact stable_sharded distinct (occupied_sharded sessionsDistinct within)
  ordered others moved shuffled nodesPerm checkoutsPerm _ :=
    plan_of_sameFacts ⟨nodesPerm, checkoutsPerm, nodesDistinct, checkoutsDistinct⟩
  capped := capped_le_one nodesDistinct
  sharded := by
    rintro rfl
    exact ⟨shards_iff.mpr (small rfl), placed_eq.trans length_placements_sharded⟩
  bounded := pass_le nodesDistinct

/-- A plan is exact and stable exactly where the number of its shards, if it has any, is
a number of their width. -/
theorem plan_exact_iff (nodesDistinct : (nodes.map (·.id)).Nodup)
    (checkoutsDistinct : (checkouts.map (·.checkoutId)).Nodup)
    (sessionsDistinct : (actual.map (·.sessionId)).Nodup) :
    Exact spec nodes checkouts actual ports spread ↔ (spread = .sharded →
      min (targetSessions spec (eligibleNodes spec nodes checkouts) (ports = .undeclared))
        (roomOf (eligibleNodes spec nodes checkouts) checkouts (ports = .undeclared)) <
          2 ^ 32) := by
  constructor
  · intro holds
    rintro rfl
    exact shards_iff.mp (holds.sharded rfl).1
  · exact Exact.of_small nodesDistinct checkoutsDistinct sessionsDistinct

/-- A declaration that any online node meets. -/
def anywhere (replicas : Replicas) : SessionSpec :=
  { runtime := "claude", nodeSelector := [], tolerations := [], replicas := replicas }

/-- An online node that nothing keeps a session from. -/
def openNode (id : NodeId) (maxLoopJobs : Option UInt32) (reserved : Nat) : NodeFacts :=
  { id := id, online := true, labels := [], taints := [], runtimes := []
    maxLoopJobs := maxLoopJobs, reserved := reserved }

/-- Two nodes, of which one has a session of an old divisor. -/
theorem plan_exact_iff_twoNodes :
    Exact (anywhere (.count 3)) [openNode 2 (some 3) 1, openNode 1 none 0]
      [{ checkoutId := 7, nodeId := 2, path := "/b" },
       { checkoutId := 5, nodeId := 1, path := "/a" }]
      [{ sessionId := 9, checkoutId := 7, nodeId := 2, shard := { index := 1, of := 2 } }]
      .declared .sharded :=
  (plan_exact_iff (by decide) (by decide) (by decide)).mpr fun _ => by decide

/-- All places of two nodes that together hold more sessions than the divisor can
count. -/
theorem plan_wraps :
    ¬ Exact (anywhere .all) [openNode 1 (some 2147483648) 0, openNode 2 (some 2147483648) 0]
      [{ checkoutId := 1, nodeId := 1, path := "/a" },
       { checkoutId := 2, nodeId := 2, path := "/b" }]
      [] .declared .sharded := by
  intro holds
  have small := shards_iff.mp (holds.sharded rfl).1
  revert small
  decide

end Exactness

end NookOs.Sessions
