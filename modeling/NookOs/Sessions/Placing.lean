/-
Module: NookOs.Sessions.Placing
Purpose: Where a plan places the sessions of a workspace: how many places there are, how
  many of them are on one node, and that they do not depend on the order of the facts.
Trusted boundary: none
Main exports: eligibleNodes_perm, length_shardSlots, SameFacts, SameFacts.placements
-/
import NookOs.Sessions.Planner

namespace NookOs.Sessions

open Lib Lib.Dealing

/-! ### The nodes in order -/

section Ordering

variable {checkouts : List CheckoutSlot} {first second third : NodeFacts}

instance : Std.Total (SortsBefore checkouts) where
  total first second := by
    unfold SortsBefore
    by_cases same : hasCheckout checkouts first.id = hasCheckout checkouts second.id
    · rw [if_pos same, if_pos same.symm]
      exact Nat.le_total _ _
    · rw [if_neg same, if_neg (Ne.symm same)]
      cases has : hasCheckout checkouts first.id with
      | true => exact .inl rfl
      | false =>
          rw [has] at same
          exact .inr (Bool.eq_true_of_not_eq_false (Ne.symm same))

instance : IsTrans NodeFacts (SortsBefore checkouts) where
  trans first second third := by
    unfold SortsBefore
    intro before after
    by_cases same : hasCheckout checkouts first.id = hasCheckout checkouts second.id
    · rw [if_pos same] at before
      rw [same]
      by_cases next : hasCheckout checkouts second.id = hasCheckout checkouts third.id
      · rw [if_pos next] at after ⊢
        exact before.trans after
      · rw [if_neg next] at after ⊢
        exact after
    · rw [if_neg same] at before
      by_cases next : hasCheckout checkouts second.id = hasCheckout checkouts third.id
      · rw [← next, if_neg same]
        exact before
      · rw [if_neg next] at after
        exact absurd (before.trans after.symm) same

/-- Two nodes that sort before each other have one id. -/
theorem SortsBefore.antisymm (before : SortsBefore checkouts first second)
    (after : SortsBefore checkouts second first) : first.id = second.id := by
  unfold SortsBefore at before after
  by_cases same : hasCheckout checkouts first.id = hasCheckout checkouts second.id
  · rw [if_pos same] at before
    rw [if_pos same.symm] at after
    exact Nat.le_antisymm before after
  · rw [if_neg same] at before
    rw [if_neg (Ne.symm same)] at after
    exact absurd (before.trans after.symm) same

/-- Where holders sort first, they stand before all others. -/
theorem holders_first {nodes : List NodeFacts} (sorted : nodes.Pairwise (SortsBefore checkouts)) :
    nodes = nodes.filter (fun node => hasCheckout checkouts node.id) ++
      nodes.filter fun node => !hasCheckout checkouts node.id := by
  induction nodes with
  | nil => rfl
  | cons node rest ih =>
      obtain ⟨before, restSorted⟩ := List.pairwise_cons.mp sorted
      cases has : hasCheckout checkouts node.id with
      | true =>
          have kept : (node :: rest).filter (fun node => hasCheckout checkouts node.id) =
              node :: rest.filter fun node => hasCheckout checkouts node.id :=
            List.filter_cons_of_pos has
          have left : (node :: rest).filter (fun node => !hasCheckout checkouts node.id) =
              rest.filter fun node => !hasCheckout checkouts node.id :=
            List.filter_cons_of_neg (by simp [has])
          rw [kept, left, List.cons_append, ← ih restSorted]
      | false =>
          have none : ∀ other ∈ rest, hasCheckout checkouts other.id = false := by
            intro other member
            have sorts := before other member
            unfold SortsBefore at sorts
            rw [has] at sorts
            by_contra holds
            rw [if_neg (Ne.symm holds)] at sorts
            cases sorts
          have noHolder :
              (node :: rest).filter (fun node => hasCheckout checkouts node.id) = [] := by
            rw [List.filter_eq_nil_iff]
            rintro other (_ | ⟨_, member⟩)
            · simp [has]
            · simp [none other member]
          have all : (node :: rest).filter (fun node => !hasCheckout checkouts node.id) =
              node :: rest := by
            rw [List.filter_eq_self]
            rintro other (_ | ⟨_, member⟩)
            · simp [has]
            · simp [none other member]
          rw [noHolder, all, List.nil_append]

theorem eligibleNodes_sorted (spec : SessionSpec) (nodes : List NodeFacts)
    (checkouts : List CheckoutSlot) :
    (eligibleNodes spec nodes checkouts).Pairwise (SortsBefore checkouts) :=
  List.pairwise_insertionSort _ _

theorem eligibleNodes_perm {spec : SessionSpec} {nodes : List NodeFacts}
    {checkouts : List CheckoutSlot} :
    (eligibleNodes spec nodes checkouts).Perm (nodes.filter (eligible spec)) :=
  List.perm_insertionSort _ _

theorem eligibleNodes_distinct (spec : SessionSpec) (checkouts : List CheckoutSlot)
    {nodes : List NodeFacts} (distinct : (nodes.map (·.id)).Nodup) :
    ((eligibleNodes spec nodes checkouts).map (·.id)).Nodup :=
  (eligibleNodes_perm.map _).nodup_iff.mpr <|
    distinct.sublist (List.filter_sublist.map _)

end Ordering

/-! ### The places of a sharded workspace -/

section Sharded

variable {spec : SessionSpec} {nodes : List NodeFacts} {checkouts : List CheckoutSlot}
  {capped : Bool} {node : NodeFacts} {host : SessionHost}

theorem byId_sorted :
    (byId checkouts).Pairwise fun first second => first.checkoutId ≤ second.checkoutId := by
  have total : Std.Total fun first second : CheckoutSlot =>
      first.checkoutId ≤ second.checkoutId := ⟨fun _ _ => Nat.le_total _ _⟩
  have trans : IsTrans CheckoutSlot fun first second =>
      first.checkoutId ≤ second.checkoutId := ⟨fun _ _ _ => Nat.le_trans⟩
  exact List.pairwise_insertionSort _ checkouts

theorem mem_byId {slot : CheckoutSlot} : slot ∈ byId checkouts ↔ slot ∈ checkouts :=
  (List.perm_insertionSort _ _).mem_iff

/-- A host is a node with a checkout and has only its own. -/
theorem hostOf_some (found : hostOf checkouts node = some host) :
    host.node = node ∧
      ∀ slot ∈ host.first :: host.others, slot ∈ checkouts ∧ slot.nodeId = node.id := by
  unfold hostOf at found
  split at found
  · cases found
  · next first others same =>
      cases found
      refine ⟨rfl, fun slot member => ?_⟩
      rw [← same, mem_byId, List.mem_filter, decide_eq_true_eq] at member
      exact member

theorem hostOf_isSome : (hostOf checkouts node).isSome = hasCheckout checkouts node.id := by
  unfold hostOf hasCheckout
  split
  · next none =>
      have nothing : checkouts.filter (fun checkout => checkout.nodeId = node.id) = [] :=
        List.eq_nil_iff_forall_not_mem.mpr fun slot member =>
          List.not_mem_nil (none ▸ mem_byId.mpr member)
      rw [List.filter_eq_nil_iff] at nothing
      symm
      rw [Option.isSome_none, List.any_eq_false]
      exact nothing
  · next first others same =>
      have member := mem_byId.mp (same ▸ List.mem_cons_self)
      rw [List.mem_filter] at member
      symm
      rw [Option.isSome_some, List.any_eq_true]
      exact ⟨first, member⟩

/-- The room of the hosts among some nodes is that of those with a checkout. -/
theorem map_filterMap_hostOf {Amount : Type*} (amount : NodeFacts → Amount)
    (nodes : List NodeFacts) :
    (nodes.filterMap (hostOf checkouts)).map (fun host => amount host.node) =
      (nodes.filter fun node => hasCheckout checkouts node.id).map amount := by
  induction nodes with
  | nil => rfl
  | cons node rest ih =>
      have holds : (hostOf checkouts node).isSome = hasCheckout checkouts node.id := hostOf_isSome
      rw [List.filterMap_cons, List.filter_cons]
      cases found : hostOf checkouts node with
      | none =>
          rw [found, Option.isSome_none] at holds
          rw [← holds]
          exact ih
      | some host =>
          rw [found, Option.isSome_some] at holds
          rw [← holds, if_pos rfl, List.map_cons, List.map_cons, ih,
            (hostOf_some found).1]

/-- A host gives its own checkouts. -/
theorem give_mem (host : SessionHost) (round : Nat) :
    host.give round ∈ host.first :: host.others := by
  have short : round % (host.first :: host.others).length < (host.first :: host.others).length :=
    Nat.mod_lt _ (Nat.succ_pos _)
  rw [SessionHost.give, List.getD_eq_getElem?_getD, List.getElem?_eq_getElem short]
  exact List.getElem_mem short

theorem mem_sessionHosts (member : host ∈ sessionHosts spec nodes checkouts capped) :
    host.node ∈ involvedNodes spec nodes capped ∧
      ∀ slot ∈ host.first :: host.others, slot ∈ checkouts ∧ slot.nodeId = host.node.id := by
  obtain ⟨node, involved, found⟩ := List.mem_filterMap.mp member
  obtain ⟨rfl, own⟩ := hostOf_some found
  exact ⟨involved, own⟩

/-- A place is a checkout of a node that is involved. -/
theorem mem_shardSlots {slot : CheckoutSlot}
    (member : slot ∈ shardSlots spec nodes checkouts capped) :
    slot ∈ checkouts ∧ ∃ node ∈ involvedNodes spec nodes capped, slot.nodeId = node.id := by
  obtain ⟨host, isHost, round, -, rfl⟩ := mem_deal member
  obtain ⟨involved, own⟩ := mem_sessionHosts isHost
  obtain ⟨known, ofNode⟩ := own _ (give_mem host round)
  exact ⟨known, host.node, involved, ofNode⟩

/-- What eligible nodes with a checkout may hold of this workspace. -/
def roomOf (nodes : List NodeFacts) (checkouts : List CheckoutSlot) (capped : Bool) : Nat :=
  ((nodes.filter fun node => hasCheckout checkouts node.id).map (capacityOf capped)).sum

/-- As many places are dealt as the target and the nodes with a checkout allow. -/
theorem length_shardSlots (spec : SessionSpec) (capped : Bool)
    (sorted : nodes.Pairwise (SortsBefore checkouts)) :
    (shardSlots spec nodes checkouts capped).length =
      min (targetSessions spec nodes capped) (roomOf nodes checkouts capped) := by
  have dealt := length_deal (fun host : SessionHost => capacityOf capped host.node)
    SessionHost.give (targetSessions spec nodes capped)
    (sessionHosts spec nodes checkouts capped)
  rw [shardSlots, dealt, sessionHosts, map_filterMap_hostOf]
  have parts := holders_first sorted
  generalize isTarget : targetSessions spec nodes capped = target
  -- only nodes with a checkout count, and they are walked first
  have holders : ((involvedNodes spec nodes capped).filter
      fun node => hasCheckout checkouts node.id) =
        cover (capacityOf capped) target 0
          (nodes.filter fun node => hasCheckout checkouts node.id) := by
    rw [involvedNodes, isTarget]
    conv_lhs => rw [parts, cover_append]
    rw [List.filter_append]
    have allHold : (cover (capacityOf capped) target 0
        (nodes.filter fun node => hasCheckout checkouts node.id)).filter
          (fun node => hasCheckout checkouts node.id) = _ :=
      List.filter_eq_self.mpr fun node member =>
        (List.mem_filter.mp ((cover_isPrefix ..).subset member)).2
    have noneHolds (covered : Nat) : (cover (capacityOf capped) target covered
        (nodes.filter fun node => !hasCheckout checkouts node.id)).filter
          (fun node => hasCheckout checkouts node.id) = [] :=
      List.filter_eq_nil_iff.mpr fun node member holds => by
        have others := (List.mem_filter.mp ((cover_isPrefix ..).subset member)).2
        rw [holds] at others
        cases others
    rw [allHold, noneHolds, List.append_nil]
  rw [holders, roomOf]
  rcases cover_eq_or_covers (capacityOf capped) target 0
    (nodes.filter fun node => hasCheckout checkouts node.id) with all | reached
  · rw [all]
  · have fewer := (cover_isPrefix (capacityOf capped) target 0
      (nodes.filter fun node => hasCheckout checkouts node.id)).sublist.map (capacityOf capped)
    have atMost := fewer.sum_le_sum fun _ _ => Nat.zero_le _
    omega

/-- The places on one node are within what it may hold. -/
theorem countP_shardSlots (distinct : (nodes.map (·.id)).Nodup) (member : node ∈ nodes) :
    (shardSlots spec nodes checkouts capped).countP (fun slot => slot.nodeId = node.id) ≤
      capacityOf capped node := by
  have gives : ∀ host ∈ sessionHosts spec nodes checkouts capped, ∀ round,
      decide ((host.give round).nodeId = node.id) = decide (host.node.id = node.id) := by
    intro host isHost round
    rw [((mem_sessionHosts isHost).2 _ (give_mem host round)).2]
  refine (countP_deal_le gives).trans ?_
  -- at most one host is the node
  have hostNodes : ((sessionHosts spec nodes checkouts capped).map fun host => host.node).Sublist
      nodes := by
    rw [sessionHosts, map_filterMap_hostOf fun node => node, List.map_id']
    exact List.filter_sublist.trans (cover_isPrefix ..).sublist
  have only : (((sessionHosts spec nodes checkouts capped).filter
      fun host => host.node.id = node.id).map fun host => host.node).Sublist
        (nodes.filter fun other => other.id = node.id) := by
    have filtered := hostNodes.filter fun other => other.id = node.id
    rwa [List.filter_map] at filtered
  have single : nodes.filter (fun other => other.id = node.id) = [node] := by
    have once : (nodes.map (·.id)).count node.id = 1 :=
      List.count_eq_one_of_mem distinct (List.mem_map_of_mem member)
    rw [List.count, List.countP_map, List.countP_eq_length_filter] at once
    obtain ⟨found, isFound⟩ := List.length_eq_one_iff.mp once
    have asFilter : nodes.filter (fun other => other.id = node.id) = [found] := isFound
    have isIn : node ∈ [found] := asFilter ▸ List.mem_filter.mpr ⟨member, decide_eq_true rfl⟩
    rw [asFilter, List.mem_singleton.mp isIn]
  rw [single] at only
  have bound := (only.map (capacityOf capped)).sum_le_sum fun _ _ => Nat.zero_le _
  simpa [List.map_map, Function.comp_def] using bound

end Sharded

/-! ### The shards that are handed out -/

section Shards

variable {slots : List CheckoutSlot}

@[simp] theorem length_withShards : (withShards slots).length = slots.length := by
  rw [withShards, List.length_map, List.length_zipIdx]

@[simp] theorem map_fst_withShards (slots : List CheckoutSlot) :
    (withShards slots).map Prod.fst = slots := by
  rw [withShards, List.map_map]
  exact List.zipIdx_map_fst 0 slots

theorem shards_eq :
    (withShards slots).map (fun (_, shard) => (shard.index.toNat, shard.of.toNat)) =
    (List.range slots.length).map fun index =>
      (index % 2 ^ 32, max slots.length 1 % 2 ^ 32) := by
  rw [withShards, List.map_map, List.range_eq_range', ← List.zipIdx_map_snd 0 slots, List.map_map]
  exact List.map_congr_left fun _ _ => rfl

/-- The shards are those of the number of places where that is a number of the width. -/
theorem shards_withShards :
    (withShards slots).map (fun (_, shard) => (shard.index.toNat, shard.of.toNat)) =
      (List.range slots.length).map (fun index => (index, slots.length)) ↔
        slots.length < 2 ^ 32 := by
  rw [shards_eq]
  constructor
  · intro same
    by_contra large
    have first := List.map_inj_left.mp same 0 (List.mem_range.mpr (by omega))
    have divisor := congrArg Prod.snd first
    dsimp only at divisor
    omega
  · intro small
    apply List.map_congr_left
    intro index member
    rw [List.mem_range] at member
    rw [Nat.mod_eq_of_lt (by omega), Nat.mod_eq_of_lt (by omega), Nat.max_eq_left (by omega)]

/-- No two places are handed the same shard. -/
theorem shards_distinct (small : slots.length < 2 ^ 32) :
    ((withShards slots).map fun (slot, shard) => (slot.checkoutId, shard)).Nodup := by
  have indices : (((withShards slots).map fun (slot, shard) => (slot.checkoutId, shard)).map
      fun (_, shard) => shard.index.toNat) = List.range slots.length := by
    have same := congrArg (List.map Prod.fst) (shards_withShards.mpr small)
    rw [List.map_map, List.map_map] at same
    rw [List.map_map]
    refine same.trans ?_
    exact List.map_id _
  refine List.Nodup.of_map (fun (_, shard) => shard.index.toNat) ?_
  rw [indices]
  exact List.nodup_range

end Shards

/-! ### The places in each checkout -/

section Checkouts

variable {spec : SessionSpec} {nodes : List NodeFacts} {checkouts slots : List CheckoutSlot}
  {seen : List NodeId} {capped : Bool}

theorem firstPerNode_sublist : (firstPerNode seen slots).Sublist slots := by
  induction slots generalizing seen with
  | nil => exact List.Sublist.refl _
  | cons slot rest ih =>
      rw [firstPerNode]
      split
      · exact ih.cons slot
      · exact ih.cons_cons slot

/-- No node comes twice, and none that has been seen. -/
theorem firstPerNode_distinct (seen : List NodeId) (slots : List CheckoutSlot) :
    ((firstPerNode seen slots).map (·.nodeId)).Nodup ∧
      ∀ slot ∈ firstPerNode seen slots, slot.nodeId ∉ seen := by
  induction slots generalizing seen with
  | nil => exact ⟨List.nodup_nil, nofun⟩
  | cons slot rest ih =>
      rw [firstPerNode]
      split
      · exact ih seen
      · next unseen =>
          obtain ⟨distinct, apart⟩ := ih (seen ++ [slot.nodeId])
          refine ⟨List.nodup_cons.mpr ⟨?_, distinct⟩, ?_⟩
          · intro found
            obtain ⟨other, member, same⟩ := List.mem_map.mp found
            exact apart other member (same ▸ List.mem_append_right seen List.mem_cons_self)
          · rintro other (_ | ⟨_, member⟩)
            · exact unseen
            · exact fun inSeen => apart other member (List.mem_append_left _ inSeen)

/-- A node with a slot keeps one. -/
theorem exists_firstPerNode {slot : CheckoutSlot} (member : slot ∈ slots)
    (unseen : slot.nodeId ∉ seen) :
    ∃ other ∈ firstPerNode seen slots, other.nodeId = slot.nodeId := by
  induction slots generalizing seen with
  | nil => cases member
  | cons first rest ih =>
      rw [firstPerNode]
      by_cases same : first.nodeId = slot.nodeId
      · rw [if_neg (same ▸ unseen)]
        exact ⟨first, List.mem_cons_self, same⟩
      · have inRest : slot ∈ rest :=
          (List.mem_cons.mp member).resolve_left fun isFirst => same (isFirst ▸ rfl)
        split
        · exact ih inRest unseen
        · have stillUnseen : slot.nodeId ∉ seen ++ [first.nodeId] := by
            simp [unseen, Ne.symm same]
          obtain ⟨other, found, ofNode⟩ := ih inRest stillUnseen
          exact ⟨other, List.mem_cons_of_mem first found, ofNode⟩

theorem checkoutSlots_sublist :
    (checkoutSlots spec nodes checkouts capped).Sublist
      (byId (checkouts.filter fun checkout => checkout.nodeId ∈ chosenNodes spec nodes)) := by
  rw [checkoutSlots]
  split
  · exact firstPerNode_sublist
  · exact List.Sublist.refl _

theorem checkoutSlots_distinct (distinct : (checkouts.map (·.checkoutId)).Nodup) :
    ((checkoutSlots spec nodes checkouts capped).map (·.checkoutId)).Nodup := by
  refine List.Nodup.sublist (checkoutSlots_sublist.map _) ?_
  refine ((List.perm_insertionSort _ _).map _).nodup_iff.mpr ?_
  exact distinct.sublist (List.filter_sublist.map _)

end Checkouts

/-! ### The order of the facts -/

section Order

/-- The same nodes and checkouts in another order. -/
structure SameFacts (nodes others : List NodeFacts) (checkouts moved : List CheckoutSlot) :
    Prop where
  nodes_perm : nodes.Perm others
  checkouts_perm : checkouts.Perm moved
  nodes_distinct : (nodes.map (·.id)).Nodup
  checkouts_distinct : (checkouts.map (·.checkoutId)).Nodup

variable {spec : SessionSpec} {nodes others : List NodeFacts}
  {checkouts moved : List CheckoutSlot} {ports : PortSafety} {spread : Spread} {capped : Bool}

namespace SameFacts

theorem hasCheckout (same : SameFacts nodes others checkouts moved) (node : NodeId) :
    hasCheckout checkouts node = Sessions.hasCheckout moved node :=
  same.checkouts_perm.any_eq

theorem eligibleNodes (same : SameFacts nodes others checkouts moved) :
    eligibleNodes spec nodes checkouts = Sessions.eligibleNodes spec others moved := by
  have alike : ∀ first second, SortsBefore moved first second →
      SortsBefore checkouts first second := by
    intro first second before
    unfold SortsBefore at before ⊢
    rwa [same.hasCheckout, same.hasCheckout]
  have perm : (Sessions.eligibleNodes spec nodes checkouts).Perm
      (Sessions.eligibleNodes spec others moved) :=
    eligibleNodes_perm.trans ((same.nodes_perm.filter _).trans eligibleNodes_perm.symm)
  refine perm.eq_of_pairwise ?_ (eligibleNodes_sorted ..)
    ((eligibleNodes_sorted ..).imp fun {first second} => alike first second)
  intro first second isFirst isSecond before after
  have distinct := eligibleNodes_distinct spec checkouts same.nodes_distinct
  exact List.inj_on_of_nodup_map distinct isFirst (perm.mem_iff.mpr isSecond)
    (before.antisymm after)

theorem byId (same : SameFacts nodes others checkouts moved) (keep : CheckoutSlot → Bool) :
    byId (checkouts.filter keep) = Sessions.byId (moved.filter keep) := by
  have perm : (Sessions.byId (checkouts.filter keep)).Perm (Sessions.byId (moved.filter keep)) :=
    (List.perm_insertionSort _ _).trans
      ((same.checkouts_perm.filter keep).trans (List.perm_insertionSort _ _).symm)
  refine perm.eq_of_pairwise ?_ byId_sorted byId_sorted
  intro first second isFirst isSecond before after
  have known {slot : CheckoutSlot} (member : slot ∈ Sessions.byId (checkouts.filter keep)) :
      slot ∈ checkouts :=
    List.mem_of_mem_filter ((List.perm_insertionSort _ _).mem_iff.mp member)
  exact List.inj_on_of_nodup_map same.checkouts_distinct (known isFirst)
    (known (perm.mem_iff.mpr isSecond)) (Nat.le_antisymm before after)

theorem shardSlots (same : SameFacts nodes others checkouts moved) (chosen : List NodeFacts) :
    shardSlots spec chosen checkouts capped = Sessions.shardSlots spec chosen moved capped := by
  have hosts : hostOf checkouts = hostOf moved := by
    funext node
    unfold hostOf
    rw [same.byId]
  rw [Sessions.shardSlots, sessionHosts, hosts]
  rfl

theorem checkoutSlots (same : SameFacts nodes others checkouts moved) (chosen : List NodeFacts) :
    checkoutSlots spec chosen checkouts capped =
      Sessions.checkoutSlots spec chosen moved capped := by
  rw [Sessions.checkoutSlots, same.byId]
  rfl

theorem placements (same : SameFacts nodes others checkouts moved) :
    placements spec nodes checkouts ports spread =
      Sessions.placements spec others moved ports spread := by
  unfold Sessions.placements
  dsimp only
  rw [same.eligibleNodes]
  cases spread with
  | perCheckout => dsimp only; rw [same.checkoutSlots]
  | sharded => dsimp only; rw [same.shardSlots]

end SameFacts

end Order

end NookOs.Sessions
