/-
Module: NookOs.Sessions.Cloning
Purpose: What becomes of a plan once the nodes that it asked to clone have done so: the
  next plan asks for no clone, places what the fleet holds, and places a session on each
  of these nodes exactly where none of them is full.
Trusted boundary: none
Main exports: Cloned, Converges, ReachesRoom, before_of_cloned, cloning_converges_iff
-/
import NookOs.Sessions.Exactness

namespace NookOs.Sessions

open Lib Lib.Dealing

section Properties

variable (spec : SessionSpec) (nodes : List NodeFacts) (checkouts : List CheckoutSlot)
  (actual : List Actual) (ports : PortSafety) (spread : Spread)

/-- The nodes that are asked to clone. -/
def asked : List NodeId := (plan spec nodes checkouts actual ports spread).needsClone

/-- Each node that is asked to clone receives a checkout with an id of its own. -/
structure Cloned (clones moved : List CheckoutSlot) : Prop where
  everyNode : (clones.map (·.nodeId)).Perm (asked spec nodes checkouts actual ports spread)
  arrived : moved.Perm (checkouts ++ clones)
  distinct : (moved.map (·.checkoutId)).Nodup

/-- What the next plan places: all that the target and the fleet allow, or the slots of
all replicas but those without an eligible node. -/
def Placed (second : Plan) : Prop :=
  match spread with
  | .perCheckout =>
      second.shortfall = targetNodes spec (nodes.filter (eligible spec)) -
        (nodes.filter (eligible spec)).length
  | .sharded =>
      second.placed =
        min (targetSessions spec (nodes.filter (eligible spec)) (ports = .undeclared))
          ((nodes.filter (eligible spec)).map (capacityOf (ports = .undeclared))).sum

/-- The next plan asks for no clone, places what it can, and has a session on each node
that was asked to clone. -/
structure Converges (second : Plan) : Prop where
  nothingAsked : second.needsClone = []
  placed : Placed spec nodes ports spread second
  hosted : ∀ node ∈ asked spec nodes checkouts actual ports spread, 1 ≤ second.perNode.get node

/-- A node without a checkout and without room comes after the target is covered. -/
def ReachesRoom : Prop :=
  spread = .sharded → ∀ front node back,
    eligibleNodes spec nodes checkouts = front ++ node :: back →
      hasCheckout checkouts node.id = false → capacityOf (ports = .undeclared) node = 0 →
        targetSessions spec (nodes.filter (eligible spec)) (ports = .undeclared) ≤
          (front.map (capacityOf (ports = .undeclared))).sum

end Properties

variable {node : NodeFacts}

section Second

variable {spec : SessionSpec} {nodes : List NodeFacts} {checkouts clones moved : List CheckoutSlot}
  {actual later : List Actual} {ports : PortSafety} {spread : Spread}

/-- A node has a checkout once it had one or was asked to clone. -/
theorem hasCheckout_iff (cloned : Cloned spec nodes checkouts actual ports spread clones moved)
    {node : NodeId} : hasCheckout moved node = true ↔
      hasCheckout checkouts node = true ∨
        node ∈ asked spec nodes checkouts actual ports spread := by
  have arrived : hasCheckout moved node = hasCheckout (checkouts ++ clones) node :=
    cloned.arrived.any_eq
  rw [arrived, hasCheckout, List.any_append, Bool.or_eq_true, ← cloned.everyNode.mem_iff]
  refine or_congr Iff.rfl ?_
  rw [List.any_eq_true, List.mem_map]
  simp only [decide_eq_true_eq]

theorem eligibleNodes_moved (spec : SessionSpec) (nodes : List NodeFacts)
    (checkouts moved : List CheckoutSlot) : (eligibleNodes spec nodes moved).Perm
    (eligibleNodes spec nodes checkouts) :=
  eligibleNodes_perm.trans eligibleNodes_perm.symm

/-- What comes before a node that has cloned came before it already. -/
theorem before_of_cloned (distinct : (nodes.map (·.id)).Nodup)
    {taken back front after : List NodeFacts}
    (was : eligibleNodes spec nodes checkouts = taken ++ node :: back)
    (now : eligibleNodes spec nodes moved = front ++ node :: after)
    (had : hasCheckout checkouts node.id = false) (has : hasCheckout moved node.id = true) :
    front.Subperm taken := by
  have nowDistinct := eligibleNodes_distinct spec moved distinct
  have nowSorted := eligibleNodes_sorted spec nodes moved
  have wasSorted := eligibleNodes_sorted spec nodes checkouts
  rw [now] at nowDistinct nowSorted
  rw [was] at wasSorted
  refine List.subperm_of_subset ?_ fun other inFront => ?_
  · exact List.Nodup.of_map _ (nowDistinct.sublist ((List.sublist_append_left _ _).map _))
  · have apart : other.id ≠ node.id := by
      rw [List.map_append, List.map_cons] at nowDistinct
      exact (List.nodup_append.mp nowDistinct).2.2 _ (List.mem_map_of_mem inFront) _
        List.mem_cons_self
    have sorts : SortsBefore moved other node :=
      (List.pairwise_append.mp nowSorted).2.2 other inFront node List.mem_cons_self
    -- a node before one with a checkout has one, and is before it by its id
    have otherHas : hasCheckout moved other.id = true := by
      unfold SortsBefore at sorts
      split at sorts
      · next same => rw [same, has]
      · exact sorts
    have lower : other.id ≤ node.id := by
      rw [SortsBefore, if_pos (otherHas.trans has.symm)] at sorts
      exact sorts
    have sorted : SortsBefore checkouts other node := by
      unfold SortsBefore
      split
      · exact lower
      · next differ => exact Bool.eq_true_of_not_eq_false fun no => differ (no.trans had.symm)
    have known : other ∈ taken ++ node :: back := by
      rw [← was, ← (eligibleNodes_moved spec nodes checkouts moved).mem_iff, now]
      exact List.mem_append_left _ inFront
    rcases List.mem_append.mp known with inTaken | later
    · exact inTaken
    · rcases List.mem_cons.mp later with rfl | inBack
      · exact absurd rfl apart
      · have behind := (List.pairwise_cons.mp (List.pairwise_append.mp wasSorted).2.1).1
          other inBack
        exact absurd (sorted.antisymm behind) apart

/-- The nodes with a checkout stand first in the next plan. -/
theorem exists_holders (nodes : List NodeFacts) (spec : SessionSpec)
    (moved : List CheckoutSlot) : ∃ holders others,
      eligibleNodes spec nodes moved = holders ++ others ∧
        (∀ node ∈ holders, hasCheckout moved node.id = true) ∧
        (∀ node ∈ others, hasCheckout moved node.id = false) :=
  ⟨_, _, holders_first (eligibleNodes_sorted ..),
    fun _ member => (List.mem_filter.mp member).2,
    fun _ member => by simpa using (List.mem_filter.mp member).2⟩

/-- Nodes that all have a checkout now are among the first. -/
theorem subperm_holders {holders others taken : List NodeFacts}
    (split : eligibleNodes spec nodes moved = holders ++ others)
    (noneOthers : ∀ node ∈ others, hasCheckout moved node.id = false)
    (isTaken : taken.Sublist (eligibleNodes spec nodes checkouts))
    (allHave : ∀ node ∈ taken, hasCheckout moved node.id = true) : taken.Subperm holders := by
  have within : taken.Subperm (holders ++ others) :=
    isTaken.subperm.trans (split ▸ (eligibleNodes_moved spec nodes checkouts moved).symm.subperm)
  obtain ⟨found, perm, sublist⟩ := within
  refine ⟨found, perm, ?_⟩
  have all : found.filter (fun node => hasCheckout moved node.id) = found :=
    List.filter_eq_self.mpr fun node member => allHave node (perm.mem_iff.mp member)
  have filtered := sublist.filter fun node => hasCheckout moved node.id
  have none : others.filter (fun node => hasCheckout moved node.id) = [] :=
    List.filter_eq_nil_iff.mpr fun node member => by simp [noneOthers node member]
  rw [all, List.filter_append, none, List.append_nil] at filtered
  exact filtered.trans List.filter_sublist

theorem sum_le_of_subperm {nodes others : List NodeFacts} (room : NodeFacts → Nat)
    (within : nodes.Subperm others) : (nodes.map room).sum ≤ (others.map room).sum := by
  obtain ⟨taken, perm, sublist⟩ := within
  rw [← (perm.map room).sum_eq]
  exact (sublist.map room).sum_le_sum fun _ _ => Nat.zero_le _

/-- The target is one of the eligible nodes in any order. -/
theorem targetSessions_perm {nodes others : List NodeFacts} {capped : Bool}
    (perm : nodes.Perm others) :
    targetSessions spec nodes capped = targetSessions spec others capped := by
  unfold targetSessions
  split
  · rfl
  · rfl
  · exact (perm.map _).sum_eq

theorem targetNodes_perm {nodes others : List NodeFacts} (perm : nodes.Perm others) :
    targetNodes spec nodes = targetNodes spec others := by
  unfold targetNodes
  split
  · rfl
  · rfl
  · exact perm.length_eq

end Second

/-! ### By sessions -/

section Sharded

variable {spec : SessionSpec} {nodes : List NodeFacts} {checkouts clones moved : List CheckoutSlot}
  {actual later : List Actual} {ports : PortSafety}

theorem mem_asked_sharded {node : NodeId} :
    node ∈ asked spec nodes checkouts actual ports .sharded ↔
      ∃ facts ∈ involvedNodes spec (eligibleNodes spec nodes checkouts) (ports = .undeclared),
        hasCheckout checkouts facts.id = false ∧ facts.id = node := by
  change node ∈ ((involvedNodes _ _ _).filter _).map _ ↔ _
  simp only [List.mem_map, List.mem_filter, Bool.not_eq_true', and_assoc]

/-- Every node that was involved has a checkout in the next plan. -/
theorem involved_have (cloned : Cloned spec nodes checkouts actual ports .sharded clones moved)
    (involved : node ∈
      involvedNodes spec (eligibleNodes spec nodes checkouts) (ports = .undeclared)) :
    hasCheckout moved node.id = true := by
  rw [hasCheckout_iff cloned]
  cases has : hasCheckout checkouts node.id with
  | true => exact .inl rfl
  | false => exact .inr (mem_asked_sharded.mpr ⟨node, involved, has, rfl⟩)

/-- The nodes with a checkout cover the target in the next plan, or are all there are. -/
theorem covered_sharded (cloned : Cloned spec nodes checkouts actual ports .sharded clones moved)
    {holders others : List NodeFacts} (split : eligibleNodes spec nodes moved = holders ++ others)
    (noneOthers : ∀ node ∈ others, hasCheckout moved node.id = false) :
    others = [] ∨ targetSessions spec (eligibleNodes spec nodes moved) (ports = .undeclared) ≤
      (holders.map (capacityOf (ports = .undeclared))).sum := by
  have within := subperm_holders split noneOthers
    (cover_isPrefix (capacityOf (ports = .undeclared))
      (targetSessions spec (eligibleNodes spec nodes checkouts) (ports = .undeclared)) 0
      (eligibleNodes spec nodes checkouts)).sublist
    fun node member => involved_have cloned member
  rcases cover_eq_or_covers (capacityOf (ports = .undeclared))
    (targetSessions spec (eligibleNodes spec nodes checkouts) (ports = .undeclared)) 0
    (eligibleNodes spec nodes checkouts) with all | reached
  · left
    have longer := within.length_le
    have sameLength := (eligibleNodes_moved spec nodes checkouts moved).length_eq
    rw [all, ← sameLength, split, List.length_append] at longer
    exact List.eq_nil_of_length_eq_zero (by omega)
  · right
    rw [targetSessions_perm (eligibleNodes_moved spec nodes checkouts moved)]
    have more := sum_le_of_subperm (capacityOf (ports = .undeclared)) within
    omega

theorem nothingAsked_sharded
    (cloned : Cloned spec nodes checkouts actual ports .sharded clones moved) :
    (plan spec nodes moved later ports .sharded).needsClone = [] := by
  obtain ⟨holders, others, split, allHave, noneOthers⟩ := exists_holders nodes spec moved
  refine List.eq_nil_iff_forall_not_mem.mpr fun node isAsked => ?_
  obtain ⟨facts, involved, hasNone, -⟩ := mem_asked_sharded.mp isAsked
  rw [involvedNodes, split, cover_append] at involved
  rcases List.mem_append.mp involved with inHolders | inOthers
  · rw [allHave facts ((cover_isPrefix ..).subset inHolders)] at hasNone
    cases hasNone
  · rcases covered_sharded cloned split noneOthers with rfl | reached
    · cases inOthers
    · rw [← split, cover_of_le (by omega)] at inOthers
      cases inOthers

theorem placed_sharded (cloned : Cloned spec nodes checkouts actual ports .sharded clones moved) :
    Placed spec nodes ports .sharded (plan spec nodes moved later ports .sharded) := by
  obtain ⟨holders, others, split, allHave, noneOthers⟩ := exists_holders nodes spec moved
  have perm : (eligibleNodes spec nodes moved).Perm (nodes.filter (eligible spec)) :=
    eligibleNodes_perm
  have room : roomOf (eligibleNodes spec nodes moved) moved (ports = .undeclared) =
      (holders.map (capacityOf (ports = .undeclared))).sum := by
    have all : holders.filter (fun node => hasCheckout moved node.id) = holders :=
      List.filter_eq_self.mpr allHave
    have none : others.filter (fun node => hasCheckout moved node.id) = [] :=
      List.filter_eq_nil_iff.mpr fun node member => by simp [noneOthers node member]
    rw [roomOf, split, List.filter_append, all, none, List.append_nil]
  rw [Placed, placed_eq, length_placements_sharded, room, ← targetSessions_perm perm,
    ← (perm.map _).sum_eq]
  rcases covered_sharded cloned split noneOthers with rfl | reached
  · rw [split, List.append_nil]
  · have total : ((eligibleNodes spec nodes moved).map
        (capacityOf (ports = .undeclared))).sum =
        (holders.map (capacityOf (ports = .undeclared))).sum +
          (others.map (capacityOf (ports = .undeclared))).sum := by
      rw [split, List.map_append, List.sum_append]
    omega

/-- A node with room that was asked to clone has a session in the next plan. -/
theorem hosted_sharded (distinct : (nodes.map (·.id)).Nodup)
    (cloned : Cloned spec nodes checkouts actual ports .sharded clones moved)
    {taken back : List NodeFacts} (was : eligibleNodes spec nodes checkouts = taken ++ node :: back)
    (had : hasCheckout checkouts node.id = false)
    (short : (taken.map (capacityOf (ports = .undeclared))).sum <
      targetSessions spec (eligibleNodes spec nodes checkouts) (ports = .undeclared))
    (free : 0 < capacityOf (ports = .undeclared) node) :
    1 ≤ (plan spec nodes moved later ports .sharded).perNode.get node.id := by
  have involved : node ∈
      involvedNodes spec (eligibleNodes spec nodes checkouts) (ports = .undeclared) := by
    rw [involvedNodes, was]
    exact mem_cover (by rw [← was]; omega)
  have has := involved_have cloned involved
  have isIn : node ∈ eligibleNodes spec nodes moved := by
    rw [(eligibleNodes_moved spec nodes checkouts moved).mem_iff, was]
    exact List.mem_append_right _ List.mem_cons_self
  obtain ⟨front, after, now⟩ := List.append_of_mem isIn
  have before := before_of_cloned distinct was now had has
  have still : (front.map (capacityOf (ports = .undeclared))).sum <
      targetSessions spec (eligibleNodes spec nodes moved) (ports = .undeclared) := by
    rw [targetSessions_perm (eligibleNodes_moved spec nodes checkouts moved)]
    have atMost := sum_le_of_subperm (capacityOf (ports = .undeclared)) before
    omega
  rw [per_node_shard_eq]
  refine List.one_le_countP_iff.mpr ?_
  -- the node is a host behind those before it, and is dealt a place in the first round
  obtain ⟨host, isHost⟩ : ∃ host, hostOf moved node = some host :=
    Option.isSome_iff_exists.mp (hostOf_isSome.trans has)
  obtain ⟨isNode, own⟩ := hostOf_some isHost
  have hosts : ∃ before behind, sessionHosts spec (eligibleNodes spec nodes moved) moved
      (ports = .undeclared) = before ++ host :: behind ∧
        (before.map fun host => capacityOf (ports = .undeclared) host.node).sum ≤
          (front.map (capacityOf (ports = .undeclared))).sum := by
    rw [sessionHosts, involvedNodes, now, cover_append, cover, if_neg (by rw [← now]; omega),
      List.filterMap_append, List.filterMap_cons_some isHost]
    refine ⟨_, _, rfl, ?_⟩
    rw [map_filterMap_hostOf]
    refine ((List.filter_sublist.trans (cover_isPrefix ..).sublist).map _).sum_le_sum ?_
    exact fun _ _ => Nat.zero_le _
  obtain ⟨before, behind, areHosts, few⟩ := hosts
  refine ⟨host.give 0, ?_, ?_⟩
  · rw [shardSlots, areHosts]
    exact give_mem_deal (by rw [isNode]; exact free) (by omega)
  · exact decide_eq_true (own _ (give_mem host 0)).2

end Sharded

/-! ### By checkouts -/

section Checkouts

variable {spec : SessionSpec} {nodes : List NodeFacts} {checkouts clones moved : List CheckoutSlot}
  {actual later : List Actual} {ports : PortSafety}

theorem mem_asked_perCheckout {node : NodeId} :
    node ∈ asked spec nodes checkouts actual ports .perCheckout ↔
      ∃ facts ∈ (eligibleNodes spec nodes checkouts).take
        (targetNodes spec (eligibleNodes spec nodes checkouts)),
          hasCheckout checkouts facts.id = false ∧ facts.id = node := by
  change node ∈ (List.map _ (List.take _ _)).filter _ ↔ _
  simp only [List.mem_filter, List.mem_map, Bool.not_eq_true']
  constructor
  · rintro ⟨⟨facts, member, rfl⟩, hasNone⟩
    exact ⟨facts, member, hasNone, rfl⟩
  · rintro ⟨facts, member, hasNone, rfl⟩
    exact ⟨⟨facts, member, rfl⟩, hasNone⟩

theorem chosen_have (cloned : Cloned spec nodes checkouts actual ports .perCheckout clones moved)
    (chosen : node ∈ (eligibleNodes spec nodes checkouts).take
      (targetNodes spec (eligibleNodes spec nodes checkouts))) :
    hasCheckout moved node.id = true := by
  rw [hasCheckout_iff cloned]
  cases has : hasCheckout checkouts node.id with
  | true => exact .inl rfl
  | false => exact .inr (mem_asked_perCheckout.mpr ⟨node, chosen, has, rfl⟩)

/-- The nodes that the next plan chooses have a checkout. -/
theorem nothingAsked_perCheckout
    (cloned : Cloned spec nodes checkouts actual ports .perCheckout clones moved) :
    (plan spec nodes moved later ports .perCheckout).needsClone = [] := by
  obtain ⟨holders, others, split, allHave, noneOthers⟩ := exists_holders nodes spec moved
  have longer := (subperm_holders split noneOthers (List.take_sublist _ _) fun node member =>
    chosen_have cloned member).length_le
  have sameLength := (eligibleNodes_moved spec nodes checkouts moved).length_eq
  have sameTarget : targetNodes spec (eligibleNodes spec nodes moved) =
      targetNodes spec (eligibleNodes spec nodes checkouts) :=
    targetNodes_perm (eligibleNodes_moved spec nodes checkouts moved)
  rw [List.length_take, ← sameTarget, ← sameLength, split, List.length_append] at longer
  refine List.eq_nil_iff_forall_not_mem.mpr fun node isAsked => ?_
  obtain ⟨facts, chosen, hasNone, -⟩ := mem_asked_perCheckout.mp isAsked
  rw [split, List.take_append] at chosen
  rcases List.mem_append.mp chosen with inHolders | inOthers
  · rw [allHave facts (List.mem_of_mem_take inHolders)] at hasNone
    cases hasNone
  · have some := List.length_pos_of_mem inOthers
    rw [List.length_take] at some
    omega

theorem placed_perCheckout
    (cloned : Cloned spec nodes checkouts actual ports .perCheckout clones moved) :
    Placed spec nodes ports .perCheckout (plan spec nodes moved later ports .perCheckout) := by
  have perm : (eligibleNodes spec nodes moved).Perm (nodes.filter (eligible spec)) :=
    eligibleNodes_perm
  have nothing : (plan spec nodes moved later ports .perCheckout).needsClone = [] :=
    nothingAsked_perCheckout cloned
  change (plan spec nodes moved later ports .perCheckout).needsClone.length +
    (targetNodes spec (eligibleNodes spec nodes moved) -
      (eligibleNodes spec nodes moved).length) = _
  rw [nothing, List.length_nil, Nat.zero_add, targetNodes_perm perm, perm.length_eq]

/-- A checkout of a chosen node is a slot, or another of the same node is. -/
theorem one_le_per_node {slot : CheckoutSlot} (known : slot ∈ moved)
    (ofNode : slot.nodeId = node.id)
    (chosen : node.id ∈ chosenNodes spec (eligibleNodes spec nodes moved)) :
    1 ≤ (plan spec nodes moved later ports .perCheckout).perNode.get node.id := by
  have isSlot : slot ∈ byId (moved.filter fun checkout =>
      checkout.nodeId ∈ chosenNodes spec (eligibleNodes spec nodes moved)) :=
    mem_byId.mpr (List.mem_filter.mpr ⟨known, decide_eq_true (ofNode ▸ chosen)⟩)
  obtain ⟨other, placed, ofOther⟩ : ∃ other ∈ checkoutSlots spec (eligibleNodes spec nodes moved)
      moved (ports = .undeclared), other.nodeId = node.id := by
    rw [checkoutSlots]
    split
    · obtain ⟨other, kept, sameNode⟩ := exists_firstPerNode isSlot List.not_mem_nil
      exact ⟨other, kept, sameNode.trans ofNode⟩
    · exact ⟨slot, isSlot, ofNode⟩
  change 1 ≤ (Tally.ofKeys (List.map _ _)).get node.id
  rw [Tally.get_ofKeys]
  exact List.count_pos_iff.mpr (List.mem_map.mpr ⟨other, placed, ofOther⟩)

theorem hosted_perCheckout (distinct : (nodes.map (·.id)).Nodup)
    (cloned : Cloned spec nodes checkouts actual ports .perCheckout clones moved)
    {id : NodeId} (isAsked : id ∈ asked spec nodes checkouts actual ports .perCheckout) :
    1 ≤ (plan spec nodes moved later ports .perCheckout).perNode.get id := by
  obtain ⟨node, chosen, had, rfl⟩ := mem_asked_perCheckout.mp isAsked
  have has := chosen_have cloned chosen
  -- the node stands behind no more nodes than before
  obtain ⟨taken, rest, isTaken⟩ := List.append_of_mem chosen
  have was := (List.take_append_drop (targetNodes spec (eligibleNodes spec nodes checkouts))
    (eligibleNodes spec nodes checkouts)).symm
  rw [isTaken, List.append_assoc, List.cons_append] at was
  have short : taken.length < targetNodes spec (eligibleNodes spec nodes checkouts) := by
    have length := congrArg List.length isTaken
    rw [List.length_take, List.length_append, List.length_cons] at length
    omega
  have isIn : node ∈ eligibleNodes spec nodes moved := by
    rw [(eligibleNodes_moved spec nodes checkouts moved).mem_iff, was]
    exact List.mem_append_right _ List.mem_cons_self
  obtain ⟨front, after, now⟩ := List.append_of_mem isIn
  have before := (before_of_cloned distinct was now had has).length_le
  have chosenAgain : node.id ∈ chosenNodes spec (eligibleNodes spec nodes moved) := by
    refine List.mem_map_of_mem (f := NodeFacts.id) ?_
    rw [targetNodes_perm (eligibleNodes_moved spec nodes checkouts moved), now, List.take_append,
      List.take_cons (by omega)]
    exact List.mem_append_right _ List.mem_cons_self
  obtain ⟨slot, known, ofNode⟩ := List.any_eq_true.mp has
  exact one_le_per_node known (of_decide_eq_true ofNode) chosenAgain

end Checkouts

/-! ### Convergence -/

section Convergence

variable {spec : SessionSpec} {nodes : List NodeFacts} {checkouts clones moved : List CheckoutSlot}
  {actual later : List Actual} {ports : PortSafety} {spread : Spread}

/-- A node that is full is planned no session. -/
theorem per_node_full (distinct : (nodes.map (·.id)).Nodup)
    (member : node ∈ nodes) (full : capacityOf (ports = .undeclared) node = 0) :
    (plan spec nodes moved later ports .sharded).perNode.get node.id = 0 :=
  Nat.le_zero.mp (full ▸ per_node_sharded distinct node member)

theorem nothingAsked (cloned : Cloned spec nodes checkouts actual ports spread clones moved) :
    (plan spec nodes moved later ports spread).needsClone = [] := by
  cases spread with
  | perCheckout => exact nothingAsked_perCheckout cloned
  | sharded => exact nothingAsked_sharded cloned

theorem placed_of_cloned (cloned : Cloned spec nodes checkouts actual ports spread clones moved) :
    Placed spec nodes ports spread (plan spec nodes moved later ports spread) := by
  cases spread with
  | perCheckout => exact placed_perCheckout cloned
  | sharded => exact placed_sharded cloned

/-- After one round of clones the plan is at rest and places what it can; it is so that no
clone was for nothing exactly where no full node was reached. -/
theorem cloning_converges_iff (distinct : (nodes.map (·.id)).Nodup)
    (cloned : Cloned spec nodes checkouts actual ports spread clones moved) :
    Converges spec nodes checkouts actual ports spread (plan spec nodes moved later ports spread) ↔
      ReachesRoom spec nodes checkouts ports spread := by
  constructor
  · rintro ⟨-, -, hosted⟩ rfl front node back was had full
    by_contra short
    have perm : (eligibleNodes spec nodes checkouts).Perm (nodes.filter (eligible spec)) :=
      eligibleNodes_perm
    rw [← targetSessions_perm perm, Nat.not_le] at short
    have involved : node ∈
        involvedNodes spec (eligibleNodes spec nodes checkouts) (ports = .undeclared) := by
      rw [involvedNodes, was]
      exact mem_cover (by rw [← was]; omega)
    have isIn : node ∈ nodes := by
      have isEligible : node ∈ eligibleNodes spec nodes checkouts :=
        was ▸ List.mem_append_right _ List.mem_cons_self
      exact List.mem_of_mem_filter (perm.mem_iff.mp isEligible)
    have some := hosted node.id (mem_asked_sharded.mpr ⟨node, involved, had, rfl⟩)
    rw [per_node_full distinct isIn full] at some
    exact absurd some (by decide)
  · intro reaches
    refine ⟨nothingAsked cloned, placed_of_cloned cloned, fun id isAsked => ?_⟩
    cases spread with
    | perCheckout => exact hosted_perCheckout distinct cloned isAsked
    | sharded =>
        obtain ⟨node, involved, had, rfl⟩ := mem_asked_sharded.mp isAsked
        obtain ⟨taken, rest, isTaken⟩ := List.append_of_mem involved
        obtain ⟨more, all⟩ := cover_isPrefix (capacityOf (ports = .undeclared))
          (targetSessions spec (eligibleNodes spec nodes checkouts) (ports = .undeclared)) 0
          (eligibleNodes spec nodes checkouts)
        have short := short_of_mem_cover isTaken
        rw [Nat.zero_add] at short
        have was : eligibleNodes spec nodes checkouts = taken ++ node :: (rest ++ more) := by
          rw [← all]
          change involvedNodes _ _ _ ++ more = _
          rw [isTaken, List.append_assoc, List.cons_append]
        refine hosted_sharded distinct cloned was had short (Nat.pos_of_ne_zero fun full => ?_)
        have covers := reaches rfl taken node _ was had full
        have perm : (eligibleNodes spec nodes checkouts).Perm (nodes.filter (eligible spec)) :=
          eligibleNodes_perm
        rw [← targetSessions_perm perm] at covers
        omega

/-- Two nodes with room, of which one has no checkout. -/
theorem cloning_converges_twoNodes :
    Converges (anywhere (.count 3)) [openNode 1 (some 2) 1, openNode 2 none 0]
      [{ checkoutId := 4, nodeId := 2, path := "/b" }] [] .declared .sharded
      (plan (anywhere (.count 3)) [openNode 1 (some 2) 1, openNode 2 none 0]
        [{ checkoutId := 4, nodeId := 2, path := "/b" },
         { checkoutId := 7, nodeId := 1, path := "/a" }] [] .declared .sharded) := by
  have cloned : Cloned (anywhere (.count 3)) [openNode 1 (some 2) 1, openNode 2 none 0]
      [{ checkoutId := 4, nodeId := 2, path := "/b" }] [] .declared .sharded
      [{ checkoutId := 7, nodeId := 1, path := "/a" }]
      [{ checkoutId := 4, nodeId := 2, path := "/b" },
       { checkoutId := 7, nodeId := 1, path := "/a" }] :=
    ⟨by decide, .refl _, by decide⟩
  refine (cloning_converges_iff (by decide) cloned).mpr ?_
  intro _ front node back same _ full
  have allFree : ∀ node ∈ eligibleNodes (anywhere (.count 3))
      [openNode 1 (some 2) 1, openNode 2 none 0] [{ checkoutId := 4, nodeId := 2, path := "/b" }],
        capacityOf false node ≠ 0 := by decide
  exact absurd full (allFree node (same ▸ List.mem_append_right front List.mem_cons_self))

/-- A full node is asked to clone before one with room, and has no session. -/
theorem cloning_idles :
    Cloned (anywhere .single) [openNode 1 (some 2) 2, openNode 2 (some 2) 0] [] [] .declared
      .sharded
      [{ checkoutId := 5, nodeId := 1, path := "/a" },
       { checkoutId := 6, nodeId := 2, path := "/b" }]
      [{ checkoutId := 5, nodeId := 1, path := "/a" },
       { checkoutId := 6, nodeId := 2, path := "/b" }] ∧
    ¬ Converges (anywhere .single) [openNode 1 (some 2) 2, openNode 2 (some 2) 0] [] [] .declared
      .sharded
      (plan (anywhere .single) [openNode 1 (some 2) 2, openNode 2 (some 2) 0]
        [{ checkoutId := 5, nodeId := 1, path := "/a" },
         { checkoutId := 6, nodeId := 2, path := "/b" }] [] .declared .sharded) := by
  refine ⟨⟨by decide, .refl _, by decide⟩, fun converges => ?_⟩
  have hosted := converges.hosted 1 (by decide)
  have full : (plan (anywhere .single) [openNode 1 (some 2) 2, openNode 2 (some 2) 0]
      [{ checkoutId := 5, nodeId := 1, path := "/a" },
       { checkoutId := 6, nodeId := 2, path := "/b" }] [] .declared .sharded).perNode.get
        (openNode 1 (some 2) 2).id = 0 :=
    per_node_full (by decide) List.mem_cons_self rfl
  exact absurd (hosted.trans full.le) (by decide)

end Convergence

end NookOs.Sessions
