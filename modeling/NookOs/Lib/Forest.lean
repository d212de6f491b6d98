/-
Module: NookOs.Lib.Forest
Purpose: Nodes that link to a parent or to none: chains that end at a root,
  climbing them, and changes of the links that leave every chain ending.
Trusted boundary: none
Main exports: Rooted, OnChain, climb, mem_climb_iff, Rooted.relink, Rooted.relink_target
-/
import Mathlib.Data.List.Nodup
import Mathlib.Data.List.Perm.Subperm

namespace NookOs.Lib

section Chains

variable {Node : Type*} (up : Node → Option Node)

/-- The chain of parents from a node ends at a root. -/
inductive Rooted : Node → Prop
  | root {node : Node} (atRoot : up node = none) : Rooted node
  | child {node parent : Node} (linked : up node = some parent) (rooted : Rooted parent) :
      Rooted node

/-- A node is on the chain of another: it is the other or one of its ancestors. -/
inductive OnChain (target : Node) : Node → Prop
  | here : OnChain target target
  | above {node parent : Node} (linked : up node = some parent)
      (further : OnChain target parent) : OnChain target node

/-- The chain of a node up to its root, if that many nodes are enough for it. -/
def climb : Nat → Node → Option (List Node)
  | 0, _ => none
  | fuel + 1, node =>
      match up node with
      | none => some [node]
      | some parent => (climb fuel parent).map (node :: ·)

variable {up} {node parent target : Node} {fuel : Nat} {chain : List Node}

theorem climb_root (atRoot : up node = none) : climb up (fuel + 1) node = some [node] := by
  rw [climb, atRoot]

theorem climb_child (linked : up node = some parent) :
    climb up (fuel + 1) node = (climb up fuel parent).map (node :: ·) := by
  rw [climb, linked]

/-- What a climb has found is the node, alone or before the climb of its
parent. -/
theorem climb_cases (climbed : climb up fuel node = some chain) :
    ∃ less, fuel = less + 1 ∧ ((up node = none ∧ chain = [node]) ∨
      ∃ parent rest, up node = some parent ∧ climb up less parent = some rest ∧
        chain = node :: rest) := by
  cases fuel with
  | zero => cases climbed
  | succ less =>
      refine ⟨less, rfl, ?_⟩
      cases linked : up node with
      | none =>
          rw [climb_root linked] at climbed
          exact .inl ⟨rfl, (Option.some.inj climbed).symm⟩
      | some parent =>
          rw [climb_child linked, Option.map_eq_some_iff] at climbed
          obtain ⟨rest, went, isChain⟩ := climbed
          exact .inr ⟨parent, rest, rfl, went, isChain.symm⟩

theorem Rooted.of_climb (climbed : climb up fuel node = some chain) : Rooted up node := by
  induction fuel generalizing node chain with
  | zero => cases climbed
  | succ fuel ih =>
      obtain ⟨less, isLess, atRoot | ⟨parent, rest, linked, went, -⟩⟩ := climb_cases climbed
      · exact .root atRoot.1
      · cases isLess
        exact .child linked (ih went)

/-- A climb finds the nodes of the chain. -/
theorem mem_climb_iff (climbed : climb up fuel node = some chain) :
    target ∈ chain ↔ OnChain up target node := by
  induction fuel generalizing node chain with
  | zero => cases climbed
  | succ fuel ih =>
      obtain ⟨less, isLess, ⟨atRoot, isChain⟩ | ⟨parent, rest, linked, went, isChain⟩⟩ :=
        climb_cases climbed
      · rw [isChain, List.mem_singleton]
        constructor
        · intro same
          exact same ▸ .here
        · intro onChain
          cases onChain with
          | here => rfl
          | above linked _ =>
              rw [atRoot] at linked
              cases linked
      · cases isLess
        rw [isChain, List.mem_cons, ih went]
        constructor
        · rintro (same | further)
          · exact same ▸ .here
          · exact .above linked further
        · intro onChain
          cases onChain with
          | here => exact .inl rfl
          | above other further =>
              rw [linked] at other
              cases other
              exact .inr further

/-- A chain is climbed with as much as it takes, and no less finds it. -/
theorem climb_of_length_le (climbed : climb up fuel node = some chain) {more : Nat}
    (enough : chain.length ≤ more) : climb up more node = some chain := by
  induction fuel generalizing node chain more with
  | zero => cases climbed
  | succ fuel ih =>
      obtain ⟨less, isLess, ⟨atRoot, rfl⟩ | ⟨parent, rest, linked, went, rfl⟩⟩ :=
        climb_cases climbed
      · obtain ⟨pred, rfl⟩ := Nat.exists_eq_add_of_le' enough
        exact climb_root atRoot
      · cases isLess
        rw [List.length_cons] at enough
        obtain ⟨pred, rfl⟩ := Nat.exists_eq_add_of_le' (Nat.le_of_add_left_le enough)
        rw [climb_child linked, ih went (by omega)]
        rfl

/-- A node of a chain has a climb that is no longer. -/
theorem climb_of_mem (climbed : climb up fuel node = some chain) (member : target ∈ chain) :
    ∃ fuel rest, climb up fuel target = some rest ∧ rest.length ≤ chain.length := by
  induction fuel generalizing node chain with
  | zero => cases climbed
  | succ fuel ih =>
      obtain ⟨less, isLess, ⟨atRoot, rfl⟩ | ⟨parent, rest, linked, went, rfl⟩⟩ :=
        climb_cases climbed
      · rw [List.mem_singleton] at member
        subst member
        exact ⟨_, _, climbed, Nat.le_refl _⟩
      · cases isLess
        rcases List.mem_cons.mp member with rfl | further
        · exact ⟨_, _, climbed, Nat.le_refl _⟩
        · obtain ⟨enough, found, foundClimb, shorter⟩ := ih went further
          exact ⟨enough, found, foundClimb, by rw [List.length_cons]; omega⟩

/-- No node stands on a chain twice. -/
theorem climb_nodup (climbed : climb up fuel node = some chain) : chain.Nodup := by
  induction fuel generalizing node chain with
  | zero => cases climbed
  | succ fuel ih =>
      obtain ⟨less, isLess, ⟨atRoot, rfl⟩ | ⟨parent, rest, linked, went, rfl⟩⟩ :=
        climb_cases climbed
      · exact List.nodup_singleton node
      · cases isLess
        refine List.nodup_cons.mpr ⟨?_, ih went⟩
        intro again
        -- The node's own climb would be shorter than itself.
        obtain ⟨enough, found, foundClimb, shorter⟩ := climb_of_mem went again
        have first := climb_of_length_le climbed (Nat.le_max_left _ found.length)
        have second := climb_of_length_le foundClimb (Nat.le_max_right (node :: rest).length _)
        rw [first] at second
        cases second
        rw [List.length_cons] at shorter
        omega

theorem Rooted.exists_climb (rooted : Rooted up node) :
    ∃ fuel chain, climb up fuel node = some chain := by
  induction rooted with
  | root atRoot => exact ⟨1, _, climb_root atRoot⟩
  | child linked _ ih =>
      obtain ⟨fuel, chain, climbed⟩ := ih
      exact ⟨fuel + 1, _, by rw [climb_child linked, climbed]; rfl⟩

/-- A chain that ends among some nodes is climbed with no more than these. -/
theorem Rooted.climb_isSome {nodes : List Node} (rooted : Rooted up node)
    (among : ∀ target, OnChain up target node → target ∈ nodes) :
    (climb up nodes.length node).isSome = true := by
  obtain ⟨fuel, chain, climbed⟩ := rooted.exists_climb
  have subset : chain ⊆ nodes := fun target member =>
    among target ((mem_climb_iff climbed).mp member)
  have short : chain.length ≤ nodes.length :=
    (List.subperm_of_subset (climb_nodup climbed) subset).length_le
  rw [climb_of_length_le climbed short]
  rfl

end Chains

section Relinking

variable {Node : Type*} {up new : Node → Option Node} {node target : Node}

/-- Every chain still ends when each node keeps its link, is cut loose, or is
linked to one target whose new chain ends. -/
theorem Rooted.relink (rooted : Rooted up node) (targetRooted : Rooted new target)
    (changed : ∀ node, new node = up node ∨ new node = none ∨ new node = some target) :
    Rooted new node := by
  induction rooted with
  | @root node atRoot =>
      rcases changed node with same | cut | linked
      · exact .root (same.trans atRoot)
      · exact .root cut
      · exact .child linked targetRooted
  | @child node parent wasLinked _ ih =>
      rcases changed node with same | cut | linked
      · exact .child (same.trans wasLinked) ih
      · exact .root cut
      · exact .child linked targetRooted

/-- The chain of a node still ends when the nodes on it keep their links or are
cut loose. -/
theorem Rooted.relink_target (rooted : Rooted up target)
    (kept : ∀ node, OnChain up node target → new node = up node ∨ new node = none) :
    Rooted new target := by
  induction rooted with
  | @root node atRoot =>
      rcases kept node .here with same | cut
      · exact .root (same.trans atRoot)
      · exact .root cut
  | @child node parent linked _ ih =>
      rcases kept node .here with same | cut
      · exact .child (same.trans linked)
          (ih fun other onChain => kept other (.above linked onChain))
      · exact .root cut

/-- Where the nodes on a chain keep their links or are cut loose, nothing new is
on it. -/
theorem OnChain.before (onChain : OnChain new target node)
    (kept : ∀ other, OnChain up other node → new other = up other ∨ new other = none) :
    OnChain up target node := by
  induction onChain with
  | here => exact .here
  | above linked _ ih =>
      rcases kept _ .here with same | cut
      · have wasLinked := same.symm.trans linked
        exact .above wasLinked
          (ih fun other above => kept other (.above wasLinked above))
      · rw [cut] at linked
        cases linked

/-- Cutting nodes loose ends chains earlier. -/
theorem Rooted.cut (rooted : Rooted up node)
    (kept : ∀ node, new node = up node ∨ new node = none) : Rooted new node :=
  rooted.relink_target fun node _ => kept node

/-- Links that pass by the node in between end chains no later. -/
theorem Rooted.bypass (rooted : Rooted up node)
    (kept : ∀ node, new node = up node ∨ new node = none ∨
      ∃ between, up node = some between ∧ new node = up between) : Rooted new node := by
  suffices both : Rooted new node ∧ ∀ parent ∈ up node, Rooted new parent from both.1
  induction rooted with
  | @root node atRoot =>
      refine ⟨.root ?_, fun parent linked => ?_⟩
      · rcases kept node with same | cut | ⟨between, linked, -⟩
        · exact same.trans atRoot
        · exact cut
        · cases atRoot.symm.trans linked
      · cases atRoot.symm.trans linked
  | @child node parent linked _ ih =>
      obtain ⟨parentRooted, nextRooted⟩ := ih
      refine ⟨?_, fun other otherLinked => ?_⟩
      · rcases kept node with same | cut | ⟨between, isBetween, passes⟩
        · exact .child (same.trans linked) parentRooted
        · exact .root cut
        · cases linked.symm.trans isBetween
          cases next : up parent with
          | none => exact .root (passes.trans next)
          | some target => exact .child (passes.trans next) (nextRooted target next)
      · cases linked.symm.trans otherLinked
        exact parentRooted

end Relinking

end NookOs.Lib
