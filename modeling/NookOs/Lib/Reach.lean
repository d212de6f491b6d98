/-
Module: NookOs.Lib.Reach
Purpose: Reachability over a finite list of edges, computed breadth first, and
  relations without a cycle.
Trusted boundary: none
Main exports: Edge, reachable, mem_reachable_iff, Acyclic, acyclic_or_iff
-/
import Mathlib.Data.List.Dedup
import Mathlib.Data.List.Nodup
import Mathlib.Data.List.Perm.Subperm
import Mathlib.Logic.Relation

namespace NookOs.Lib

open Relation (TransGen ReflTransGen)

/-! ## Relations without a cycle -/

section Acyclic

variable {Node : Type*} {related larger : Node → Node → Prop} {source target : Node}

/-- Nothing is reached from itself by one or more steps. -/
def Acyclic (related : Node → Node → Prop) : Prop :=
  ∀ node, ¬ TransGen related node node

/-- A relation without a cycle relates nothing to itself. -/
theorem Acyclic.irreflexive (acyclic : Acyclic related) (node : Node) :
    ¬ related node node :=
  fun loop => acyclic node (.single loop)

/-- A smaller relation has no more cycles. -/
theorem Acyclic.mono (acyclic : Acyclic larger) (included : related ≤ larger) :
    Acyclic related :=
  fun node cycle => acyclic node (TransGen.mono included node node cycle)

/-- What a relation with one more pair reaches, it reached before or reaches
through the new pair. -/
theorem transGen_or_pair {first last : Node}
    (path : TransGen (fun a b => related a b ∨ (a = source ∧ b = target))
      first last) :
    TransGen related first last ∨
      (ReflTransGen related first source ∧ ReflTransGen related target last) := by
  induction path with
  | single step =>
      rcases step with old | ⟨rfl, rfl⟩
      · exact .inl (.single old)
      · exact .inr ⟨.refl, .refl⟩
  | tail _ step ih =>
      rcases step with old | ⟨rfl, rfl⟩
      · rcases ih with before | ⟨into, outOf⟩
        · exact .inl (before.tail old)
        · exact .inr ⟨into, outOf.tail old⟩
      · rcases ih with before | ⟨into, _⟩
        · exact .inr ⟨before.to_reflTransGen, .refl⟩
        · exact .inr ⟨into, .refl⟩

/-- One more pair closes a cycle exactly when its source was reached from its
target, or is its target. -/
theorem acyclic_or_iff :
    Acyclic (fun a b => related a b ∨ (a = source ∧ b = target)) ↔
      Acyclic related ∧ ¬ ReflTransGen related target source := by
  have included : related ≤
      fun a b => related a b ∨ (a = source ∧ b = target) :=
    fun _ _ old => .inl old
  constructor
  · intro acyclic
    refine ⟨acyclic.mono included, fun back => acyclic source ?_⟩
    have there : TransGen (fun a b => related a b ∨ (a = source ∧ b = target))
        source target := .single (.inr ⟨rfl, rfl⟩)
    exact there.trans_left (ReflTransGen.mono included target source back)
  · rintro ⟨acyclic, noWayBack⟩ node cycle
    rcases transGen_or_pair cycle with old | ⟨into, outOf⟩
    · exact acyclic node old
    · exact noWayBack (outOf.trans into)

end Acyclic

/-! ## Breadth-first search -/

section Search

variable {Node : Type*} [DecidableEq Node]

/-- The relation a list of edges stands for. -/
def Edge (edges : List (Node × Node)) (source target : Node) : Prop :=
  (source, target) ∈ edges

instance (edges : List (Node × Node)) (source target : Node) :
    Decidable (Edge edges source target) :=
  inferInstanceAs (Decidable (_ ∈ _))

/-- The targets of the edges that leave a set of nodes. -/
def successors (edges : List (Node × Node)) (sources : List Node) : List Node :=
  (edges.filter (·.1 ∈ sources)).map Prod.snd

/-- The rounds of a search: each adds the successors of the last round's nodes
that have not been found yet, and a round that adds nothing is the last. -/
def searchFrom (edges : List (Node × Node)) :
    Nat → List Node → List Node → List Node
  | 0, found, _ => found
  | _ + 1, found, [] => found
  | fuel + 1, found, node :: working =>
      let fresh :=
        (successors edges (node :: working)).dedup.filter (· ∉ found)
      searchFrom edges fuel (found ++ fresh) fresh

/-- The nodes reached from one by one or more edges.  Every round but the last
finds the target of an edge that none before it did. -/
def reachable (edges : List (Node × Node)) (start : Node) : List Node :=
  let base := (successors edges [start]).dedup
  searchFrom edges (edges.length + 1) base base

variable {edges : List (Node × Node)} {start target : Node}

theorem mem_successors {sources : List Node} :
    target ∈ successors edges sources ↔
      ∃ source ∈ sources, Edge edges source target := by
  simp only [successors, List.mem_map, List.mem_filter, decide_eq_true_eq]
  constructor
  · rintro ⟨⟨source, _⟩, ⟨edge, member⟩, rfl⟩
    exact ⟨source, member, edge⟩
  · rintro ⟨source, member, edge⟩
    exact ⟨(source, target), ⟨edge, member⟩, rfl⟩

/-- What holds of a search between two rounds. -/
structure Searching (edges : List (Node × Node)) (start : Node)
    (found working : List Node) : Prop where
  distinct : found.Nodup
  working_found : ∀ node ∈ working, node ∈ found
  sound : ∀ node ∈ found, TransGen (Edge edges) start node
  begun : ∀ node, Edge edges start node → node ∈ found
  expanded : ∀ node ∈ found, node ∉ working →
    ∀ next, Edge edges node next → next ∈ found

theorem Searching.base :
    Searching edges start (successors edges [start]).dedup
      (successors edges [start]).dedup where
  distinct := List.nodup_dedup _
  working_found := fun _ member => member
  sound := by
    intro node member
    obtain ⟨source, isStart, edge⟩ :=
      mem_successors.mp (List.mem_dedup.mp member)
    rw [List.mem_singleton.mp isStart] at edge
    exact .single edge
  begun := fun node edge =>
    List.mem_dedup.mpr
      (mem_successors.mpr ⟨start, List.mem_singleton_self _, edge⟩)
  expanded := fun _ member absent => absurd member absent

theorem Searching.round {found working : List Node}
    (searching : Searching edges start found working) :
    Searching edges start
      (found ++ (successors edges working).dedup.filter (· ∉ found))
      ((successors edges working).dedup.filter (· ∉ found)) where
  distinct := by
    apply searching.distinct.append ((List.nodup_dedup _).filter _)
    intro node old isFresh
    exact absurd old (of_decide_eq_true (List.mem_filter.mp isFresh).2)
  working_found := fun _ member => List.mem_append_right _ member
  sound := by
    intro node member
    rcases List.mem_append.mp member with old | isFresh
    · exact searching.sound node old
    · obtain ⟨source, member, edge⟩ := mem_successors.mp
        (List.mem_dedup.mp (List.mem_filter.mp isFresh).1)
      exact (searching.sound source
        (searching.working_found source member)).tail edge
  begun := fun node edge => List.mem_append_left _ (searching.begun node edge)
  expanded := by
    intro node member notFresh next edge
    have old : node ∈ found :=
      (List.mem_append.mp member).resolve_right notFresh
    by_cases inWork : node ∈ working
    · by_cases known : next ∈ found
      · exact List.mem_append_left _ known
      · apply List.mem_append_right
        apply List.mem_filter.mpr
        exact ⟨List.mem_dedup.mpr (mem_successors.mpr ⟨node, inWork, edge⟩),
          decide_eq_true known⟩
    · exact List.mem_append_left _ (searching.expanded node old inWork next edge)

omit [DecidableEq Node] in
/-- Everything found is the target of an edge. -/
theorem Searching.length_le {found working : List Node}
    (searching : Searching edges start found working) :
    found.length ≤ edges.length := by
  have targets : found ⊆ edges.map Prod.snd := by
    intro node member
    rcases TransGen.tail'_iff.mp (searching.sound node member) with
      ⟨source, _, edge⟩
    exact List.mem_map_of_mem edge
  have bounded := (List.subperm_of_subset searching.distinct targets).length_le
  rwa [List.length_map] at bounded

/-- With a round for every target not yet found and one more, the search ends
with nothing left to expand. -/
theorem Searching.finished {fuel : Nat} {found working : List Node}
    (searching : Searching edges start found working)
    (enough : edges.length + 1 ≤ fuel + found.length) :
    Searching edges start (searchFrom edges fuel found working) [] := by
  induction fuel generalizing found working with
  | zero =>
      have := searching.length_le
      omega
  | succ fuel ih =>
      cases working with
      | nil => exact searching
      | cons node working =>
          have next := searching.round
          rw [searchFrom]
          cases fresh :
              (successors edges (node :: working)).dedup.filter (· ∉ found) with
          | nil =>
              rw [fresh] at next
              cases fuel <;> exact next
          | cons first rest =>
              rw [fresh] at next
              apply ih next
              simp only [List.length_append, List.length_cons]
              omega

/-- The search finds exactly what one or more edges lead to. -/
theorem mem_reachable_iff :
    target ∈ reachable edges start ↔ TransGen (Edge edges) start target := by
  have finished : Searching edges start (reachable edges start) [] :=
    Searching.base.finished (by omega)
  constructor
  · exact finished.sound target
  · intro path
    induction path with
    | single edge => exact finished.begun _ edge
    | tail _ edge ih =>
        exact finished.expanded _ ih (List.not_mem_nil) _ edge

end Search

end NookOs.Lib
