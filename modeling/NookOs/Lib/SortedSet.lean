/-
Module: NookOs.Lib.SortedSet
Purpose: Sorted sets, members with an integer score each, and the commands
  that add, remove and list them by score.
Trusted boundary: none
Main exports: SortedSet, SortedSet.score, SortedSet.add, SortedSet.remove, SortedSet.rangeByScore
-/
import Mathlib.Data.List.Sort
import Mathlib.Data.Int.Order.Basic
import NookOs.Lib.Table

namespace NookOs.Lib

/-!
A member has one score, so the entries are a table keyed by member.  A listing
by score is ordered by score and then by member, whatever order the members
were added in.
-/

variable {Member : Type*} [DecidableEq Member]

/-- A sorted set: each member once, with its score. -/
structure SortedSet (Member : Type*) [DecidableEq Member] where
  entries : List (Member × Int)
  keyed : Table.Keyed Prod.fst entries

namespace SortedSet

/-- The set with no member. -/
def empty : SortedSet Member := ⟨[], List.nodup_nil⟩

/-- The score of a member, if it is one. -/
def score (set : SortedSet Member) (member : Member) : Option Int :=
  (Table.find Prod.fst set.entries member).map Prod.snd

/-- Remove a member; a no-op for anything else. -/
def remove (member : Member) (set : SortedSet Member) : SortedSet Member :=
  ⟨Table.delete Prod.fst member set.entries, set.keyed.delete⟩

/-- Add a member, or move it to a new score. -/
def add (member : Member) (score : Int) (set : SortedSet Member) :
    SortedSet Member :=
  ⟨(set.remove member).entries ++ [(member, score)],
    (set.remove member).keyed.insert (by simp [remove, Table.find_delete])⟩

@[simp] theorem score_empty (member : Member) :
    (empty : SortedSet Member).score member = none := rfl

@[simp] theorem score_remove (set : SortedSet Member) (member other : Member) :
    (set.remove member).score other =
      if other = member then none else set.score other := by
  unfold score remove
  rw [Table.find_delete]
  split <;> rfl

@[simp] theorem score_add (set : SortedSet Member) (member other : Member)
    (score : Int) :
    (set.add member score).score other =
      if other = member then some score else set.score other := by
  unfold add SortedSet.score remove
  rw [Table.find_insert, Table.find_delete]
  by_cases same : other = member
  · simp [same]
  · simp [same, Ne.symm same]

variable [LinearOrder Member]

/-- The members with a score of at most `limit`, by score and then by member. -/
def rangeByScore (set : SortedSet Member) (limit : Int) : List Member :=
  ((set.entries.filter fun entry => entry.2 ≤ limit).insertionSort
    fun first second => first.2 < second.2 ∨
      (first.2 = second.2 ∧ first.1 ≤ second.1)).map Prod.fst

theorem mem_rangeByScore (set : SortedSet Member) (limit : Int)
    (member : Member) :
    member ∈ set.rangeByScore limit ↔
      ∃ score, set.score member = some score ∧ score ≤ limit := by
  simp only [rangeByScore, List.mem_map, List.mem_insertionSort,
    List.mem_filter, decide_eq_true_eq, score, Option.map_eq_some_iff]
  constructor
  · rintro ⟨entry, ⟨listed, within⟩, rfl⟩
    exact ⟨entry.2, ⟨entry, set.keyed.find_of_mem listed, rfl⟩, within⟩
  · rintro ⟨_, ⟨entry, found, rfl⟩, within⟩
    obtain ⟨listed, same⟩ := Table.find_some found
    exact ⟨entry, ⟨listed, within⟩, same⟩

theorem nodup_rangeByScore (set : SortedSet Member) (limit : Int) :
    (set.rangeByScore limit).Nodup := by
  unfold rangeByScore
  refine ((List.perm_insertionSort _ _).map Prod.fst).nodup_iff.mpr ?_
  exact set.keyed.sublist (List.filter_sublist.map _)

end SortedSet

end NookOs.Lib
