/-
Module: NookOs.Lib.Tally
Purpose: Amounts by key, where a key that has none counts as zero.
Trusted boundary: none
Main exports: Tally, Tally.get, Tally.total, Tally.add, Tally.ofKeys, total_ofKeys, get_merge
-/
import Mathlib.Algebra.GroupWithZero.Nat
import Mathlib.Algebra.BigOperators.Group.List.Basic
import Mathlib.Data.List.Nodup

namespace NookOs.Lib

variable {Key : Type*} [DecidableEq Key]

/-- Amounts by key, each key once, in the order in which the keys came. -/
structure Tally (Key : Type*) where
  entries : List (Key × Nat) := []
  distinct : (entries.map Prod.fst).Nodup := by decide

namespace Tally

def empty : Tally Key := { entries := [], distinct := List.nodup_nil }

def get (tally : Tally Key) (key : Key) : Nat := (tally.entries.lookup key).getD 0

def total (tally : Tally Key) : Nat := (tally.entries.map Prod.snd).sum

/-- Add to the amount of a key, or enter it. -/
def bump (key : Key) (amount : Nat) : List (Key × Nat) → List (Key × Nat)
  | [] => [(key, amount)]
  | (other, present) :: rest =>
      if other = key then (other, present + amount) :: rest
      else (other, present) :: bump key amount rest

theorem mem_keys_bump {key other : Key} {amount : Nat} {entries : List (Key × Nat)} :
    other ∈ (bump key amount entries).map Prod.fst ↔
      other = key ∨ other ∈ entries.map Prod.fst := by
  induction entries with
  | nil => simp [bump]
  | cons entry rest ih =>
      obtain ⟨first, present⟩ := entry
      rw [bump]
      split
      · next same =>
          rw [List.map_cons, List.map_cons, List.mem_cons, same, ← or_assoc, or_self]
      · rw [List.map_cons, List.map_cons, List.mem_cons, List.mem_cons, ih]
        exact or_left_comm

theorem nodup_bump {key : Key} {amount : Nat} {entries : List (Key × Nat)}
    (distinct : (entries.map Prod.fst).Nodup) :
    ((bump key amount entries).map Prod.fst).Nodup := by
  induction entries with
  | nil => exact List.nodup_singleton key
  | cons entry rest ih =>
      obtain ⟨first, present⟩ := entry
      obtain ⟨absent, restDistinct⟩ := List.nodup_cons.mp distinct
      rw [bump]
      split
      · exact distinct
      · next other =>
          refine List.nodup_cons.mpr ⟨?_, ih restDistinct⟩
          rw [mem_keys_bump]
          exact fun found => found.elim other absent

def add (tally : Tally Key) (key : Key) (amount : Nat) : Tally Key :=
  { entries := bump key amount tally.entries, distinct := nodup_bump tally.distinct }

/-- How often each key stands in a list. -/
def ofKeys (keys : List Key) : Tally Key := keys.foldl (fun tally key => tally.add key 1) empty

/-- Add the amounts of another tally. -/
def merge (tally other : Tally Key) : Tally Key :=
  other.entries.foldl (fun tally (key, amount) => tally.add key amount) tally

section Amounts

variable {tally other : Tally Key} {key wanted : Key} {amount : Nat}

@[simp] theorem get_empty : (empty : Tally Key).get key = 0 := rfl

theorem lookup_entry {first : Key} {present : Nat} {rest : List (Key × Nat)} :
    ((first, present) :: rest).lookup wanted =
      if wanted = first then some present else rest.lookup wanted := by
  rw [List.lookup_cons]
  by_cases same : wanted = first
  · rw [if_pos same, beq_iff_eq.mpr same]
  · rw [if_neg same, beq_eq_false_iff_ne.mpr same]

@[simp] theorem get_add :
    (tally.add key amount).get wanted =
      tally.get wanted + if wanted = key then amount else 0 := by
  suffices ∀ entries : List (Key × Nat), ((bump key amount entries).lookup wanted).getD 0 =
      (entries.lookup wanted).getD 0 + if wanted = key then amount else 0 from this tally.entries
  intro entries
  induction entries with
  | nil =>
      rw [bump, lookup_entry]
      by_cases same : wanted = key <;> simp [same]
  | cons entry rest ih =>
      obtain ⟨first, present⟩ := entry
      rw [bump, lookup_entry]
      by_cases same : first = key
      · rw [if_pos same, lookup_entry]
        by_cases isFirst : wanted = first <;> simp_all
      · rw [if_neg same, lookup_entry]
        by_cases isFirst : wanted = first <;> simp_all

theorem total_add : (tally.add key amount).total = tally.total + amount := by
  suffices ∀ entries : List (Key × Nat), ((bump key amount entries).map Prod.snd).sum =
      (entries.map Prod.snd).sum + amount from this tally.entries
  intro entries
  induction entries with
  | nil => simp [bump]
  | cons entry rest ih =>
      obtain ⟨first, present⟩ := entry
      rw [bump]
      split
      · simp only [List.map_cons, List.sum_cons]
        omega
      · simp only [List.map_cons, List.sum_cons, ih]
        omega

theorem get_foldl_add (keys : List Key) (tally : Tally Key) :
    (keys.foldl (fun tally key => tally.add key 1) tally).get wanted =
      tally.get wanted + keys.count wanted := by
  induction keys generalizing tally with
  | nil => rfl
  | cons key keys ih =>
      rw [List.foldl_cons, ih, get_add, List.count_cons]
      by_cases same : wanted = key
      · subst same
        simp only [if_true, BEq.rfl]
        omega
      · simp [same, Ne.symm same]

theorem get_ofKeys (keys : List Key) : (ofKeys keys).get wanted = keys.count wanted :=
  (get_foldl_add keys empty).trans (Nat.zero_add _)

theorem total_foldl_add (keys : List Key) (tally : Tally Key) :
    (keys.foldl (fun tally key => tally.add key 1) tally).total =
      tally.total + keys.length := by
  induction keys generalizing tally with
  | nil => rfl
  | cons key keys ih =>
      rw [List.foldl_cons, ih, total_add, List.length_cons]
      omega

theorem total_ofKeys (keys : List Key) : (ofKeys keys).total = keys.length :=
  (total_foldl_add keys empty).trans (Nat.zero_add _)

theorem get_merge : (tally.merge other).get wanted = tally.get wanted + other.get wanted := by
  suffices ∀ entries : List (Key × Nat), (entries.map Prod.fst).Nodup → ∀ tally : Tally Key,
      (entries.foldl (fun tally (key, amount) => tally.add key amount) tally).get wanted =
        tally.get wanted + (entries.lookup wanted).getD 0 from
    this other.entries other.distinct tally
  intro entries distinct
  induction entries with
  | nil => exact fun tally => rfl
  | cons entry rest ih =>
      intro tally
      obtain ⟨first, present⟩ := entry
      obtain ⟨absent, restDistinct⟩ := List.nodup_cons.mp distinct
      rw [List.foldl_cons, ih restDistinct, get_add]
      by_cases same : wanted = first
      · have none : rest.lookup wanted = none := by
          rw [List.lookup_eq_none_iff]
          intro found member
          refine bne_iff_ne.mpr fun isFirst => absent ?_
          exact List.mem_map.mpr ⟨found, member, isFirst.symm.trans same⟩
        rw [lookup_entry, if_pos same, if_pos same, none]
        rfl
      · rw [lookup_entry, if_neg same, if_neg same]
        rfl

end Amounts

end Tally

end NookOs.Lib
