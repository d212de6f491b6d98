/-
Module: NookOs.Lib.Fallible
Purpose: What a computation that may fail has done when it has not.
Trusted boundary: none
Main exports: bind_ok, map_ok, bind_ok_iff, map_ok_iff, mapM_ok_iff, forM_ok_iff
-/
import Mathlib.Data.List.Forall2

namespace NookOs.Lib.Fallible

variable {Failure First Second : Type*}

theorem map_ok_iff {first : Except Failure First} {change : First → Second} {answer : Second} :
    first.map change = .ok answer ↔ ∃ value, first = .ok value ∧ change value = answer := by
  cases first with
  | error | ok => simp [Except.map]

theorem map_ok {first : Except Failure First} {change : First → Second} {answer : Second}
    (ran : first.map change = .ok answer) :
    ∃ value, first = .ok value ∧ change value = answer :=
  map_ok_iff.mp ran

section Bind

variable {Failure First Second : Type}

theorem bind_ok_iff {first : Except Failure First} {rest : First → Except Failure Second}
    {answer : Second} :
    (first >>= rest) = .ok answer ↔ ∃ value, first = .ok value ∧ rest value = .ok answer := by
  cases first with
  | error | ok => simp [bind, Except.bind]

theorem bind_ok {first : Except Failure First} {rest : First → Except Failure Second}
    {answer : Second} (ran : (first >>= rest) = .ok answer) :
    ∃ value, first = .ok value ∧ rest value = .ok answer :=
  bind_ok_iff.mp ran

/-- A check of several items succeeds when each of them does. -/
theorem forM_ok_iff {check : First → Except Failure PUnit} {items : List First} :
    items.forM check = .ok ⟨⟩ ↔ ∀ item ∈ items, check item = .ok ⟨⟩ := by
  induction items with
  | nil => simp [List.forM, pure, Except.pure]
  | cons item rest ih =>
      rw [List.forall_mem_cons, ← ih]
      change (check item).bind (fun _ => rest.forM check) = .ok ⟨⟩ ↔ _
      cases check item with
      | error | ok => simp [Except.bind]

/-- A list is gone through when every element is. -/
theorem mapM_ok_iff {change : First → Except Failure Second} {items : List First}
    {answers : List Second} :
    items.mapM change = .ok answers ↔
      List.Forall₂ (fun item answer => change item = .ok answer) items answers := by
  constructor
  · intro ran
    induction items generalizing answers with
    | nil =>
      cases ran
      exact .nil
    | cons item rest ih =>
      rw [List.mapM_cons] at ran
      obtain ⟨answer, changed, ran⟩ := bind_ok ran
      obtain ⟨others, went, ran⟩ := bind_ok ran
      cases ran
      exact .cons changed (ih went)
  · intro each
    induction each with
    | nil => rfl
    | cons changed _ ih =>
      rw [List.mapM_cons, changed, ih]
      rfl

end Bind

end NookOs.Lib.Fallible
