/-
Module: NookOs.Lib.Kleene
Purpose: Truth with an unknown value, and what holds of one or of every truth of a
  list.
Trusted boundary: none
Main exports: Truth, Truth.not, anyOf, allOf, not_anyOf
-/

namespace NookOs.Lib.Kleene

inductive Truth where
  | holds
  | fails
  | unknown
deriving DecidableEq

namespace Truth

def not : Truth → Truth
  | holds => fails
  | fails => holds
  | unknown => unknown

def or : Truth → Truth → Truth
  | holds, _ => holds
  | _, holds => holds
  | fails, fails => fails
  | _, _ => unknown

def and : Truth → Truth → Truth
  | fails, _ => fails
  | _, fails => fails
  | holds, holds => holds
  | _, _ => unknown

@[simp] theorem not_not (truth : Truth) : truth.not.not = truth := by
  cases truth <;> rfl

@[simp] theorem not_or (one two : Truth) : (one.or two).not = one.not.and two.not := by
  cases one <;> cases two <;> rfl

end Truth

/-- Whether one of the truths holds; none of an empty list does. -/
def anyOf : List Truth → Truth
  | [] => .fails
  | truth :: rest => truth.or (anyOf rest)

/-- Whether every one of them does; of an empty list all do. -/
def allOf : List Truth → Truth
  | [] => .holds
  | truth :: rest => truth.and (allOf rest)

theorem not_anyOf (truths : List Truth) : (anyOf truths).not = allOf (truths.map Truth.not) := by
  induction truths with
  | nil => rfl
  | cons truth rest ih =>
      rw [anyOf, Truth.not_or, ih]
      rfl

end NookOs.Lib.Kleene
