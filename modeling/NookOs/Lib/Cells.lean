/-
Module: NookOs.Lib.Cells
Purpose: Operations that each act on one cell of a state, and what a loop of
  them over distinct cells does.
Trusted boundary: none
Main exports: ActsOn, ActsOn.comp, ActsOn.ite, ActsOn.foldl
-/
import Mathlib.Data.List.Nodup

namespace NookOs.Lib

/-!
`view state cell` is all that a state says about a cell.  An operation acts on
one cell when it changes that cell's view as a function of the view alone and
no other view at all.  A loop over distinct cells then changes each listed view
once, in whatever order it runs.
-/

variable {State Cell View : Type*} [DecidableEq Cell]

/-- `operate cell` changes the view of `cell` by `change` and no other view. -/
def ActsOn (view : State → Cell → View) (operate : Cell → State → State)
    (change : View → View) : Prop :=
  ∀ state cell other, view (operate cell state) other =
    if other = cell then change (view state other) else view state other

variable {view : State → Cell → View}

/-- Two operations on the same cell, one after the other. -/
theorem ActsOn.comp {first second : Cell → State → State} {change later : View → View}
    (firstActs : ActsOn view first change) (secondActs : ActsOn view second later) :
    ActsOn view (fun cell state => second cell (first cell state))
      (fun seen => later (change seen)) := by
  intro state cell other
  rw [secondActs, firstActs]
  by_cases here : other = cell <;> simp [here]

/-- A choice between two operations that the cell's own view decides. -/
theorem ActsOn.ite {first second : Cell → State → State} {change later : View → View}
    (test : State → Cell → Bool) (testView : View → Bool)
    (reads : ∀ state cell, test state cell = testView (view state cell))
    (firstActs : ActsOn view first change) (secondActs : ActsOn view second later) :
    ActsOn view
      (fun cell state =>
        if test state cell then first cell state else second cell state)
      (fun seen => if testView seen then change seen else later seen) := by
  intro state cell other
  simp only
  by_cases holds : test state cell = true
  · rw [if_pos holds, firstActs]
    by_cases here : other = cell
    · rw [if_pos here, if_pos here, here, if_pos (reads state cell ▸ holds)]
    · rw [if_neg here, if_neg here]
  · rw [if_neg holds, secondActs]
    by_cases here : other = cell
    · rw [if_pos here, if_pos here, here, if_neg (reads state cell ▸ holds)]
    · rw [if_neg here, if_neg here]

/-- A loop over distinct cells changes every listed view once. -/
theorem ActsOn.foldl {operate : Cell → State → State} {change : View → View}
    (acts : ActsOn view operate change) {cells : List Cell}
    (distinct : cells.Nodup) (state : State) (other : Cell) :
    view (cells.foldl (fun state cell => operate cell state) state) other =
      if other ∈ cells then change (view state other) else view state other := by
  induction cells generalizing state with
  | nil => rfl
  | cons cell cells ih =>
      obtain ⟨absent, restDistinct⟩ := List.nodup_cons.mp distinct
      rw [List.foldl_cons, ih restDistinct, acts]
      by_cases here : other = cell
      · subst here
        simp [absent]
      · simp [here]

end NookOs.Lib
