/-
Module: NookOs.Lib.Run
Purpose: Finite runs of a labelled partial step function, with the induction
  rules every interleaving argument of this development uses.
Trusted boundary: none
Main exports: run, Along, run_append_iff, run_invariant, traceOf, run_simulates
-/
import Mathlib.Tactic.Common
import Mathlib.Data.List.Basic

namespace NookOs.Lib

/-!
A concurrent component is modelled by one partial step function
`step : State → Label → Option State`.  A label names which party moves and
everything the environment chooses for it (the time it reads, the argument it
was called with), so one list of labels is one interleaving and quantifying
over lists of labels is quantifying over every order of the parties' steps.

`run` executes such a list and is computable, so a run can be evaluated.
`Along` says that every step taken on the way has a property of its state
before, its label and its state after.
-/

variable {State Label : Type*}

/-- Take the labelled steps in order.  A label whose guard fails ends the
attempt: the list was not an interleaving of the component. -/
def run (step : State → Label → Option State) : State → List Label → Option State
  | state, [] => some state
  | state, label :: labels =>
      match step state label with
      | none => none
      | some next => run step next labels

/-- Every step taken along the labels has the property, which may speak about
the state before the step, the label, and the state after it. -/
def Along (step : State → Label → Option State)
    (property : State → Label → State → Prop) : State → List Label → Prop
  | _, [] => True
  | state, label :: labels =>
      match step state label with
      | none => True
      | some next =>
          property state label next ∧ Along step property next labels

instance Along.decidable (step : State → Label → Option State)
    (property : State → Label → State → Prop)
    [∀ before label after, Decidable (property before label after)] :
    ∀ (state : State) (labels : List Label),
      Decidable (Along step property state labels)
  | _, [] => isTrue trivial
  | state, label :: labels => by
      unfold Along
      cases step state label with
      | none => exact isTrue trivial
      | some next =>
          have := Along.decidable step property next labels
          exact inferInstanceAs (Decidable (_ ∧ _))

section Rules

variable {step : State → Label → Option State}

@[simp] theorem run_nil (state : State) : run step state [] = some state := rfl

variable {labels : List Label} {state final : State}

/-- A nonempty run takes its first step and runs on. -/
theorem run_cons_iff {label : Label} :
    run step state (label :: labels) = some final ↔
      ∃ next, step state label = some next ∧
        run step next labels = some final := by
  change (match step state label with
    | none => none
    | some next => run step next labels) = some final ↔ _
  cases step state label with
  | none => exact ⟨nofun, fun ⟨_, taken, _⟩ => nomatch taken⟩
  | some next =>
      constructor
      · intro ran
        exact ⟨next, rfl, ran⟩
      · rintro ⟨_, taken, ran⟩
        cases taken
        exact ran

variable {property : State → Label → State → Prop}

/-- A property along a nonempty run is one of its first step, where it is taken, and along the
rest. -/
theorem along_cons_iff {state : State} {label : Label} :
    Along step property state (label :: labels) ↔
      ∀ next, step state label = some next →
        property state label next ∧ Along step property next labels := by
  change (match step state label with
    | none => True
    | some next => property state label next ∧ Along step property next labels) ↔ _
  cases step state label with
  | none => exact ⟨nofun, fun _ => trivial⟩
  | some next =>
      constructor
      · rintro both _ taken
        cases taken
        exact both
      · intro all
        exact all next rfl

theorem along_cons {state next : State} {label : Label} (taken : step state label = some next) :
    Along step property state (label :: labels) ↔
      property state label next ∧ Along step property next labels := by
  rw [along_cons_iff, taken]
  simp only [Option.some.injEq, forall_eq']

/-- A property of steps that weakens to another weakens along every run. -/
theorem Along.imp {weak strong : State → Label → State → Prop} {state : State}
    (along : Along step strong state labels)
    (weaken : ∀ before label after, step before label = some after →
      strong before label after → weak before label after) :
    Along step weak state labels := by
  induction labels generalizing state with
  | nil => trivial
  | cons label labels ih =>
      rw [along_cons_iff] at along ⊢
      intro next taken
      obtain ⟨holds, later⟩ := along next taken
      exact ⟨weaken _ _ _ taken holds, ih later⟩

/-- A property every step from an invariant state has, holds along every run. -/
theorem along_of_invariant (invariant : State → Prop) {state : State}
    (preserved : ∀ before label after, invariant before →
      step before label = some after → invariant after)
    (holds : ∀ before label after, invariant before →
      step before label = some after → property before label after)
    (initial : invariant state) : Along step property state labels := by
  induction labels generalizing state with
  | nil => trivial
  | cons label labels ih =>
      rw [along_cons_iff]
      intro next taken
      exact ⟨holds _ _ _ initial taken, ih (preserved _ _ _ initial taken)⟩

/-- Along a run whose steps all meet a condition, an invariant that such steps
preserve gives every step what it gives a single one. -/
theorem Along.of_invariant {condition property : State → Label → State → Prop} {state : State}
    (along : Along step condition state labels) (invariant : State → Prop)
    (preserved : ∀ before label after, invariant before →
      step before label = some after → condition before label after →
        invariant after)
    (holds : ∀ before label after, invariant before →
      step before label = some after → condition before label after →
        property before label after)
    (initial : invariant state) : Along step property state labels := by
  induction labels generalizing state with
  | nil => trivial
  | cons label labels ih =>
      rw [along_cons_iff] at along ⊢
      intro next taken
      obtain ⟨met, later⟩ := along next taken
      exact ⟨holds _ _ _ initial taken met, ih later (preserved _ _ _ initial taken met)⟩

/-- Two properties of steps hold along the same runs when an invariant makes
them agree on each step.  Only steps that have the property need to preserve
the invariant: the first one without it already settles both sides. -/
theorem along_iff_of_invariant {first second : State → Label → State → Prop}
    (invariant : State → Prop) {state : State}
    (preserved : ∀ before label after, invariant before →
      step before label = some after → first before label after →
        invariant after)
    (agree : ∀ before label after, invariant before →
      step before label = some after →
        (first before label after ↔ second before label after))
    (initial : invariant state) :
    Along step first state labels ↔ Along step second state labels := by
  induction labels generalizing state with
  | nil => exact Iff.rfl
  | cons label labels ih =>
      cases taken : step state label with
      | none => simp [along_cons_iff, taken]
      | some next =>
          rw [along_cons taken, along_cons taken,
            ← agree _ _ _ initial taken]
          constructor
          · rintro ⟨holds, rest⟩
            exact ⟨holds, (ih
              (preserved _ _ _ initial taken holds)).mp rest⟩
          · rintro ⟨holds, rest⟩
            exact ⟨holds, (ih
              (preserved _ _ _ initial taken holds)).mpr rest⟩

/-- Running a concatenation runs its halves one after the other. -/
theorem run_append_iff {first second : List Label} :
    run step state (first ++ second) = some final ↔
      ∃ middle, run step state first = some middle ∧
        run step middle second = some final := by
  induction first generalizing state with
  | nil => simp
  | cons label labels ih =>
      rw [List.cons_append, run_cons_iff]
      constructor
      · rintro ⟨next, taken, rest⟩
        obtain ⟨middle, toMiddle, fromMiddle⟩ := ih.mp rest
        exact ⟨middle, run_cons_iff.mpr ⟨next, taken, toMiddle⟩, fromMiddle⟩
      · rintro ⟨middle, toMiddle, fromMiddle⟩
        obtain ⟨next, taken, rest⟩ := run_cons_iff.mp toMiddle
        exact ⟨next, taken, ih.mpr ⟨middle, rest, fromMiddle⟩⟩

/-- The rule for runs whose steps all meet a condition: an invariant that such
steps preserve holds where the run ends. -/
theorem Along.run_invariant {condition : State → Label → State → Prop}
    (along : Along step condition state labels) (invariant : State → Prop)
    (preserved : ∀ before label after, invariant before →
      step before label = some after → condition before label after →
        invariant after)
    (initial : invariant state) (ran : run step state labels = some final) :
    invariant final := by
  induction labels generalizing state with
  | nil =>
      cases ran
      exact initial
  | cons label labels ih =>
      obtain ⟨next, taken, rest⟩ := run_cons_iff.mp ran
      have both := (along_cons taken).mp along
      exact ih both.2
        (preserved _ _ _ initial taken both.1) rest

/-- The last step of a run has what every step along it has. -/
theorem Along.last {state before after : State} {label : Label}
    (along : Along step property state (labels ++ [label]))
    (ran : run step state labels = some before) (taken : step before label = some after) :
    property before label after := by
  induction labels generalizing state with
  | nil =>
      cases ran
      exact ((along_cons taken).mp along).1
  | cons first rest ih =>
      obtain ⟨next, stepped, ranRest⟩ := run_cons_iff.mp ran
      exact ih ((along_cons stepped).mp along).2 ranRest

/-- The rule for all runs: an invariant every step preserves holds in every
state a run reaches. -/
theorem run_invariant (invariant : State → Prop)
    (preserved : ∀ before label after, invariant before →
      step before label = some after → invariant after)
    (initial : invariant state) (ran : run step state labels = some final) :
    invariant final := by
  induction labels generalizing state with
  | nil =>
      cases ran
      exact initial
  | cons label labels ih =>
      obtain ⟨next, taken, rest⟩ := run_cons_iff.mp ran
      exact ih (preserved _ _ _ initial taken) rest

/-- What the steps along the labels do, one after the other, where what a step
does may depend on the state it is taken in. -/
def traceOf {Event : Type*} (step : State → Label → Option State)
    (events : State → Label → List Event) : State → List Label → List Event
  | _, [] => []
  | state, label :: labels =>
      match step state label with
      | none => []
      | some next => events state label ++ traceOf step events next labels

theorem traceOf_cons {Event : Type*} {events : State → Label → List Event} {state next : State}
    {label : Label} (taken : step state label = some next) :
    traceOf step events state (label :: labels) =
      events state label ++ traceOf step events next labels := by
  rw [traceOf, taken]

/-- What a run has done includes what its labels do in any state. -/
theorem mem_traceOf {Event : Type*} {events : State → Label → List Event} {label : Label}
    {event : Event} (ran : run step state labels = some final) (member : label ∈ labels)
    (does : ∀ state, event ∈ events state label) :
    event ∈ traceOf step events state labels := by
  induction labels generalizing state with
  | nil => contradiction
  | cons first labels ih =>
      obtain ⟨next, taken, rest⟩ := run_cons_iff.mp ran
      rw [traceOf_cons taken]
      rcases List.mem_cons.mp member with rfl | later
      · exact List.mem_append_left _ (does state)
      · exact List.mem_append_right _ (ih rest later)

/-- What a run has done, one of its labels did. -/
theorem label_of_mem_traceOf {Event : Type*} {events : State → Label → List Event} {state : State}
    {event : Event} (member : event ∈ traceOf step events state labels) :
    ∃ label ∈ labels, ∃ before, event ∈ events before label := by
  induction labels generalizing state with
  | nil => contradiction
  | cons first labels ih =>
      unfold traceOf at member
      cases taken : step state first with
      | none =>
          rw [taken] at member
          contradiction
      | some next =>
          rw [taken] at member
          rcases List.mem_append.mp member with here | later
          · exact ⟨first, List.mem_cons_self .., state, here⟩
          · obtain ⟨label, inLabels, did⟩ := ih later
            exact ⟨label, List.mem_cons_of_mem _ inLabels, did⟩

/-- The rule for refinement: when an invariant makes every step's events a run
of an abstract machine between the abstractions of its states, the events of a
whole run are one too. -/
theorem run_simulates {Abstract Event : Type*} {abstractStep : Abstract → Event → Option Abstract}
    (abstraction : State → Abstract) (events : State → Label → List Event)
    (invariant : State → Prop)
    (simulated : ∀ before label after, invariant before →
      step before label = some after →
        invariant after ∧
          run abstractStep (abstraction before) (events before label) =
            some (abstraction after))
    (initial : invariant state) (ran : run step state labels = some final) :
    run abstractStep (abstraction state) (traceOf step events state labels) =
      some (abstraction final) := by
  induction labels generalizing state with
  | nil =>
      cases ran
      rfl
  | cons label labels ih =>
      obtain ⟨next, taken, rest⟩ := run_cons_iff.mp ran
      obtain ⟨holds, moved⟩ := simulated _ _ _ initial taken
      rw [traceOf_cons taken]
      exact run_append_iff.mpr
        ⟨abstraction next, moved, ih holds rest⟩

end Rules

end NookOs.Lib
