/-
Module: NookOs.Lib.Program
Purpose: Calls that share a store as programs of single statements, their
  interleavings, and the rely-guarantee rule that carries one call's proof to
  every interleaving.
Trusted boundary: none
Main exports: Program, Service, Service.step, Contract, Contract.Yields, Contract.ofStore
-/
import NookOs.Lib.Run

namespace NookOs.Lib

/-!
A handler is written as a program: what it sends to the store next, and how it
goes on with whatever it is replied.  Each statement is atomic and nothing
else is, so between two statements of a call any other call may run and the
world may change.  A statement that fails is a reply like any other.

A call in flight remembers its past, the statements it has had answered.  The
past is a ghost: no program can read it, but a contract may speak about it.
-/

universe u v

/-- What is left of a call: its answer, or the statement it runs next and how
it goes on with the reply. -/
inductive Program (Statement : Type u) (Reply : Statement → Type v) (Answer : Type v)
  | answer (value : Answer)
  | statement (request : Statement) (next : Reply request → Program Statement Reply Answer)

/-- A statement that was answered, and the answer. -/
abbrev Exchange (Statement : Type u) (Reply : Statement → Type v) :=
  (request : Statement) × Reply request

namespace Program

variable {Statement : Type u} {Reply : Statement → Type v} {First Second : Type v}

/-- Run the first program and go on with what it answers. -/
def bind : Program Statement Reply First → (First → Program Statement Reply Second) →
    Program Statement Reply Second
  | .answer value, next => next value
  | .statement request rest, next => .statement request fun reply => (rest reply).bind next

instance : Monad (Program Statement Reply) where
  pure := .answer
  bind := bind

theorem bind_answer (program : Program Statement Reply First) :
    program.bind .answer = program := by
  induction program with
  | answer value => rfl
  | statement request rest ih =>
      exact congrArg _ (funext ih)

theorem bind_bind {Third : Type v} (program : Program Statement Reply First)
    (next : First → Program Statement Reply Second)
    (last : Second → Program Statement Reply Third) :
    (program.bind next).bind last = program.bind fun value => (next value).bind last := by
  induction program with
  | answer value => rfl
  | statement request rest ih =>
      exact congrArg _ (funext ih)

instance : LawfulMonad (Program Statement Reply) :=
  LawfulMonad.mk' _ bind_answer (fun _ _ => rfl) bind_bind

/-- The statement that a program runs next. -/
def head : Program Statement Reply First → Option Statement
  | .answer _ => none
  | .statement request _ => some request

/-- Run one statement and answer with its reply. -/
def send (request : Statement) : Program Statement Reply (Reply request) :=
  .statement request .answer

/-- Programs whose statements may fail, and which may fail with them. -/
abbrev Failing (Statement : Type u) (Value : Statement → Type v) (Failure : Type v) :=
  ExceptT Failure (Program Statement fun request => Except Failure (Value request))

section Failing

variable {Value : Statement → Type v} {Failure : Type v}

/-- Run one statement and fail where it fails. -/
def perform (request : Statement) : Failing Statement Value Failure (Value request) :=
  .mk (send request)

/-- Run one statement and go on with its reply, a failure too. -/
def attempt (request : Statement) :
    Failing Statement Value Failure (Except Failure (Value request)) :=
  .lift (send request)

/-- Run a program and go on with how it ended. -/
def caught {First : Type v} (program : Failing Statement Value Failure First) :
    Failing Statement Value Failure (Except Failure First) :=
  .lift program.run

/-- Fail unless the condition holds. -/
def ensure (condition : Bool) (failure : Failure) : Failing Statement Value Failure PUnit :=
  if condition then pure ⟨⟩ else throw failure

end Failing

end Program

/-- A store, the statements it executes and the calls that are made on it.  A
choice is what the environment decides about one statement: the time it reads,
the identifier it is given, whether it fails.  An event changes the store
outside every call. -/
structure Service (Store Choice Event Caller Statement : Type*)
    (Reply : Statement → Type v) (Answer : Type v) where
  handler : Caller → Program Statement Reply Answer
  execute : Store → Choice → (request : Statement) → Option (Store × Reply request)
  happen : Store → Event → Option Store

namespace Service

section Definitions

variable (Store : Type*) {Statement : Type u} (Caller : Type*) (Reply : Statement → Type v)
  (Answer : Type v)

/-- A call in flight. -/
structure Call where
  caller : Caller
  past : List (Exchange Statement Reply)
  program : Program Statement Reply Answer

/-- A call that has answered. -/
structure Answered where
  caller : Caller
  past : List (Exchange Statement Reply)
  value : Answer

/-- The store, the calls in flight, and the calls that have answered in the
order of their answers. -/
structure State where
  store : Store
  running : List (Call Caller Reply Answer)
  answered : List (Answered Caller Reply Answer)

end Definitions

/-- Who moves next. -/
inductive Move (Choice Event Caller : Type*)
  | call (caller : Caller)
  | goOn (index : Nat) (choice : Choice)
  | crash (index : Nat)
  | happens (event : Event)
deriving DecidableEq

variable {Store Choice Event Caller : Type*} {Statement : Type u}
  {Reply : Statement → Type v} {Answer : Type v}
  (service : Service Store Choice Event Caller Statement Reply Answer)

/-- One more step of a call: its answer leaves, or its next statement runs. -/
def resume (state : State Store Caller Reply Answer) (index : Nat) (choice : Choice) :
    Option (State Store Caller Reply Answer) :=
  match state.running[index]? with
  | none => none
  | some ⟨caller, past, .answer value⟩ =>
      some { state with
        running := state.running.eraseIdx index
        answered := state.answered ++ [⟨caller, past, value⟩] }
  | some ⟨caller, past, .statement request next⟩ =>
      match service.execute state.store choice request with
      | none => none
      | some (store, reply) =>
          some { state with
            store := store
            running := state.running.set index
              ⟨caller, past ++ [⟨request, reply⟩], next reply⟩ }

/-- One step of the service: a call is made, goes on or is dropped, or the
world changes. -/
def step (state : State Store Caller Reply Answer) :
    Move Choice Event Caller → Option (State Store Caller Reply Answer)
  | .call caller =>
      some { state with running := state.running ++ [⟨caller, [], service.handler caller⟩] }
  | .goOn index choice => service.resume state index choice
  | .crash index =>
      if index < state.running.length then
        some { state with running := state.running.eraseIdx index }
      else none
  | .happens event => (service.happen state.store event).map fun store =>
      { state with store := store }

/-- No call has been made yet. -/
def start (store : Store) : State Store Caller Reply Answer :=
  { store := store, running := [], answered := [] }

/-- A whole program with nothing in between, one choice for each statement. -/
def finish {Value : Type v} : Program Statement Reply Value → Store → List Choice →
    Option (Store × Value)
  | .answer value, store, [] => some (store, value)
  | .answer _, _, _ :: _ => none
  | .statement _ _, _, [] => none
  | .statement request next, store, choice :: choices =>
      match service.execute store choice request with
      | none => none
      | some (after, reply) => finish (next reply) after choices

/-- A whole program with nothing in between and one choice for all of it. -/
def finishAt {Value : Type v} (choice : Choice) : Program Statement Reply Value → Store →
    Option (Store × Value)
  | .answer value, store => some (store, value)
  | .statement request next, store =>
      match service.execute store choice request with
      | none => none
      | some (after, reply) => finishAt choice (next reply) after

/-- A program that finishes has run its first half to the end, and then the
other. -/
theorem finish_bind {First Second : Type v} {program : Program Statement Reply First}
    {next : First → Program Statement Reply Second} {store after : Store}
    {choices : List Choice} {value : Second}
    (finished : service.finish (program.bind next) store choices = some (after, value)) :
    ∃ first second middle between, choices = first ++ second ∧
      service.finish program store first = some (middle, between) ∧
      service.finish (next between) middle second = some (after, value) := by
  induction program generalizing store choices with
  | answer between => exact ⟨[], choices, store, between, rfl, rfl, finished⟩
  | statement request rest ih =>
      cases choices with
      | nil => cases finished
      | cons choice choices =>
          simp only [Program.bind, finish] at finished
          split at finished
          case h_1 => cases finished
          case h_2 moved reply ran =>
            obtain ⟨first, second, middle, between, split, one, two⟩ :=
              ih reply finished
            refine ⟨choice :: first, second, middle, between, by rw [split]; rfl, ?_, two⟩
            simp only [finish, ran]
            exact one

/-- A program that has answered runs no statement. -/
theorem finish_answer {Value : Type v} {value given : Value} {store after : Store}
    {choices : List Choice} (finished : service.finish
      (.answer value : Program Statement Reply Value) store choices = some (after, given)) :
    choices = [] ∧ after = store ∧ given = value := by
  cases choices with
  | nil =>
      cases finished
      exact ⟨rfl, rfl, rfl⟩
  | cons => cases finished

variable {choice : Choice}

theorem finishAt_bind {First Second : Type v} {program : Program Statement Reply First}
    {next : First → Program Statement Reply Second} {store : Store} :
    service.finishAt choice (program.bind next) store =
      match service.finishAt choice program store with
      | none => none
      | some (middle, value) => service.finishAt choice (next value) middle := by
  induction program generalizing store with
  | answer value => rfl
  | statement request rest ih =>
      simp only [Program.bind, finishAt]
      cases service.execute store choice request with
      | none => rfl
      | some told => exact ih told.2

section Failing

variable {Value : Statement → Type v} {Failure First Second : Type v}
  {failing : Service Store Choice Event Caller Statement
    (fun request => Except Failure (Value request)) Answer}
  {store after : Store} {choices : List Choice}

/-- A failing program has failed in its first half, or has succeeded there and gone on
with the other. -/
theorem finish_failing_bind {program : Program.Failing Statement Value Failure First}
    {next : First → Program.Failing Statement Value Failure Second} {result : Except Failure Second}
    (finished : failing.finish (program >>= next).run store choices = some (after, result)) :
    (∃ failure, result = .error failure ∧
      failing.finish program.run store choices = some (after, .error failure)) ∨
    ∃ first second middle between, choices = first ++ second ∧
      failing.finish program.run store first = some (middle, .ok between) ∧
      failing.finish (next between).run middle second = some (after, result) := by
  obtain ⟨first, second, middle, value, split, one, two⟩ := failing.finish_bind finished
  cases value with
  | error failure =>
      obtain ⟨none, rfl, rfl⟩ := failing.finish_answer two
      rw [none, List.append_nil] at split
      rw [split]
      exact Or.inl ⟨failure, rfl, one⟩
  | ok between => exact Or.inr ⟨first, second, middle, between, split, one, two⟩

/-- A failing program that succeeds has succeeded in its first half, and then
in the other. -/
theorem finish_ok_bind {program : Program.Failing Statement Value Failure First}
    {next : First → Program.Failing Statement Value Failure Second} {value : Second}
    (finished : failing.finish (program >>= next).run store choices = some (after, .ok value)) :
    ∃ first second middle between, choices = first ++ second ∧
      failing.finish program.run store first = some (middle, .ok between) ∧
      failing.finish (next between).run middle second = some (after, .ok value) := by
  cases finish_failing_bind finished with
  | inl failed =>
      obtain ⟨failure, isError, _⟩ := failed
      cases isError
  | inr succeeded => exact succeeded

theorem finish_pure {value given : First}
    (finished : failing.finish
      (pure given : Program.Failing Statement Value Failure First).run store choices =
        some (after, .ok value)) : choices = [] ∧ after = store ∧ value = given := by
  cases choices with
  | nil =>
      cases finished
      exact ⟨rfl, rfl, rfl⟩
  | cons => cases finished

theorem finish_throw {failure : Failure} {value : First} :
    failing.finish (throw failure : Program.Failing Statement Value Failure First).run
      store choices ≠ some (after, .ok value) := by
  intro finished
  cases choices with
  | nil | cons => cases finished

theorem finish_ensure {condition : Bool} {failure : Failure} {value : PUnit}
    (finished : failing.finish
      (Program.ensure condition failure : Program.Failing Statement Value Failure PUnit).run
      store choices = some (after, .ok value)) :
    choices = [] ∧ after = store ∧ condition = true := by
  cases condition with
  | false => exact absurd finished finish_throw
  | true =>
      obtain ⟨none, same, -⟩ := finish_pure finished
      exact ⟨none, same, rfl⟩

theorem finish_perform {request : Statement} {value : Value request}
    (finished : failing.finish
      (Program.perform request : Program.Failing Statement Value Failure _).run
      store choices = some (after, .ok value)) :
    ∃ choice, choices = [choice] ∧
      failing.execute store choice request = some (after, .ok value) := by
  cases choices with
  | nil => cases finished
  | cons choice rest =>
      simp only [Program.perform, Program.send, ExceptT.run_mk, finish] at finished
      split at finished
      case h_1 => cases finished
      case h_2 moved reply ran =>
        cases rest with
        | nil =>
            cases finished
            exact ⟨choice, rfl, ran⟩
        | cons => cases finished

theorem finish_attempt {request : Statement} {result : Except Failure (Value request)}
    (finished : failing.finish
      (Program.attempt request : Program.Failing Statement Value Failure _).run
      store choices = some (after, .ok result)) :
    ∃ choice, choices = [choice] ∧
      failing.execute store choice request = some (after, result) := by
  obtain ⟨first, second, middle, between, rfl, one, two⟩ := failing.finish_bind finished
  cases second with
  | cons => cases two
  | nil =>
      cases two
      cases first with
      | nil => cases one
      | cons choice rest =>
          simp only [Program.send, finish] at one
          split at one
          case h_1 => cases one
          case h_2 moved reply ran =>
            cases rest with
            | nil =>
                cases one
                exact ⟨choice, rfl, ran⟩
            | cons => cases one

/-- A program that begins with a statement goes on with its reply, or fails where the
statement does. -/
theorem finish_perform_bind {request : Statement}
    {next : Value request → Program.Failing Statement Value Failure Second}
    {result : Except Failure Second}
    (finished : failing.finish (Program.perform request >>= next).run store choices =
      some (after, result)) :
    ∃ choice rest middle reply, choices = choice :: rest ∧
      failing.execute store choice request = some (middle, reply) ∧
      match reply with
      | .ok value => failing.finish (next value).run middle rest = some (after, result)
      | .error failure => rest = [] ∧ after = middle ∧ result = .error failure := by
  cases choices with
  | nil => cases finished
  | cons choice rest =>
      have split : failing.finish (.statement request fun reply =>
          (ExceptT.bindCont next reply : Program Statement _ (Except Failure Second))) store
          (choice :: rest) = some (after, result) := finished
      simp only [finish] at split
      cases ran : failing.execute store choice request with
      | none =>
          rw [ran] at split
          cases split
      | some told =>
          obtain ⟨middle, reply⟩ := told
          rw [ran] at split
          refine ⟨choice, rest, middle, reply, rfl, ran, ?_⟩
          cases reply with
          | ok value => exact split
          | error failure => exact failing.finish_answer split

/-- A first half that succeeds leaves the other. -/
theorem finishAt_ok_bind {program : Program.Failing Statement Value Failure First}
    {next : First → Program.Failing Statement Value Failure Second} {value : First}
    (succeeds : failing.finishAt choice program.run store = some (after, .ok value)) :
    failing.finishAt choice (program >>= next).run store =
      failing.finishAt choice (next value).run after := by
  have split : failing.finishAt choice (program.run.bind (ExceptT.bindCont next)) store = _ :=
    failing.finishAt_bind
  rw [succeeds] at split
  exact split

theorem finishAt_perform {request : Statement} {reply : Except Failure (Value request)}
    (ran : failing.execute store choice request = some (after, reply)) :
    failing.finishAt choice
      (Program.perform request : Program.Failing Statement Value Failure _).run store =
        some (after, reply) := by
  simp only [Program.perform, Program.send, ExceptT.run_mk, finishAt, ran]

theorem finishAt_ensure {condition : Bool} {failure : Failure} (holds : condition = true) :
    failing.finishAt choice
      (Program.ensure condition failure : Program.Failing Statement Value Failure PUnit).run
      store = some (store, .ok ⟨⟩) := by
  subst holds
  rfl

/-- A program that is caught finishes as it did. -/
theorem finishAt_caught {program : Program.Failing Statement Value Failure First}
    {result : Except Failure First}
    (finishes : failing.finishAt choice program.run store = some (after, result)) :
    failing.finishAt choice (Program.caught program).run store =
      some (after, .ok result) := by
  have split : failing.finishAt choice (program.run.bind fun result =>
      .answer (Except.ok result : Except Failure (Except Failure First))) store = _ :=
    failing.finishAt_bind
  rw [finishes] at split
  exact split

/-- A program that is caught finishes as it did. -/
theorem finish_caught {program : Program.Failing Statement Value Failure First}
    {result : Except Failure First}
    (finished : failing.finish (Program.caught program).run store choices =
      some (after, .ok result)) :
    failing.finish program.run store choices = some (after, result) := by
  obtain ⟨first, second, middle, between, rfl, one, two⟩ := failing.finish_bind finished
  cases second with
  | nil =>
      cases two
      rw [List.append_nil]
      exact one
  | cons => cases two

end Failing

/-- What a call that goes on has done. -/
theorem resume_cases {state after : State Store Caller Reply Answer} {index : Nat}
    (taken : service.resume state index choice = some after) :
    (∃ caller past value, state.running[index]? = some ⟨caller, past, .answer value⟩ ∧
      after = { state with
        running := state.running.eraseIdx index
        answered := state.answered ++ [⟨caller, past, value⟩] }) ∨
    (∃ caller past request next store reply,
      state.running[index]? = some ⟨caller, past, .statement request next⟩ ∧
      service.execute state.store choice request = some (store, reply) ∧
      after = { state with
        store := store
        running := state.running.set index
          ⟨caller, past ++ [⟨request, reply⟩], next reply⟩ }) := by
  unfold resume at taken
  split at taken
  case h_1 => cases taken
  case h_2 caller past value present =>
    cases taken
    exact .inl ⟨caller, past, value, present, rfl⟩
  case h_3 caller past request next present =>
    split at taken
    case h_1 => cases taken
    case h_2 store reply ran =>
      cases taken
      exact .inr ⟨caller, past, request, next, store, reply, present, ran, rfl⟩

end Service

/-- What the calls of a service owe each other.  `later` is how the store may
come to look while a call waits; what a call has learnt has to be stated so
that it survives `later`.  `permitted` and `allowed` are the conditions under
which statements run and events happen; `owed` is what has to hold at the
moment a statement runs, and `promise` what has to hold once a call answers. -/
structure Contract (Store Choice Event Caller : Type*) {Statement : Type u}
    (Reply : Statement → Type v) (Answer : Type v) where
  invariant : Store → Prop
  later : Store → Store → Prop
  permitted : List (Exchange Statement Reply) → Store → Choice → Statement → Prop
  allowed : Store → Event → Prop
  owed : List (Exchange Statement Reply) → Store → Statement → Prop
  promise : Caller → List (Exchange Statement Reply) → Answer → Store → Prop
  later_refl : ∀ store, later store store
  later_trans : ∀ first second third, later first second → later second third →
    later first third

namespace Contract

variable {Store Choice Event Caller : Type*} {Statement : Type u}
  {Reply : Statement → Type v} {Answer : Type v}
  {service : Service Store Choice Event Caller Statement Reply Answer}
  (contract : Contract Store Choice Event Caller Reply Answer)

section Programs

variable (service : Service Store Choice Event Caller Statement Reply Answer)
  {First Second : Type v}

/-- One statement keeps the contract: what it owes holds when it runs, and
however it goes it keeps the invariant and moves the store on. -/
def Runs (past : List (Exchange Statement Reply)) (seen : Store) (request : Statement)
    (goesOn : Store → Reply request → Prop) : Prop :=
  ∀ now, contract.later seen now → contract.invariant now →
    contract.owed past now request ∧
    ∀ choice after reply, contract.permitted past now choice request →
      service.execute now choice request = some (after, reply) →
        contract.invariant after ∧ contract.later now after ∧ goesOn after reply

/-- From a store it has seen, a program keeps the contract whatever happens
between its statements, and its answer has what is promised. -/
def Keeps (promise : List (Exchange Statement Reply) → First → Store → Prop) :
    List (Exchange Statement Reply) → Store → Program Statement Reply First → Prop
  | past, seen, .answer value => promise past value seen
  | past, seen, .statement request next =>
      contract.Runs service past seen request fun after reply =>
        Keeps promise (past ++ [⟨request, reply⟩]) after (next reply)

variable {contract service} {past : List (Exchange Statement Reply)}

theorem Runs.mono {seen : Store}
    {request : Statement} {goesOn weaker : Store → Reply request → Prop}
    (runs : contract.Runs service past seen request goesOn)
    (weaken : ∀ after reply, contract.later seen after → contract.invariant after →
      goesOn after reply → weaker after reply) :
    contract.Runs service past seen request weaker := by
  intro now waited sound
  obtain ⟨owed, moves⟩ := runs now waited sound
  refine ⟨owed, ?_⟩
  intro choice after reply permitted ran
  obtain ⟨stillSound, moved, onward⟩ := moves choice after reply permitted ran
  exact ⟨stillSound, moved, weaken after reply
    (contract.later_trans _ _ _ waited moved) stillSound onward⟩

/-- A program keeps what its two halves keep. -/
theorem Keeps.bind {promise : List (Exchange Statement Reply) → Second → Store → Prop}
    {seen : Store} {program : Program Statement Reply First}
    {next : First → Program Statement Reply Second}
    (keeps : contract.Keeps service (fun past value store =>
      contract.Keeps service promise past store (next value)) past seen program) :
    contract.Keeps service promise past seen (program.bind next) := by
  induction program generalizing past seen with
  | answer value => exact keeps
  | statement request rest ih =>
      exact Runs.mono keeps fun after reply _ _ kept => ih reply kept

/-- A weaker promise is kept where a stronger one is. -/
theorem Keeps.mono {strong weak : List (Exchange Statement Reply) → First → Store → Prop}
    {seen : Store} {program : Program Statement Reply First}
    (keeps : contract.Keeps service strong past seen program)
    (weaken : ∀ past value store, strong past value store → weak past value store) :
    contract.Keeps service weak past seen program := by
  induction program generalizing past seen with
  | answer value => exact weaken _ _ _ keeps
  | statement request rest ih =>
      exact Runs.mono keeps fun after reply _ _ kept => ih reply kept

/-- A program answers at a later store than it began at, and a sound one. -/
theorem Keeps.onward {promise : List (Exchange Statement Reply) → First → Store → Prop}
    {seen : Store} {program : Program Statement Reply First}
    (keeps : contract.Keeps service promise past seen program) (sound : contract.invariant seen) :
    contract.Keeps service
      (fun past value store => contract.later seen store ∧ contract.invariant store ∧
        promise past value store)
      past seen program := by
  induction program generalizing past seen with
  | answer value => exact ⟨contract.later_refl seen, sound, keeps⟩
  | statement request rest ih =>
      apply Runs.mono keeps
      intro after reply moved stillSound kept
      apply (ih reply kept stillSound).mono
      intro past value store ⟨further, promised⟩
      exact ⟨contract.later_trans _ _ _ moved further, promised⟩

/-- A program that finishes has kept its contract, where the contract has no
conditions. -/
theorem Keeps.finish
    (free : ∀ past store choice request, contract.permitted past store choice request)
    {promise : List (Exchange Statement Reply) → First → Store → Prop} {seen after : Store}
    {program : Program Statement Reply First} {choices : List Choice} {value : First}
    (keeps : contract.Keeps service promise past seen program) (sound : contract.invariant seen)
    (finished : service.finish program seen choices = some (after, value)) :
    contract.invariant after ∧ contract.later seen after := by
  induction program generalizing past seen choices with
  | answer value =>
      cases choices with
      | nil =>
          cases finished
          exact ⟨sound, contract.later_refl _⟩
      | cons => cases finished
  | statement request rest ih =>
      cases choices with
      | nil => cases finished
      | cons choice choices =>
          simp only [Service.finish] at finished
          split at finished
          case h_1 => cases finished
          case h_2 moved reply ran =>
            obtain ⟨stillSound, onward, kept⟩ :=
              (keeps seen (contract.later_refl _) sound).2 choice moved reply
                (free _ _ _ _) ran
            obtain ⟨soundAfter, further⟩ :=
              ih reply kept stillSound finished
            exact ⟨soundAfter, contract.later_trans _ _ _ onward further⟩

end Programs

section Failing

variable {Value : Statement → Type v} {Failure First Second : Type v}
  {contract : Contract Store Choice Event Caller
    (fun request => Except Failure (Value request)) Answer}
  {service : Service Store Choice Event Caller Statement
    (fun request => Except Failure (Value request)) Answer}
  {past : List (Exchange Statement fun request => Except Failure (Value request))}
  {seen : Store}
  {promise : List (Exchange Statement fun request => Except Failure (Value request)) →
    Except Failure Second → Store → Prop}

/-- What is promised of the rest of a failing program is promised of its
failure, or kept by how it goes on. -/
def AndThen (contract : Contract Store Choice Event Caller
      (fun request => Except Failure (Value request)) Answer)
    (service : Service Store Choice Event Caller Statement
      (fun request => Except Failure (Value request)) Answer)
    (promise : List (Exchange Statement fun request => Except Failure (Value request)) →
      Except Failure Second → Store → Prop)
    (next : First → Program.Failing Statement Value Failure Second)
    (past : List (Exchange Statement fun request => Except Failure (Value request))) :
    Except Failure First → Store → Prop
  | .error failure, store => promise past (.error failure) store
  | .ok value, store => contract.Keeps service promise past store (next value).run

theorem keeps_bind {program : Program.Failing Statement Value Failure First}
    {next : First → Program.Failing Statement Value Failure Second}
    (keeps : contract.Keeps service (AndThen contract service promise next) past seen program.run) :
    contract.Keeps service promise past seen (program >>= next).run := by
  apply Keeps.bind
  apply keeps.mono
  intro past result store promised
  cases result with
  | error | ok => exact promised

theorem keeps_caught {program : Program.Failing Statement Value Failure First}
    {next : Except Failure First → Program.Failing Statement Value Failure Second}
    (keeps : contract.Keeps service
      (fun past result store => contract.Keeps service promise past store (next result).run)
      past seen program.run) :
    contract.Keeps service promise past seen (Program.caught program >>= next).run := by
  apply keeps_bind
  apply Keeps.bind
  exact keeps

/-- A failing program keeps the contract from a sound store on, whatever has
been run before, and what it answers with has the fact. -/
structure Yields (contract : Contract Store Choice Event Caller
      (fun request => Except Failure (Value request)) Answer)
    (service : Service Store Choice Event Caller Statement
      (fun request => Except Failure (Value request)) Answer)
    (fact : First → Store → Prop) (seen : Store)
    (program : Program.Failing Statement Value Failure First) : Prop where
  keeps : contract.invariant seen → ∀ past, contract.Keeps service
    (fun _ result store => ∀ value, result = .ok value → fact value store) past seen program.run

section Yields

variable {fact : First → Store → Prop} {told : Second → Store → Prop}

theorem yields_bind {program : Program.Failing Statement Value Failure First}
    {next : First → Program.Failing Statement Value Failure Second}
    (yields : contract.Yields service fact seen program)
    (goesOn : ∀ value store, contract.later seen store → fact value store →
      contract.Yields service told store (next value)) :
    contract.Yields service told seen (program >>= next) where
  keeps := by
    intro sound past
    apply keeps_bind
    apply ((yields.keeps sound past).onward sound).mono
    intro past result store ⟨waited, stillSound, isTold⟩
    cases result with
    | error failure => exact nofun
    | ok value => exact (goesOn value store waited (isTold value rfl)).keeps stillSound past

theorem yields_perform {request : Statement} {fact : Value request → Store → Prop}
    (runs : ∀ past, contract.Runs service past seen request fun after reply =>
      ∀ value, reply = .ok value → fact value after) :
    contract.Yields service fact seen (Program.perform request) where
  keeps _ past := runs past

theorem yields_attempt {request : Statement} {fact : Except Failure (Value request) → Store → Prop}
    (runs : ∀ past, contract.Runs service past seen request fun after reply => fact reply after) :
    contract.Yields service fact seen (Program.attempt request) where
  keeps := by
    intro _ past
    apply (runs past).mono
    rintro after reply - - isTold value isValue
    cases isValue
    exact isTold

theorem yields_pure {value : First} (isTold : fact value seen) :
    contract.Yields service fact seen
      (pure value : Program.Failing Statement Value Failure First) where
  keeps := by
    intro _ past result isValue
    cases isValue
    exact isTold

theorem yields_throw {failure : Failure} :
    contract.Yields service fact seen
      (throw failure : Program.Failing Statement Value Failure First) where
  keeps := by
    intro _ past value isValue
    cases isValue

theorem yields_ensure {condition : Bool} {failure : Failure} :
    contract.Yields service (fun _ _ => condition = true) seen
      (Program.ensure condition failure :
        Program.Failing Statement Value Failure PUnit) := by
  cases condition with
  | false => exact yields_throw
  | true => exact yields_pure rfl

/-- A program whose answer is changed yields what the change makes of it. -/
theorem yields_map {program : Program.Failing Statement Value Failure First}
    {change : First → Second}
    (yields : contract.Yields service (fun value store => told (change value) store) seen program) :
    contract.Yields service told seen (change <$> program) := by
  apply yields_bind yields
  intro value store _ isTold
  exact yields_pure isTold

/-- What holds when a program begins, and at every later store, holds when it
answers. -/
theorem Yields.carry {program : Program.Failing Statement Value Failure First}
    (yields : contract.Yields service fact seen program) (stable : Store → Prop)
    (lasts : ∀ after, contract.later seen after → stable seen → stable after)
    (holds : stable seen) :
    contract.Yields service (fun value store => fact value store ∧ stable store) seen
      program where
  keeps := by
    intro sound past
    apply ((yields.keeps sound past).onward sound).mono
    rintro past result store ⟨waited, -, isTold⟩ value isValue
    exact ⟨isTold value isValue, lasts store waited holds⟩

theorem Yields.imp {weak : First → Store → Prop}
    {program : Program.Failing Statement Value Failure First}
    (yields : contract.Yields service fact seen program)
    (weaken : ∀ value store, fact value store → weak value store) :
    contract.Yields service weak seen program where
  keeps := by
    intro sound past
    apply (yields.keeps sound past).mono
    intro past result store isTold value isValue
    exact weaken value store (isTold value isValue)

end Yields

end Failing

variable (service) in
/-- Every handler keeps the contract from any sound store, and so does the
world. -/
structure Met : Prop where
  handlers : ∀ caller store, contract.invariant store →
    contract.Keeps service (contract.promise caller) [] store (service.handler caller)
  world : ∀ before event after, contract.invariant before → contract.allowed before event →
    service.happen before event = some after →
      contract.invariant after ∧ contract.later before after

/-- The conditions of the contract, met by one step. -/
def Permits (state : Service.State Store Caller Reply Answer) :
    Service.Move Choice Event Caller → Prop
  | .goOn index choice =>
      match state.running[index]? with
      | some ⟨_, past, .statement request _⟩ =>
          contract.permitted past state.store choice request
      | _ => True
  | .happens event => contract.allowed state.store event
  | _ => True

/-- What the contract owes at one step. -/
def Owes (state : Service.State Store Caller Reply Answer) :
    Service.Move Choice Event Caller → Prop
  | .goOn index _ =>
      match state.running[index]? with
      | some ⟨_, past, .statement request _⟩ => contract.owed past state.store request
      | _ => True
  | _ => True

variable (service) in
/-- The store is sound, every call in flight will keep the contract from what
it has seen, and every answer has what was promised. -/
structure Kept (state : Service.State Store Caller Reply Answer) : Prop where
  invariant : contract.invariant state.store
  running : ∀ call ∈ state.running, ∃ seen, contract.later seen state.store ∧
    contract.Keeps service (contract.promise call.caller) call.past seen call.program
  answered : ∀ call ∈ state.answered, ∃ seen, contract.later seen state.store ∧
    contract.promise call.caller call.past call.value seen

variable {contract}

theorem kept_start {store : Store} (sound : contract.invariant store) :
    contract.Kept service (Service.start store) where
  invariant := sound
  running := by simp [Service.start]
  answered := by simp [Service.start]

/-- A later store serves every call that waits. -/
theorem Kept.wait {state : Service.State Store Caller Reply Answer} {store : Store}
    (kept : contract.Kept service state) (sound : contract.invariant store)
    (moved : contract.later state.store store) :
    contract.Kept service { state with store := store } where
  invariant := sound
  running := by
    intro call member
    obtain ⟨seen, waited, keeps⟩ := kept.running call member
    exact ⟨seen, contract.later_trans _ _ _ waited moved, keeps⟩
  answered := by
    intro call member
    obtain ⟨seen, waited, promised⟩ := kept.answered call member
    exact ⟨seen, contract.later_trans _ _ _ waited moved, promised⟩

/-- One step of a service that meets its contract keeps it and moves the store
on. -/
theorem Kept.step (met : contract.Met service)
    {before after : Service.State Store Caller Reply Answer}
    {move : Service.Move Choice Event Caller} (kept : contract.Kept service before)
    (taken : service.step before move = some after) (permits : contract.Permits before move) :
    contract.Kept service after ∧ contract.later before.store after.store := by
  cases move with
  | call caller =>
      cases taken
      refine ⟨⟨kept.invariant, ?_, kept.answered⟩, contract.later_refl _⟩
      intro call member
      rcases List.mem_append.mp member with earlier | new
      · exact kept.running call earlier
      · rw [List.mem_singleton] at new
        subst new
        exact ⟨before.store, contract.later_refl _,
          met.handlers caller before.store kept.invariant⟩
  | crash index =>
      simp only [Service.step] at taken
      split at taken
      case isFalse => cases taken
      case isTrue =>
        cases taken
        exact ⟨⟨kept.invariant,
          fun call member => kept.running call (List.mem_of_mem_eraseIdx member),
          kept.answered⟩, contract.later_refl _⟩
  | happens event =>
      simp only [Service.step, Option.map_eq_some_iff] at taken
      obtain ⟨store, happened, rfl⟩ := taken
      obtain ⟨sound, moved⟩ := met.world _ _ _ kept.invariant permits happened
      exact ⟨kept.wait sound moved, moved⟩
  | goOn index choice =>
      rcases service.resume_cases taken with
        ⟨caller, past, value, present, rfl⟩ |
        ⟨caller, past, request, next, store, reply, present, ran, rfl⟩
      · obtain ⟨seen, waited, promised⟩ :=
          kept.running _ (List.mem_of_getElem? present)
        refine ⟨⟨kept.invariant,
          fun call member => kept.running call (List.mem_of_mem_eraseIdx member), ?_⟩,
          contract.later_refl _⟩
        intro call member
        rcases List.mem_append.mp member with earlier | new
        · exact kept.answered call earlier
        · rw [List.mem_singleton] at new
          subst new
          exact ⟨seen, waited, promised⟩
      · obtain ⟨seen, waited, keeps⟩ :=
          kept.running _ (List.mem_of_getElem? present)
        simp only [Permits, present] at permits
        obtain ⟨sound, moved, onward⟩ :=
          (keeps before.store waited kept.invariant).2 choice store reply permits ran
        have others := kept.wait sound moved
        refine ⟨⟨sound, ?_, others.answered⟩, moved⟩
        intro call member
        rcases List.mem_or_eq_of_mem_set member with other | same
        · exact others.running call other
        · subst same
          exact ⟨store, contract.later_refl _, onward⟩

/-- A service that meets its contract keeps it along every run whose steps meet
the contract's conditions. -/
theorem run_kept (met : contract.Met service)
    {start final : Service.State Store Caller Reply Answer}
    {moves : List (Service.Move Choice Event Caller)}
    (permits : Along service.step (fun before move _ => contract.Permits before move) start moves)
    (kept : contract.Kept service start) (ran : run service.step start moves = some final) :
    contract.Kept service final ∧ contract.later start.store final.store := by
  apply permits.run_invariant
    (fun state => contract.Kept service state ∧ contract.later start.store state.store)
  · intro before move after ⟨kept, moved⟩ taken permits
    obtain ⟨stillKept, further⟩ := kept.step met taken permits
    exact ⟨stillKept, contract.later_trans _ _ _ moved further⟩
  · exact ⟨kept, contract.later_refl _⟩
  · exact ran

/-- A contract without conditions permits every run. -/
theorem along_permits (free : ∀ past store choice request,
      contract.permitted past store choice request)
    (unguarded : ∀ store event, contract.allowed store event)
    {start : Service.State Store Caller Reply Answer}
    {moves : List (Service.Move Choice Event Caller)} :
    Along service.step (fun before move _ => contract.Permits before move) start moves := by
  apply along_of_invariant (fun _ => True)
  · intros
    trivial
  · intro before move after _ _
    cases move with
    | goOn index choice =>
        simp only [Permits]
        split
        case h_1 => exact free _ _ _ _
        case h_2 => trivial
    | happens event => exact unguarded _ _
    | _ => trivial
  · trivial

/-- A kept contract owes what it owes. -/
theorem Kept.owes {state : Service.State Store Caller Reply Answer}
    (kept : contract.Kept service state) (move : Service.Move Choice Event Caller) :
    contract.Owes state move := by
  cases move with
  | goOn index choice =>
      simp only [Owes]
      split
      case h_1 caller past request next present =>
        obtain ⟨seen, waited, keeps⟩ :=
          kept.running _ (List.mem_of_getElem? present)
        exact (keeps state.store waited kept.invariant).1
      case h_2 => trivial
  | _ => trivial

section Stores

/-- The contract of a store that looks after itself: every statement that is
permitted keeps the invariant, whichever call runs it. -/
def ofStore (invariant : Store → Prop) (permitted : Store → Choice → Statement → Prop)
    (allowed : Store → Event → Prop) : Contract Store Choice Event Caller Reply Answer where
  invariant := invariant
  later _ _ := True
  permitted _ := permitted
  allowed := allowed
  owed _ _ _ := True
  promise _ _ _ _ := True
  later_refl _ := trivial
  later_trans _ _ _ _ _ := trivial

variable {invariant : Store → Prop} {permitted : Store → Choice → Statement → Prop}
  {allowed : Store → Event → Prop}

theorem ofStore_met
    (statements : ∀ before choice request after reply, invariant before →
      permitted before choice request →
      service.execute before choice request = some (after, reply) → invariant after)
    (world : ∀ before event after, invariant before → allowed before event →
      service.happen before event = some after → invariant after) :
    (ofStore invariant permitted allowed : Contract Store Choice Event Caller Reply
      Answer).Met service where
  handlers := by
    intro caller store started
    generalize ([] : List (Exchange Statement Reply)) = past
    induction service.handler caller generalizing past store with
    | answer value => trivial
    | statement request rest ih =>
        intro now _ sound
        refine ⟨trivial, ?_⟩
        intro choice after reply permits ran
        have still := statements now choice request after reply sound permits ran
        exact ⟨still, trivial, ih reply after still _⟩
  world := by
    intro before event after sound allows happened
    exact ⟨world before event after sound allows happened, trivial⟩

end Stores

end Contract

end NookOs.Lib
