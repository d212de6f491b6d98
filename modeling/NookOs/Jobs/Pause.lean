/-
Module: NookOs.Jobs.Pause
Purpose: One job and the questions it has asked people, under every call that
  pauses, resumes, answers or ends it, and exactly when the job's state and its
  pending questions stay in step.
Trusted boundary: none
Main exports: Interaction, PauseCall, Pausing, Pausing.step, Accounted, books_balance
-/
import NookOs.Lib.Run
import NookOs.Lib.Table
import NookOs.Lib.InFlight
import NookOs.Jobs.Lifecycle

namespace NookOs.Jobs

open Lib

/-!
A question is a row of `interactions`.  Asking inserts it and then pauses the
run; answering flips it and then resumes the run; both second halves go through
`transition`, which loads the row again, checks the edge, and updates by id.
Each of these awaits is a step of its own here, and a call between two of them
is in flight, together with what it still has to do.
-/

abbrev InteractionId := Nat

/-- The states the `interactions_state_check` constraint admits. -/
inductive InteractionState where
  | pending
  | answered
  | canceled
deriving DecidableEq

/-- A question the job has asked. -/
structure Interaction where
  id : InteractionId
  prompt : String
  state : InteractionState
  requestedByNodeId : Option NodeId
  answeredBy : Option UserId
  response : Option String
deriving DecidableEq

/-- Who is calling: a person, or a node with its token. -/
inductive Principal where
  | user
  | node (id : NodeId)
deriving DecidableEq

namespace Interactions

/-- The gate of `create` on a job-scoped question: a node must be the job's
executor, a person must be able to see its card. -/
def mayAsk (caller : Principal) (subjectVisible : Bool) (job : LoopJob) : Bool :=
  match caller with
  | .node id => job.executorNodeId = some id
  | .user => subjectVisible

/-- The row the INSERT writes. -/
def create (id : InteractionId) (prompt : String) (job : LoopJob) : Interaction :=
  { id
    prompt
    state := .pending
    requestedByNodeId := job.executorNodeId
    answeredBy := none
    response := none }

/-- The first answer wins: `WHERE id = $1 AND state = 'pending'`. -/
def answer (viewer : UserId) (response : String) (ask : Interaction) :
    Option Interaction :=
  if ask.state = .pending then
    some
      { ask with
        state := .answered, answeredBy := some viewer, response := some response }
  else none

/-- `SET state = 'canceled' … WHERE … state = 'pending'`. -/
def cancel (ask : Interaction) : Option Interaction :=
  if ask.state = .pending then some { ask with state := .canceled } else none

/-- A guarded UPDATE of the question with an id. -/
def onAsk (id : InteractionId) (change : Interaction → Option Interaction)
    (asks : List Interaction) : List Interaction :=
  Table.update Interaction.id id (fun ask => (change ask).getD ask) asks

/-- Cancel every pending question of the job. -/
def cancelForJob (asks : List Interaction) : List Interaction :=
  asks.map fun ask => (cancel ask).getD ask

/-- Some question of the job waits for an answer. -/
def anyPending (asks : List Interaction) : Bool :=
  asks.any fun ask => ask.state = .pending

end Interactions

/-- What a call in flight does next. -/
inductive PauseCall where
  /-- The load of `pause_for_human`. -/
  | pause
  /-- The load of `resume_from_human`. -/
  | resume
  /-- The load and check of `transition`. -/
  | transition (target : JobState)
  /-- The UPDATE of `transition`. -/
  | checked (call : CheckedTransition)
  /-- The canceled questions of a job that `transition` has failed or
  canceled. -/
  | cancelForJob
deriving DecidableEq

/-- The endings after which `transition` cancels the job's questions. -/
def cancelsAsks : JobState → Bool
  | .failed | .canceled => true
  | _ => false

/-- The job, its questions, and the calls in flight. -/
structure Pausing where
  row : LoopJob
  asks : List Interaction
  calls : List PauseCall
deriving DecidableEq

/-- A job nobody has done anything with yet. -/
def Pausing.start (row : LoopJob) : Pausing :=
  { row, asks := [], calls := [] }

/-- No call is in progress. -/
def Pausing.Quiescent (system : Pausing) : Prop := system.calls = []

/-- The next await of a call: the row and the questions it leaves, and the rest
of the call. -/
def PauseCall.advance (now : Instant) (row : LoopJob) (asks : List Interaction) :
    PauseCall → LoopJob × List Interaction × Option PauseCall
  | .pause =>
      (row, asks,
        if row.state = .running then some (.transition .waitingOnHuman) else none)
  | .resume =>
      (row, asks,
        if row.state = .waitingOnHuman then some (.transition .running) else none)
  | .transition target =>
      (row, asks,
        match checkTransition row target with
        | .proceed call => some (.checked call)
        | .unchanged | .illegal => none)
  | .checked call =>
      (Repo.transition now call.target row, asks,
        if cancelsAsks call.target then some .cancelForJob else none)
  | .cancelForJob => (row, Interactions.cancelForJob asks, none)

/-- One step: a call begins, or one in flight takes its next await, or a
guarded UPDATE lands on the row. -/
inductive PauseStep where
  | create (caller : Principal) (subjectVisible : Bool) (id : InteractionId)
      (prompt : String)
  | answer (viewer : UserId) (id : InteractionId) (response : String)
  | cancel (id : InteractionId)
  | postMessage
  | transition (target : JobState)
  | advance (call : Nat) (now : Instant)
  | claimForExecutor (now : Instant) (node : NodeId)
  | write (update : RowWrite)

/-- The interleaving semantics of the calls on one job.  A call whose gate
refuses it leaves everything as it was. -/
def Pausing.step (system : Pausing) : PauseStep → Option Pausing
  | .create caller subjectVisible id prompt =>
      if (Table.find Interaction.id system.asks id).isSome then none
      else if Interactions.mayAsk caller subjectVisible system.row then
        some
          { system with
            asks := system.asks ++ [Interactions.create id prompt system.row]
            calls := system.calls ++ [.pause] }
      else some system
  | .answer viewer id response =>
      match (Table.find Interaction.id system.asks id).bind
          (Interactions.answer viewer response) with
      | none => some system
      | some _ =>
          some
            { system with
              asks := Interactions.onAsk id (Interactions.answer viewer response)
                system.asks
              calls := system.calls ++ [.resume] }
  | .cancel id =>
      some { system with asks := Interactions.onAsk id Interactions.cancel system.asks }
  | .postMessage =>
      if isTerminal system.row.state then some system
      else some { system with calls := system.calls ++ [.resume] }
  | .transition target =>
      some { system with calls := system.calls ++ [.transition target] }
  | .advance index now =>
      (system.calls[index]?).map fun call =>
        let (row, asks, rest) := call.advance now system.row system.asks
        { row, asks, calls := system.calls.eraseIdx index ++ rest.toList }
  | .claimForExecutor now node =>
      some
        { system with
          row := (Repo.claimForExecutor now node system.row).getD system.row }
  | .write update =>
      some { system with row := (update.update system.row).getD system.row }

/-- The job's state and its questions agree: a paused job waits for an answer,
a running one for none, and an ended one has none left pending. -/
def Pausing.Balanced (system : Pausing) : Prop :=
  (system.row.state = .waitingOnHuman →
    ∃ ask ∈ system.asks, ask.state = .pending) ∧
  ((∃ ask ∈ system.asks, ask.state = .pending) → system.row.state ≠ .running) ∧
  (isTerminal system.row.state = true →
    ∀ ask ∈ system.asks, ask.state ≠ .pending)

instance (system : Pausing) : Decidable system.Quiescent :=
  inferInstanceAs (Decidable (_ = []))

instance (system : Pausing) : Decidable system.Balanced :=
  inferInstanceAs (Decidable (_ ∧ _ ∧ _))

/-- A call will change the state or the pending questions of a job that nobody
else touches. -/
def PauseCall.moves (state : JobState) (pending : Bool) : PauseCall → Bool
  | .pause => state = .running
  | .resume => state = .waitingOnHuman
  | .transition target => state ≠ target && legalTransition state target
  | .checked call =>
      call.target ≠ state || (cancelsAsks call.target && pending)
  | .cancelForJob => pending

/-- Some call in flight is about to move on a job in a state. -/
def underway (state : JobState) (pending : Bool) (calls : List PauseCall) : Bool :=
  calls.any (PauseCall.moves state pending)

/-- The UPDATE of a `transition` call may land: it pauses a job that has a
question pending, resumes or completes one that has none, or cancels what is
pending next; or another call is about to move the job on. -/
def mayLand (target : JobState) (pending : Bool) (others : List PauseCall) : Bool :=
  match target with
  | .waitingOnHuman => pending || underway target pending others
  | .running | .completed => !pending || underway target pending others
  | .queued | .claimed | .failed | .canceled => true

/-- The condition on one step, read off the state before it. -/
def Accounted (before : Pausing) (label : PauseStep) (_ : Pausing) : Prop :=
  match label with
  | .create caller subjectVisible _ _ =>
      -- Nobody asks for a job that has ended.
      Interactions.mayAsk caller subjectVisible before.row = true →
        isTerminal before.row.state = true →
        underway before.row.state true before.calls = true
  | .cancel id =>
      -- A paused job keeps another question.
      before.row.state = .waitingOnHuman →
        (∃ ask ∈ before.asks, ask.state = .pending ∧ ask.id ≠ id) ∨
          underway .waitingOnHuman false before.calls = true
  | .advance index _ =>
      ∀ call ∈ before.calls[index]?,
        match call with
        | .checked passed =>
            mayLand passed.target (Interactions.anyPending before.asks)
              (before.calls.eraseIdx index) = true
        | .cancelForJob =>
            -- The job it ended has not been paused again.
            before.row.state = .waitingOnHuman →
              underway .waitingOnHuman false (before.calls.eraseIdx index) = true
        | _ => True
  | .write update =>
      -- A reaper ends no job that is still asking.
      ∀ row ∈ update.update before.row, isTerminal row.state = true →
        Interactions.anyPending before.asks = true →
        underway row.state true before.calls = true
  | _ => True

instance : ∀ (before : Pausing) (label : PauseStep) (after : Pausing),
    Decidable (Accounted before label after)
  | before, .create caller subjectVisible _ _, _ =>
      inferInstanceAs (Decidable (Interactions.mayAsk caller subjectVisible
        before.row = true → isTerminal before.row.state = true →
          underway before.row.state true before.calls = true))
  | before, .cancel id, _ =>
      inferInstanceAs (Decidable (before.row.state = .waitingOnHuman →
        (∃ ask ∈ before.asks, ask.state = .pending ∧ ask.id ≠ id) ∨
          underway .waitingOnHuman false before.calls = true))
  | before, .advance index _, _ =>
      have : ∀ call : PauseCall, Decidable (match call with
          | .checked passed =>
              mayLand passed.target (Interactions.anyPending before.asks)
                (before.calls.eraseIdx index) = true
          | .cancelForJob =>
              before.row.state = .waitingOnHuman →
                underway .waitingOnHuman false (before.calls.eraseIdx index) = true
          | _ => True) := fun call =>
        match call with
        | .checked _ => inferInstanceAs (Decidable (_ = true))
        | .cancelForJob => inferInstanceAs (Decidable (_ → _))
        | .pause | .resume | .transition _ => isTrue trivial
      inferInstanceAs (Decidable (∀ call ∈ before.calls[index]?, _))
  | before, .write update, _ =>
      inferInstanceAs (Decidable (∀ row ∈ update.update before.row,
        isTerminal row.state = true → Interactions.anyPending before.asks = true →
          underway row.state true before.calls = true))
  | _, .answer _ _ _, _ | _, .postMessage, _ | _, .transition _, _
  | _, .claimForExecutor _ _, _ => isTrue trivial

/-- The agreement of a state with whether a question is pending. -/
def inStep (state : JobState) (pending : Bool) : Bool :=
  match state with
  | .waitingOnHuman => pending
  | .running | .completed | .failed | .canceled => !pending
  | .queued | .claimed => true

theorem anyPending_iff (asks : List Interaction) :
    Interactions.anyPending asks = true ↔ ∃ ask ∈ asks, ask.state = .pending := by
  simp [Interactions.anyPending]

theorem Pausing.balanced_iff (system : Pausing) :
    system.Balanced ↔
      inStep system.row.state (Interactions.anyPending system.asks) = true := by
  unfold Pausing.Balanced
  rw [← anyPending_iff]
  have none : (∀ ask ∈ system.asks, ask.state ≠ .pending) ↔
      Interactions.anyPending system.asks = false := by
    rw [← Bool.not_eq_true, anyPending_iff]
    simp only [not_exists, not_and]
  rw [none]
  cases system.row.state <;> cases Interactions.anyPending system.asks <;>
    simp [inStep, isTerminal]

/-- What a run that meets the condition keeps: the job and its questions agree,
or a call in flight is about to move the job on. -/
def covered (state : JobState) (pending : Bool) (calls : List PauseCall) : Prop :=
  inStep state pending = true ∨ underway state pending calls = true

def Pausing.Covered (system : Pausing) : Prop :=
  covered system.row.state (Interactions.anyPending system.asks) system.calls

/-- With no call in flight, nothing else can be about to move the job on. -/
theorem Pausing.Covered.balanced {system : Pausing} (covered : system.Covered)
    (quiescent : system.Quiescent) : system.Balanced := by
  rw [system.balanced_iff]
  rcases covered with agrees | underway
  · exact agrees
  · rw [quiescent] at underway
    contradiction

@[simp] theorem underway_append (state : JobState) (pending : Bool)
    (calls more : List PauseCall) :
    underway state pending (calls ++ more) =
      (underway state pending calls || underway state pending more) :=
  List.any_append

/-- Taking one call of the list out leaves it and the others. -/
theorem underway_eraseIdx {calls : List PauseCall} {index : Nat}
    {call : PauseCall} (present : calls[index]? = some call) (state : JobState)
    (pending : Bool) :
    underway state pending calls =
      (call.moves state pending || underway state pending (calls.eraseIdx index)) :=
  any_eraseIdx present (PauseCall.moves state pending)

/-- A new question is pending. -/
theorem anyPending_create (asks : List Interaction) (id : InteractionId)
    (prompt : String) (job : LoopJob) :
    Interactions.anyPending (asks ++ [Interactions.create id prompt job]) = true := by
  simp [Interactions.anyPending, Interactions.create]

/-- No question is pending once they are canceled. -/
theorem anyPending_cancelForJob (asks : List Interaction) :
    Interactions.anyPending (Interactions.cancelForJob asks) = false := by
  simp only [Interactions.anyPending, Interactions.cancelForJob, List.any_map,
    List.any_eq_false, Function.comp_apply, decide_eq_true_eq]
  intro ask _
  unfold Interactions.cancel
  split
  · nofun
  · assumption

/-- A question that is answered or canceled is pending no longer, and the
others are as they were. -/
theorem anyPending_onAsk (id : InteractionId)
    {change : Interaction → Option Interaction}
    (settles : ∀ ask, ((change ask).getD ask).state ≠ .pending)
    (asks : List Interaction) :
    Interactions.anyPending (Interactions.onAsk id change asks) = true ↔
      ∃ ask ∈ asks, ask.state = .pending ∧ ask.id ≠ id := by
  simp only [anyPending_iff, Interactions.onAsk, Table.update, List.mem_map]
  constructor
  · rintro ⟨_, ⟨ask, member, rfl⟩, pending⟩
    split at pending
    · exact absurd pending (settles ask)
    · rename_i other
      exact ⟨ask, member, pending, other⟩
  · rintro ⟨ask, member, pending, other⟩
    exact ⟨ask, ⟨ask, member, if_neg other⟩, pending⟩

theorem answer_settles (viewer : UserId) (response : String) (ask : Interaction) :
    ((Interactions.answer viewer response ask).getD ask).state ≠ .pending := by
  unfold Interactions.answer
  split
  · nofun
  · assumption

theorem cancel_settles (ask : Interaction) :
    ((Interactions.cancel ask).getD ask).state ≠ .pending := by
  unfold Interactions.cancel
  split
  · nofun
  · assumption

/-- The next await of the call reads and writes nothing. -/
def PauseCall.loads : PauseCall → Bool
  | .pause | .resume | .transition _ => true
  | .checked _ | .cancelForJob => false

/-- A load passes on, to the rest of its call, whether it moves the job on. -/
theorem advance_load (now : Instant) (row : LoopJob) (asks : List Interaction)
    {call : PauseCall} (pending : Bool) (loads : call.loads = true) :
    (call.advance now row asks).1 = row ∧ (call.advance now row asks).2.1 = asks ∧
      underway row.state pending (call.advance now row asks).2.2.toList =
        call.moves row.state pending := by
  cases call with
  | pause =>
      refine ⟨rfl, rfl, ?_⟩
      by_cases running : row.state = .running
      · simp [PauseCall.advance, running, underway, PauseCall.moves,
          legalTransition]
      · simp [PauseCall.advance, running, underway, PauseCall.moves]
  | resume =>
      refine ⟨rfl, rfl, ?_⟩
      by_cases waiting : row.state = .waitingOnHuman
      · simp [PauseCall.advance, waiting, underway, PauseCall.moves,
          legalTransition]
      · simp [PauseCall.advance, waiting, underway, PauseCall.moves]
  | transition target =>
      refine ⟨rfl, rfl, ?_⟩
      unfold PauseCall.advance checkTransition
      by_cases same : row.state = target
      · simp [same, underway, PauseCall.moves]
      · by_cases legal : legalTransition row.state target = true
        · simp [same, legal, underway, PauseCall.moves, Ne.symm same]
        · simp [same, legal, underway, PauseCall.moves]
  | checked | cancelForJob => contradiction

/-- What the landing of an UPDATE needs, with the cancelation that follows an
ending among the calls in flight. -/
theorem covered_landed_iff (target : JobState) (pending : Bool)
    (others : List PauseCall) :
    covered target pending
        (others ++ (if cancelsAsks target then some PauseCall.cancelForJob
          else none).toList) ↔
      mayLand target pending others = true := by
  unfold covered
  rw [underway_append]
  cases target <;> cases pending <;>
    simp [inStep, mayLand, cancelsAsks, underway, PauseCall.moves]

/-- A state agrees with having no question pending, unless it is paused. -/
theorem covered_none_iff (state : JobState) (calls : List PauseCall) :
    covered state false calls ↔
      (state = .waitingOnHuman → underway .waitingOnHuman false calls = true) := by
  unfold covered
  cases state <;> simp [inStep]

/-- An ended job agrees with its questions when none is pending. -/
theorem covered_ended_iff {state : JobState} (ended : isTerminal state = true)
    (pending : Bool) (calls : List PauseCall) :
    covered state pending calls ↔
      (pending = true → underway state true calls = true) := by
  unfold covered
  cases state <;> cases pending <;> simp_all [inStep, isTerminal]

/-- A state agrees with a pending question, unless it is running or has
ended. -/
theorem covered_some_iff (state : JobState) (calls : List PauseCall) :
    covered state true (calls ++ [.pause]) ↔
      (isTerminal state = true → underway state true calls = true) := by
  unfold covered
  rw [underway_append]
  cases state <;>
    simp [inStep, isTerminal, underway, PauseCall.moves]

theorem covered_append {state : JobState} {pending : Bool}
    {calls : List PauseCall} (before : covered state pending calls)
    (more : List PauseCall) : covered state pending (calls ++ more) := by
  rcases before with agrees | moving
  · exact .inl agrees
  · right
    rw [underway_append, moving]
    rfl

/-- Settling one question of a covered job leaves the job covered exactly when
the settled question was not what kept it paused. -/
theorem Pausing.Covered.onAsk_iff {system : Pausing} (before : system.Covered)
    (id : InteractionId) {change : Interaction → Option Interaction}
    (settles : ∀ ask, ((change ask).getD ask).state ≠ .pending)
    (more : List PauseCall) :
    covered system.row.state
        (Interactions.anyPending (Interactions.onAsk id change system.asks))
        (system.calls ++ more) ↔
      (system.row.state = .waitingOnHuman →
        (∃ ask ∈ system.asks, ask.state = .pending ∧ ask.id ≠ id) ∨
          underway .waitingOnHuman false (system.calls ++ more) = true) := by
  have others := anyPending_onAsk id settles system.asks
  cases left : Interactions.anyPending (Interactions.onAsk id change system.asks) with
  | false =>
      have noOther : ¬ ∃ ask ∈ system.asks, ask.state = .pending ∧ ask.id ≠ id := by
        rw [← others, left]
        nofun
      rw [covered_none_iff, or_iff_right noOther]
  | true =>
      obtain ⟨ask, member, pending, other⟩ := others.mp left
      have was : Interactions.anyPending system.asks = true :=
        (anyPending_iff _).mpr ⟨ask, member, pending⟩
      unfold Pausing.Covered at before
      rw [was] at before
      constructor
      · intro _ _
        exact .inl ⟨ask, member, pending, other⟩
      · intro _
        exact covered_append before more

/-- A covered job is covered after a step exactly when the step meets the
condition. -/
theorem Pausing.Covered.step_iff {before after : Pausing} {label : PauseStep}
    (covering : before.Covered) (taken : before.step label = some after) :
    after.Covered ↔ Accounted before label after := by
  cases label with
  | create caller subjectVisible id prompt =>
      unfold Pausing.step at taken
      dsimp only at taken
      split at taken
      · contradiction
      · split at taken
        · rename_i allowed
          cases taken
          unfold Pausing.Covered Accounted
          dsimp only
          rw [anyPending_create, covered_some_iff]
          exact ⟨fun holds _ => holds, fun holds => holds allowed⟩
        · rename_i refused
          cases taken
          exact iff_of_true covering fun allowed => absurd allowed refused
  | answer viewer id response =>
      refine iff_of_true ?_ trivial
      unfold Pausing.step at taken
      dsimp only at taken
      split at taken
      · cases taken
        exact covering
      · cases taken
        apply (covering.onAsk_iff id (answer_settles viewer response) [.resume]).mpr
        intro _
        right
        simp [underway, PauseCall.moves]
  | cancel id =>
      cases taken
      have settled := covering.onAsk_iff id cancel_settles []
      rw [List.append_nil] at settled
      exact settled
  | postMessage =>
      refine iff_of_true ?_ trivial
      unfold Pausing.step at taken
      dsimp only at taken
      split at taken
      · cases taken
        exact covering
      · cases taken
        exact covered_append covering [.resume]
  | transition target =>
      cases taken
      exact iff_of_true (covered_append covering [.transition target]) trivial
  | advance index now =>
      obtain ⟨call, present, rfl⟩ := Option.map_eq_some_iff.mp taken
      have split := underway_eraseIdx present
      unfold Accounted
      simp only [present, Option.mem_some_iff, forall_eq']
      have loads : call.loads = true →
          covered before.row.state (Interactions.anyPending before.asks)
            (before.calls.eraseIdx index ++
              (call.advance now before.row before.asks).2.2.toList) := by
        intro isLoad
        obtain ⟨_, _, rest⟩ := advance_load now before.row before.asks
          (Interactions.anyPending before.asks) isLoad
        rcases covering with agrees | moving
        · exact .inl agrees
        · right
          rw [underway_append, rest, Bool.or_comm, ← split]
          exact moving
      cases call with
      | pause | resume | transition => exact iff_of_true (loads rfl) trivial
      | checked passed => exact covered_landed_iff passed.target _ _
      | cancelForJob =>
          unfold Pausing.Covered
          simp only [PauseCall.advance, Option.toList_none, List.append_nil]
          rw [anyPending_cancelForJob, covered_none_iff]
  | claimForExecutor now node =>
      cases taken
      refine iff_of_true ?_ trivial
      unfold Pausing.Covered
      cases written : Repo.claimForExecutor now node before.row with
      | none => exact covering
      | some row =>
          rw [Repo.claimForExecutor, Option.ite_none_right_eq_some] at written
          rw [Option.getD_some, ← Option.some.inj written.2]
          exact .inl rfl
  | write update =>
      cases taken
      unfold Pausing.Covered Accounted
      dsimp only
      cases written : update.update before.row with
      | none =>
          simp only [Option.getD_none, Option.mem_def, reduceCtorEq,
            false_implies, implies_true, iff_true]
          exact covering
      | some row =>
          simp only [Option.getD_some, Option.mem_some_iff, forall_eq']
          rcases RowWrite.state_cases written with same | ended
          · rw [same]
            apply iff_of_true covering
            intro ended
            exact (covered_ended_iff ended _ _).mp covering
          · rw [covered_ended_iff ended]
            exact ⟨fun holds _ => holds, fun holds => holds ended⟩

/-- Only calls in flight take steps. -/
def Finishing (labels : List PauseStep) : Prop :=
  ∀ label ∈ labels, ∃ call now, label = .advance call now

/-- The job and its questions have come apart for good: the calls in flight can
finish, and however they do, the two disagree. -/
def Pausing.Doomed (system : Pausing) : Prop :=
  (∃ rest final, Finishing rest ∧ run Pausing.step system rest = some final ∧
    final.Quiescent) ∧
  ∀ rest final, Finishing rest → run Pausing.step system rest = some final →
    final.Quiescent → ¬ final.Balanced

/-- The number of awaits a call has left, at most. -/
def PauseCall.awaits : PauseCall → Nat
  | .pause | .resume => 4
  | .transition _ => 3
  | .checked _ => 2
  | .cancelForJob => 1

/-- An await leaves a call with fewer of them. -/
theorem awaits_advance (now : Instant) (row : LoopJob) (asks : List Interaction)
    (call : PauseCall) :
    ((call.advance now row asks).2.2.toList.map PauseCall.awaits).sum <
      call.awaits := by
  cases call with
  | pause | resume | transition | checked =>
      unfold PauseCall.advance
      dsimp only
      split <;> simp [PauseCall.awaits]
  | cancelForJob => simp [PauseCall.advance, PauseCall.awaits]

/-- The calls in flight can always finish. -/
theorem Pausing.can_finish (system : Pausing) :
    ∃ rest final, Finishing rest ∧
      run Pausing.step system rest = some final ∧ final.Quiescent := by
  generalize bound : (system.calls.map PauseCall.awaits).sum = awaits
  induction awaits using Nat.strongRecOn generalizing system with
  | _ awaits ih =>
      cases calls : system.calls with
      | nil => exact ⟨[], system, nofun, rfl, calls⟩
      | cons call others =>
          -- Let the first call take its next await.
          have taken : ∃ next, system.step (.advance 0 0) = some next ∧
              (next.calls.map PauseCall.awaits).sum < awaits := by
            refine ⟨_, by unfold Pausing.step; rw [calls]; rfl, ?_⟩
            rw [← bound, calls]
            simp only [List.eraseIdx_cons_zero, List.map_append, List.sum_append,
              List.map_cons, List.sum_cons]
            rw [Nat.add_comm]
            exact Nat.add_lt_add_right
              (awaits_advance 0 system.row system.asks call) _
          obtain ⟨next, taken, fewer⟩ := taken
          obtain ⟨rest, final, finishing, ran, quiescent⟩ :=
            ih _ fewer next rfl
          refine ⟨.advance 0 0 :: rest, final, ?_,
            run_cons_iff.mpr ⟨_, taken, ran⟩, quiescent⟩
          intro label member
          rcases List.mem_cons.mp member with rfl | later
          · exact ⟨0, 0, rfl⟩
          · exact finishing label later

/-- Where no call is about to move the job on, the awaits that are left leave
its state, and whether it has a question pending, as they are. -/
theorem Pausing.uncovered_advance {before after : Pausing} {index : Nat}
    {now : Instant} (uncovered : ¬ before.Covered)
    (taken : before.step (.advance index now) = some after) :
    ¬ after.Covered := by
  obtain ⟨call, present, rfl⟩ := Option.map_eq_some_iff.mp taken
  unfold Pausing.Covered covered at uncovered ⊢
  rw [underway_eraseIdx present, not_or, Bool.not_eq_true, Bool.not_eq_true,
    Bool.or_eq_false_iff] at uncovered
  obtain ⟨apart, still, others⟩ := uncovered
  dsimp only
  rw [underway_append]
  by_cases loads : call.loads = true
  · obtain ⟨sameRow, sameAsks, rest⟩ := advance_load now before.row before.asks
      (Interactions.anyPending before.asks) loads
    rw [sameRow, sameAsks, rest, apart, still, others]
    intro found
    simp at found
  · cases call with
    | pause | resume | transition => contradiction
    | checked passed =>
        -- Its UPDATE writes the state that the row is in already.
        rw [PauseCall.moves, Bool.or_eq_false_iff, decide_eq_false_iff_not,
          ne_eq, not_not] at still
        obtain ⟨same, noneCanceled⟩ := still
        simp only [PauseCall.advance, Repo.transition, same, apart, others]
        rw [same] at noneCanceled
        cases cancels : cancelsAsks before.row.state with
        | false => simp [underway]
        | true =>
            rw [cancels, Bool.true_and] at noneCanceled
            simp [underway, PauseCall.moves, noneCanceled]
    | cancelForJob =>
        rw [PauseCall.moves] at still
        rw [still] at apart others
        simp only [PauseCall.advance]
        rw [anyPending_cancelForJob, apart, others]
        intro found
        simp [underway] at found

/-- A job that no call in flight is about to move on is doomed. -/
theorem Pausing.doomed_of_uncovered {system : Pausing}
    (uncovered : ¬ system.Covered) : system.Doomed := by
  refine ⟨system.can_finish, ?_⟩
  intro rest
  induction rest generalizing system with
  | nil =>
      intro final _ ran _ agrees
      cases ran
      exact uncovered (.inl (system.balanced_iff.mp agrees))
  | cons label labels ih =>
      intro final finishing ran
      obtain ⟨next, taken, later⟩ := run_cons_iff.mp ran
      obtain ⟨index, now, rfl⟩ := finishing label List.mem_cons_self
      apply ih (uncovered_advance uncovered taken) final
      · intro other member
        exact finishing other (List.mem_cons_of_mem _ member)
      · exact later

/-- From the creation of a job on, whatever calls interleave on it: a run whose
steps all meet the condition has the job in step with its questions whenever no
call is in progress, and the first step that does not meet it brings the two
apart for good. -/
theorem books_balance (created : Instant) (new : NewLoopJob)
    (labels : List PauseStep) :
    (Along Pausing.step Accounted (.start (Repo.create created new)) labels →
      ∀ final, run Pausing.step (.start (Repo.create created new)) labels =
        some final → final.Quiescent → final.Balanced) ∧
    (∀ before label after,
      Along Pausing.step Accounted (.start (Repo.create created new)) labels →
      run Pausing.step (.start (Repo.create created new)) labels = some before →
      before.step label = some after → ¬ Accounted before label after →
      after.Doomed) := by
  have covering : Along Pausing.step Accounted
      (.start (Repo.create created new)) labels →
      ∀ final, run Pausing.step (.start (Repo.create created new)) labels =
        some final → final.Covered := by
    intro along final ran
    apply along.run_invariant Pausing.Covered _ _ ran
    · intro before label after covered taken accounted
      exact (covered.step_iff taken).mpr accounted
    · exact .inl rfl
  constructor
  · intro along final ran quiescent
    exact (covering along final ran).balanced quiescent
  · intro before label after along ran taken unaccounted
    apply Pausing.doomed_of_uncovered
    intro covered
    exact unaccounted (((covering along before ran).step_iff taken).mp covered)

/-- A `spec` job as a person requests it. -/
def newSpec : NewLoopJob :=
  { id := 1, tenant := 1, kind := .spec, targetTaskId := some 7
    workspaceId := some 3, requestedBy := 2, seed := none
    predecessorJobId := none, reviewPrNumber := none, reviewHeadSha := none
    reviewForced := false, buildFingerprint := none }

/-- It is placed on node 5, starts, asks a question, and is paused on it. -/
def askedOnce : List PauseStep :=
  [.claimForExecutor 1 5, .transition .running, .advance 0 2,
    .advance 0 3, .create (.node 5) true 1 "Which base?", .advance 0 4,
    .advance 0 4, .advance 0 5]

/-- The question is answered, the run resumes, and it finishes. -/
def answeredOnce : List PauseStep :=
  askedOnce ++
    [.answer 2 1 "main", .advance 0 6, .advance 0 6, .advance 0 7,
      .transition .completed, .advance 0 8, .advance 0 9]

/-- That run meets the condition at every step. -/
theorem books_balance_answered :
    ∃ final,
      run Pausing.step (.start (Repo.create 0 newSpec)) answeredOnce =
        some final ∧
      final.Quiescent ∧ final.Balanced :=
  ⟨_, rfl, rfl, (books_balance 0 newSpec answeredOnce).1 (by decide) _ rfl rfl⟩

/-- The three ways for the two to come apart: the paused job's only question is
canceled and nothing resumes it; one of two questions is answered and the job
resumes with the other pending; the job finishes while its question waits. -/
theorem books_off :
    (∃ final,
      run Pausing.step (.start (Repo.create 0 newSpec))
        (askedOnce ++ [.cancel 1]) = some final ∧
      final.Quiescent ∧ ¬ final.Balanced) ∧
    (∃ final,
      run Pausing.step (.start (Repo.create 0 newSpec))
        (askedOnce ++
          [.create (.node 5) true 2 "Which name?", .advance 0 6,
            .answer 2 1 "main", .advance 0 7, .advance 0 7, .advance 0 8]) =
        some final ∧
      final.Quiescent ∧ ¬ final.Balanced) ∧
    ∃ final,
      run Pausing.step (.start (Repo.create 0 newSpec))
        (askedOnce ++ [.transition .completed, .advance 0 6, .advance 0 7]) =
        some final ∧
      final.Quiescent ∧ ¬ final.Balanced :=
  ⟨⟨_, rfl, by decide⟩, ⟨_, rfl, by decide⟩, ⟨_, rfl, by decide⟩⟩

end NookOs.Jobs
