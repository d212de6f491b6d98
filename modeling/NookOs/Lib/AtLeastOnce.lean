/-
Module: NookOs.Lib.AtLeastOnce
Purpose: The at-least-once work queue as an abstract machine over message
  identities and a linear order of instants, and what every trace of it keeps.
Trusted boundary: none
Main exports: Event, Status, advance, step, run_status, Guarantees, guarantees_of_run
-/
import Mathlib.Order.Lattice
import Mathlib.Order.Defs.LinearOrder
import Mathlib.Logic.Function.Basic
import NookOs.Lib.Run

namespace NookOs.Lib.AtLeastOnce

open Lib

/-!
A message is enqueued once with a bound on its deliveries.  A delivery hides it
until a deadline, which a later extension may move; a requeue shows it again at
once.  It leaves by an acknowledgement, by being killed, or by having used up
its deliveries.  Calls that name a message which has left are ignored.

The machine moves one message at a time, so a trace of the queue is a family of
traces of single messages (`run_status`), and every law below is a law of one
message's trace.
-/

variable {Id Time : Type*}

/-- What can happen to a message. -/
inductive Event (Id Time : Type*) where
  | enqueue (id : Id) (bound : Nat)
  | deliver (id : Id) (now deadline : Time)
  | requeue (id : Id)
  | kill (id : Id)
  | exhaust (id : Id)
  | extend (id : Id) (deadline : Time)
  | ack (id : Id)
deriving DecidableEq

/-- The message an event is about. -/
def Event.id : Event Id Time → Id
  | .enqueue id _ | .deliver id _ _ | .requeue id | .kill id | .exhaust id
  | .extend id _ | .ack id => id

/-- The event is a delivery. -/
def Event.isDelivery : Event Id Time → Bool
  | .deliver _ _ _ => true
  | _ => false

/-- Where a message stands.  `held` counts its deliveries so far against their
bound and carries the deadline that hides it. -/
inductive Status (Time : Type*) where
  | unknown
  | held (delivered bound : Nat) (hiddenUntil : Option Time)
  | dead
  | gone
deriving DecidableEq

/-- The next status of the message an event is about, where the event is
allowed.  A delivery needs a visible message with a delivery left, and a message
is exhausted only when it has none. -/
def advance [LinearOrder Time] : Status Time → Event Id Time →
    Option (Status Time)
  | .unknown, .enqueue _ bound => some (.held 0 bound none)
  | .held delivered bound hiddenUntil, .deliver _ now deadline =>
      if delivered < bound ∧ ∀ hidden ∈ hiddenUntil, hidden ≤ now then
        some (.held (delivered + 1) bound (some deadline))
      else none
  | .held delivered bound _, .exhaust _ =>
      if delivered = bound then some .dead else none
  | .held delivered bound _, .requeue _ => some (.held delivered bound none)
  | .held delivered bound _, .extend _ deadline =>
      some (.held delivered bound (some deadline))
  | .held _ _ _, .kill _ => some .dead
  | .held _ _ _, .ack _ => some .gone
  | status, .requeue _ | status, .extend _ _ | status, .kill _
  | status, .ack _ => some status
  | _, _ => none

/-- The queue moves the message an event is about. -/
def step [LinearOrder Time] [DecidableEq Id] (queue : Id → Status Time)
    (event : Event Id Time) : Option (Id → Status Time) :=
  (advance (queue event.id) event).map (Function.update queue event.id)

variable {trace : List (Event Id Time)}

section Rules

variable [LinearOrder Time] {delivered bound : Nat} {hiddenUntil : Option Time}
  {next : Status Time} {id : Id}

theorem advance_deliver_iff {now deadline : Time} :
    advance (.held delivered bound hiddenUntil) (.deliver id now deadline) = some next ↔
      (delivered < bound ∧ ∀ hidden ∈ hiddenUntil, hidden ≤ now) ∧
        .held (delivered + 1) bound (some deadline) = next := by
  change (if _ then some _ else none) = some next ↔ _
  simp only [Option.ite_none_right_eq_some, Option.some.injEq]

theorem advance_exhaust_iff :
    advance (.held delivered bound hiddenUntil) (.exhaust id) = some next ↔
      delivered = bound ∧ .dead = next := by
  change (if _ then some _ else none) = some next ↔ _
  simp only [Option.ite_none_right_eq_some, Option.some.injEq]

end Rules

section Projection

variable [LinearOrder Time] [DecidableEq Id]

/-- A machine that moves the message of an event as the event allows, and no
other message, takes the queue's step. -/
theorem step_of_advance {queue final : Id → Status Time} {event : Event Id Time}
    (advanced : advance (queue event.id) event = some (final event.id))
    (frame : ∀ other, other ≠ event.id → final other = queue other) :
    step queue event = some final := by
  rw [step, advanced, Option.map_some, Option.some.injEq]
  funext other
  by_cases moved : other = event.id
  · rw [moved, Function.update_self]
  · rw [Function.update_of_ne moved, frame other moved]

/-- Events about two messages can be taken in either order. -/
theorem step_comm {first second : Event Id Time} (apart : first.id ≠ second.id)
    (queue : Id → Status Time) :
    (step queue first).bind (step · second) =
      (step queue second).bind (step · first) := by
  simp only [step, Option.bind_map, Function.comp_def,
    Function.update_of_ne apart, Function.update_of_ne apart.symm]
  cases advance (queue first.id) first with
  | none => cases advance (queue second.id) second <;> rfl
  | some status =>
      cases advance (queue second.id) second with
      | none => rfl
      | some other =>
          simp only [Option.bind_some, Option.map_some]
          rw [Function.update_comm apart]

/-- Events about different messages can be taken in any order. -/
theorem run_perm {trace other : List (Event Id Time)} (perm : trace.Perm other)
    (apart : trace.Pairwise fun first second => first.id ≠ second.id)
    (queue : Id → Status Time) : run step queue trace = run step queue other := by
  induction perm generalizing queue with
  | nil => rfl
  | cons event _ ih =>
      rw [run, run]
      cases step queue event with
      | none => rfl
      | some next => exact ih (List.pairwise_cons.mp apart).2 next
  | swap first second trace =>
      have differs := (List.pairwise_cons.mp apart).1 first (List.mem_cons_self ..)
      have both (first second : Event Id Time) :
          run step queue (first :: second :: trace) =
            ((step queue first).bind (step · second)).bind
              (run step · trace) := by
        rw [run]
        cases step queue first with
        | none => rfl
        | some next =>
            rw [Option.bind_some]
            change run step next (second :: trace) = _
            rw [run]
            cases step next second <;> rfl
      rw [both, both, step_comm differs]
  | trans one _ oneHypothesis otherHypothesis =>
      have apartAfter := (one.pairwise_iff fun differs => Ne.symm differs).mp apart
      rw [oneHypothesis apart, otherHypothesis apartAfter]

/-- A trace of the queue, restricted to the events about one message, is a trace
of that message. -/
theorem run_status {queue final : Id → Status Time} (ran : run step queue trace = some final)
    (id : Id) :
    run advance (queue id) (trace.filter fun event => event.id = id) =
      some (final id) := by
  induction trace generalizing queue with
  | nil =>
      cases ran
      rfl
  | cons event trace ih =>
      obtain ⟨next, taken, rest⟩ := run_cons_iff.mp ran
      simp only [step, Option.map_eq_some_iff] at taken
      obtain ⟨status, advanced, rfl⟩ := taken
      have onward := ih rest
      by_cases about : event.id = id
      · subst about
        rw [List.filter_cons_of_pos (by simp)]
        rw [Function.update_self] at onward
        exact run_cons_iff.mpr ⟨status, advanced, onward⟩
      · rw [List.filter_cons_of_neg (by simpa using about)]
        rw [Function.update_of_ne (Ne.symm about)] at onward
        exact onward

end Projection

section OneMessage

variable [LinearOrder Time]

/-- The deliveries a message has left. -/
def Status.room : Status Time → Nat
  | .held delivered bound _ => bound - delivered
  | _ => 0

/-- The deliveries in a trace. -/
def deliveries (trace : List (Event Id Time)) : Nat :=
  trace.countP Event.isDelivery

/-- Once known, a message stays known and each delivery uses up room. -/
theorem room_of_advance {status next : Status Time} {event : Event Id Time}
    (known : status ≠ .unknown) (advanced : advance status event = some next) :
    next ≠ .unknown ∧ deliveries [event] + next.room ≤ status.room := by
  cases status with
  | unknown => contradiction
  | dead | gone => cases event <;> cases advanced <;> simp [deliveries, Event.isDelivery]
  | held delivered bound hiddenUntil =>
      cases event with
      | deliver id now deadline =>
          obtain ⟨⟨left, _⟩, rfl⟩ := advance_deliver_iff.mp advanced
          refine ⟨by simp, ?_⟩
          simp only [deliveries, List.countP_singleton, Event.isDelivery,
            if_true, Status.room]
          omega
      | exhaust id =>
          obtain ⟨_, rfl⟩ := advance_exhaust_iff.mp advanced
          simp [deliveries, Event.isDelivery, Status.room]
      | _ =>
          cases advanced <;>
            simp [deliveries, Event.isDelivery, Status.room]

variable {status final : Status Time}

/-- A known message is delivered at most as often as it has room for. -/
theorem deliveries_le_room (known : status ≠ .unknown)
    (ran : run advance status trace = some final) :
    deliveries trace ≤ status.room := by
  induction trace generalizing status with
  | nil => simp [deliveries]
  | cons event trace ih =>
      obtain ⟨next, advanced, rest⟩ := run_cons_iff.mp ran
      obtain ⟨stillKnown, used⟩ := room_of_advance known advanced
      have later := ih stillKnown rest
      have split : deliveries (event :: trace) =
          deliveries [event] + deliveries trace := by
        simp [deliveries, List.countP_cons, Nat.add_comm]
      omega

/-- A message is enqueued once. -/
theorem not_enqueued_again (known : status ≠ .unknown)
    (ran : run advance status trace = some final) (id : Id) (bound : Nat) :
    .enqueue id bound ∉ trace := by
  intro member
  obtain ⟨before, after, rfl⟩ := List.append_of_mem member
  obtain ⟨middle, ranBefore, ranAfter⟩ := run_append_iff.mp ran
  have stillKnown : middle ≠ .unknown := by
    refine run_invariant (· ≠ .unknown) ?_ known ranBefore
    intro before event after stillKnown advanced
    exact (room_of_advance stillKnown advanced).1
  obtain ⟨next, advanced, _⟩ := run_cons_iff.mp ranAfter
  cases middle with
  | unknown => contradiction
  | held | dead | gone => cases advanced

/-- An unknown message stays unknown until its enqueue; what runs before the
enqueue delivers nothing. -/
theorem split_at_enqueue {final : Status Time} {id : Id} {bound : Nat}
    (member : .enqueue id bound ∈ trace) (ran : run advance .unknown trace = some final) :
    ∃ before after, trace = before ++ .enqueue id bound :: after ∧
      deliveries before = 0 ∧
      run advance (.held 0 bound none) after = some final := by
  induction trace with
  | nil => contradiction
  | cons event trace ih =>
      obtain ⟨next, advanced, rest⟩ := run_cons_iff.mp ran
      by_cases here : event = .enqueue id bound
      · subst here
        cases advanced
        exact ⟨[], trace, rfl, rfl, rest⟩
      · have inRest := (List.mem_cons.mp member).resolve_left (Ne.symm here)
        have ignored : next = .unknown ∧ event.isDelivery = false := by
          cases event with
          | enqueue other otherBound =>
              cases advanced
              exact absurd inRest (not_enqueued_again (by simp) rest id bound)
          | _ => cases advanced <;> exact ⟨rfl, rfl⟩
        rw [ignored.1] at rest
        obtain ⟨before, after, rfl, silent, onward⟩ :=
          ih inRest rest
        refine ⟨event :: before, after, rfl, ?_, onward⟩
        simpa [deliveries, ignored.2] using silent

/-- The deadline that hides a message after a stretch of its trace. -/
def deadlineAfter (deadline : Time) : List (Event Id Time) → Time
  | [] => deadline
  | .deliver _ _ next :: rest | .extend _ next :: rest => deadlineAfter next rest
  | _ :: rest => deadlineAfter deadline rest

/-- A hidden message is delivered only after a requeue or past the deadline in
force. -/
theorem hidden_until_requeued_or_due {delivered bound : Nat}
    {deadline now nextDeadline : Time} {id : Id} {final : Status Time}
    {between after : List (Event Id Time)}
    (ran : run advance (.held delivered bound (some deadline))
      (between ++ .deliver id now nextDeadline :: after) = some final) :
    (∃ requeued, .requeue requeued ∈ between) ∨
      deadlineAfter deadline between ≤ now := by
  induction between generalizing delivered deadline with
  | nil =>
      obtain ⟨next, advanced, _⟩ := run_cons_iff.mp ran
      obtain ⟨⟨_, due⟩, _⟩ := advance_deliver_iff.mp advanced
      exact .inr (due deadline rfl)
  | cons event between ih =>
      obtain ⟨next, advanced, rest⟩ := run_cons_iff.mp ran
      -- a message that has left is not delivered any more
      have notLeft : next.room = 0 → next ≠ .unknown → False := by
        intro noRoom known
        have most := deliveries_le_room known rest
        rw [noRoom] at most
        simp [deliveries, List.countP_append, Event.isDelivery] at most
      cases event with
      | enqueue other otherBound => cases advanced
      | requeue other => exact .inl ⟨other, List.mem_cons_self ..⟩
      | kill | ack =>
          cases advanced
          exact (notLeft rfl (by simp)).elim
      | exhaust other =>
          obtain ⟨_, rfl⟩ := advance_exhaust_iff.mp advanced
          exact (notLeft rfl (by simp)).elim
      | deliver other otherNow otherDeadline =>
          obtain ⟨_, rfl⟩ := advance_deliver_iff.mp advanced
          rcases ih rest with ⟨requeued, later⟩ | due
          · exact .inl ⟨requeued, List.mem_cons_of_mem _ later⟩
          · exact .inr due
      | extend other otherDeadline =>
          cases advanced
          rcases ih rest with ⟨requeued, later⟩ | due
          · exact .inl ⟨requeued, List.mem_cons_of_mem _ later⟩
          · exact .inr due

/-- A message dies only by being killed or exhausted. -/
theorem dead_of_killed_or_exhausted (alive : status ≠ .dead)
    (ran : run advance status trace = some final) (died : final = .dead) :
    ∃ event ∈ trace, event = .kill event.id ∨ event = .exhaust event.id := by
  induction trace generalizing status with
  | nil =>
      cases ran
      contradiction
  | cons event trace ih =>
      obtain ⟨next, advanced, rest⟩ := run_cons_iff.mp ran
      by_cases causes : event = .kill event.id ∨ event = .exhaust event.id
      · exact ⟨event, List.mem_cons_self .., causes⟩
      · have stillAlive : next ≠ .dead := by
          cases event with
          | kill id => exact absurd (.inl rfl) causes
          | exhaust id => exact absurd (.inr rfl) causes
          | deliver id now deadline =>
              cases status with
              | held delivered bound hiddenUntil =>
                  obtain ⟨_, rfl⟩ := advance_deliver_iff.mp advanced
                  simp
              | dead => contradiction
              | _ => cases advanced
          | _ => cases status <;> cases advanced <;> simp_all
        obtain ⟨cause, member, died⟩ := ih stillAlive rest
        exact ⟨cause, List.mem_cons_of_mem _ member, died⟩

/-- The queue holds a message, alive or dead-lettered. -/
def Status.InCustody : Status Time → Prop
  | .held _ _ _ | .dead => True
  | .unknown | .gone => False

/-- A message in custody stays there until it is acknowledged. -/
theorem inCustody_until_acked (held : status.InCustody)
    (unacked : ∀ event ∈ trace, event ≠ .ack event.id)
    (ran : run advance status trace = some final) : final.InCustody := by
  induction trace generalizing status with
  | nil =>
      cases ran
      exact held
  | cons event trace ih =>
      obtain ⟨next, advanced, rest⟩ := run_cons_iff.mp ran
      have notAck := unacked event (List.mem_cons_self ..)
      have stillHeld : next.InCustody := by
        cases status with
        | unknown | gone => exact held.elim
        | dead => cases event <;> cases advanced <;> trivial
        | held delivered bound hiddenUntil =>
            cases event with
            | ack id => exact absurd rfl notAck
            | deliver | exhaust =>
                simp only [advance_deliver_iff, advance_exhaust_iff] at advanced
                rw [← advanced.2]
                trivial
            | _ => cases advanced <;> trivial
      exact ih stillHeld
        (fun later member => unacked later (List.mem_cons_of_mem _ member)) rest

end OneMessage

section Guarantees

variable [LinearOrder Time] [DecidableEq Id]

/-- The events of a trace about one message. -/
def about (id : Id) (trace : List (Event Id Time)) : List (Event Id Time) :=
  trace.filter fun event => event.id = id

/-- What an at-least-once queue promises of a trace that ended in `final`. -/
structure Guarantees (trace : List (Event Id Time))
    (final : Id → Status Time) : Prop where
  /-- Until acknowledged, an enqueued message is still there. -/
  custody : ∀ id bound, .enqueue id bound ∈ trace → .ack id ∉ trace →
    (final id).InCustody
  /-- A message is delivered no more often than its bound. -/
  bounded : ∀ id bound, .enqueue id bound ∈ trace →
    deliveries (about id trace) ≤ bound
  /-- Between two deliveries lies a requeue, or the passing of the deadline in
  force at the second. -/
  separated : ∀ id before first deadline between second nextDeadline after,
    trace = before ++ .deliver id first deadline ::
      (between ++ .deliver id second nextDeadline :: after) →
    .requeue id ∈ between ∨ deadlineAfter deadline (about id between) ≤ second
  /-- A message is dead-lettered only by being killed or exhausted. -/
  deadLettered : ∀ id, final id = .dead →
    .kill id ∈ trace ∨ .exhaust id ∈ trace

/-- Every trace of the machine from the empty queue keeps the guarantees. -/
theorem guarantees_of_run {final : Id → Status Time}
    (ran : run step (fun _ => .unknown) trace = some final) :
    Guarantees trace final := by
  have ranAbout := run_status ran
  refine ⟨?_, ?_, ?_, ?_⟩
  · intro id bound enqueued unacked
    have member : .enqueue id bound ∈ about id trace := by
      simpa [about, Event.id] using enqueued
    obtain ⟨before, after, split, _, onward⟩ :=
      split_at_enqueue member (ranAbout id)
    have held : (Status.held 0 bound none : Status Time).InCustody := trivial
    refine inCustody_until_acked held ?_ onward
    intro event inAfter isAck
    have inAbout : event ∈ about id trace := by
      rw [split]
      simp [inAfter]
    obtain ⟨inTrace, aboutId⟩ := List.mem_filter.mp inAbout
    rw [of_decide_eq_true aboutId] at isAck
    exact unacked (isAck ▸ inTrace)
  · intro id bound enqueued
    have member : .enqueue id bound ∈ about id trace := by
      simpa [about, Event.id] using enqueued
    obtain ⟨before, after, split, silent, onward⟩ :=
      split_at_enqueue member (ranAbout id)
    have later := deliveries_le_room (by simp) onward
    rw [split]
    simp only [deliveries, List.countP_append, Event.isDelivery,
      Bool.false_eq_true, not_false_eq_true, List.countP_cons_of_neg]
      at silent later ⊢
    simp only [Status.room] at later
    omega
  · intro id before first deadline between second nextDeadline after split
    have ranId := ranAbout id
    simp only [split, List.filter_append, List.filter_cons, Event.id,
      decide_true, if_true] at ranId
    obtain ⟨middle, _, onward⟩ := run_append_iff.mp ranId
    obtain ⟨next, advanced, rest⟩ := run_cons_iff.mp onward
    cases middle with
    | held delivered bound hiddenUntil =>
        obtain ⟨_, rfl⟩ := advance_deliver_iff.mp advanced
        rcases hidden_until_requeued_or_due rest with ⟨requeued, member⟩ | due
        · obtain ⟨inBetween, aboutId⟩ := List.mem_filter.mp member
          have same : requeued = id := of_decide_eq_true aboutId
          exact .inl (same ▸ inBetween)
        · exact .inr due
    | unknown | dead | gone => cases advanced
  · intro id died
    obtain ⟨event, member, cause⟩ :=
      dead_of_killed_or_exhausted (by simp) (ranAbout id) died
    obtain ⟨inTrace, aboutId⟩ := List.mem_filter.mp member
    rw [of_decide_eq_true aboutId] at cause
    rcases cause with rfl | rfl
    · exact .inl inTrace
    · exact .inr inTrace

end Guarantees

end NookOs.Lib.AtLeastOnce
