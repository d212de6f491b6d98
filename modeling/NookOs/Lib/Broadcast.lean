/-
Module: NookOs.Lib.Broadcast
Purpose: Messages in flight between parties, in order for each pair of them, and
  when copies of one value that are written by broadcast come to agree.
Trusted boundary: none
Main exports: Mail, Mail.post, Mail.broadcast, Mail.deliver, Settled.deliver, Settled.value_eq
-/
import Mathlib.Logic.Function.Basic
import Mathlib.Data.List.Basic

namespace NookOs.Lib

variable {Party Message Value : Type*}

/-- What is in flight: for each sender and receiver, the messages in the order
they were sent. -/
abbrev Mail (Party Message : Type*) := Party → Party → List Message

variable {message : Message} {sender receiver : Party} {queue : List Message}

namespace Mail

def empty : Mail Party Message := fun _ _ => []

variable [DecidableEq Party]

/-- A message to one receiver. -/
def post (sender receiver : Party) (message : Message) (mail : Mail Party Message) :
    Mail Party Message := fun source target =>
  if source = sender ∧ target = receiver then mail source target ++ [message]
  else mail source target

/-- A message to everybody, its sender included. -/
def broadcast (sender : Party) (message : Message) (mail : Mail Party Message) :
    Mail Party Message := fun source target =>
  if source = sender then mail source target ++ [message] else mail source target

/-- The oldest message of a pair, and what stays in flight. -/
def deliver (sender receiver : Party) (mail : Mail Party Message) :
    Option (Message × Mail Party Message) :=
  match mail sender receiver with
  | [] => none
  | message :: rest =>
      some (message, fun source target =>
        if source = sender ∧ target = receiver then rest else mail source target)

theorem deliver_eq_some_iff {mail after : Mail Party Message} :
    mail.deliver sender receiver = some (message, after) ↔
      ∃ rest, mail sender receiver = message :: rest ∧
        after = fun source target =>
          if source = sender ∧ target = receiver then rest else mail source target := by
  rw [deliver]
  cases mail sender receiver with
  | nil => simp
  | cons first rest =>
      rw [Option.some.injEq, Prod.mk.injEq]
      constructor
      · rintro ⟨rfl, rfl⟩
        exact ⟨rest, rfl, rfl⟩
      · rintro ⟨others, same, rfl⟩
        obtain ⟨rfl, rfl⟩ := List.cons.inj same
        exact ⟨rfl, rfl⟩

variable {mail : Mail Party Message}

theorem post_self :
    mail.post sender receiver message sender receiver =
      mail sender receiver ++ [message] :=
  if_pos ⟨rfl, rfl⟩

variable {sender receiver source target : Party}

/-- The queues of the other pairs stay as they are. -/
theorem post_of_ne (differs : ¬(source = sender ∧ target = receiver)) :
    mail.post sender receiver message source target = mail source target :=
  if_neg differs

theorem mem_broadcast {sender source target : Party}
    {sent message : Message} (member : message ∈ mail.broadcast sender sent source target) :
    message ∈ mail source target ∨ (source = sender ∧ message = sent) := by
  unfold broadcast at member
  split at member
  case isFalse => exact .inl member
  case isTrue isSender =>
    rcases List.mem_append.mp member with old | new
    · exact .inl old
    · exact .inr ⟨isSender, List.mem_singleton.mp new⟩

/-- What stays in flight was in flight. -/
theorem mem_deliver {mail after : Mail Party Message} {taken message : Message}
    (delivered : mail.deliver sender receiver = some (taken, after))
    (member : message ∈ after source target) : message ∈ mail source target := by
  obtain ⟨rest, queue, rfl⟩ := deliver_eq_some_iff.mp delivered
  dsimp only at member
  split at member
  case isFalse => exact member
  case isTrue here =>
    rw [here.1, here.2, queue]
    exact List.mem_cons_of_mem taken member

/-- The messages of one kind, for each pair. -/
def only (kind : Message → Bool) (mail : Mail Party Message) : Mail Party Message :=
  fun source target => (mail source target).filter kind

omit [DecidableEq Party] in
theorem only_empty {kind : Message → Bool} :
    (empty : Mail Party Message).only kind = empty := rfl

theorem only_post {kind : Message → Bool} :
    (mail.post sender receiver message).only kind =
      if kind message then (mail.only kind).post sender receiver message
      else mail.only kind := by
  funext source target
  cases isKind : kind message with
  | true =>
      rw [if_pos rfl]
      simp only [only, post]
      split
      · rw [List.filter_append, List.filter_cons_of_pos isKind, List.filter_nil]
      · rfl
  | false =>
      rw [if_neg (by decide)]
      simp only [only, post]
      split
      · rw [List.filter_append, List.filter_cons_of_neg (by simp [isKind]),
          List.filter_nil, List.append_nil]
      · rfl

/-- A message that arrives is the oldest of its kind too. -/
theorem only_deliver {kind : Message → Bool} {mail after : Mail Party Message}
    (delivered : mail.deliver sender receiver = some (message, after)) :
    if kind message then
      (mail.only kind).deliver sender receiver = some (message, after.only kind)
    else after.only kind = mail.only kind := by
  obtain ⟨rest, queue, rfl⟩ := deliver_eq_some_iff.mp delivered
  cases isKind : kind message with
  | true =>
      rw [if_pos rfl]
      apply deliver_eq_some_iff.mpr
      refine ⟨rest.filter kind, ?_, ?_⟩
      · rw [only, queue, List.filter_cons_of_pos isKind]
      · funext source target
        simp only [only]
        split <;> rfl
  | false =>
      rw [if_neg (by decide)]
      funext source target
      simp only [only]
      split
      case isFalse => rfl
      case isTrue here =>
        rw [here.1, here.2, queue, List.filter_cons_of_neg (by simp [isKind])]

/-- One queue of messages, and nothing else in flight. -/
def single (sender receiver : Party) (queue : List Message) : Mail Party Message :=
  fun source target => if source = sender ∧ target = receiver then queue else []

theorem single_nil :
    (single sender receiver [] : Mail Party Message) = empty := by
  funext source target
  exact ite_self _

theorem single_self :
    single sender receiver queue sender receiver = queue :=
  if_pos ⟨rfl, rfl⟩

theorem post_single :
    (single sender receiver queue).post sender receiver message =
      single sender receiver (queue ++ [message]) := by
  funext source target
  simp only [single, post]
  split <;> rfl

theorem deliver_single_iff {after : Mail Party Message} :
    (single sender receiver queue).deliver source target = some (message, after) ↔
      source = sender ∧ target = receiver ∧
        ∃ rest, queue = message :: rest ∧ after = single sender receiver rest := by
  rw [deliver_eq_some_iff]
  by_cases here : source = sender ∧ target = receiver
  · obtain ⟨rfl, rfl⟩ := here
    simp only [single_self, true_and]
    have same : ∀ rest : List Message,
        (fun first second => if first = source ∧ second = target then rest
          else single source target queue first second) = single source target rest := by
      intro rest
      funext first second
      simp only [single]
      split <;> rfl
    simp only [same]
  · simp only [single, if_neg here]
    constructor
    · rintro ⟨rest, none, _⟩
      cases none
    · rintro ⟨isSender, isReceiver, _⟩
      exact absurd ⟨isSender, isReceiver⟩ here

end Mail

/-!
Each party keeps a copy of one value.  A write changes the writer's copy and is
broadcast; `about` reads off a message the value it writes, where it is about
this copy at all.  A receiver's copy becomes what the last message it got says.
-/

section Registers

variable (about : Message → Option Value)

/-- The writes of the value in flight for a pair. -/
def writesOf (queue : List Message) : List Value :=
  queue.filterMap about

/-- The parties agree on a value but for what is in flight, which ends with that
value for every pair. -/
structure Settled (value : Value) (copy : Party → Value) (mail : Mail Party Message) :
    Prop where
  last : ∀ source target, source ≠ target →
    ∀ written ∈ (writesOf about (mail source target)).getLast?, written = value
  arrived : ∀ target,
    (∀ source, source ≠ target → writesOf about (mail source target) = []) →
      copy target = value

variable {about : Message → Option Value} {value : Value} {copy : Party → Value}
  {mail : Mail Party Message}

/-- What is not about the value does not count. -/
theorem writesOf_append_of_none (other : about message = none) :
    writesOf about (queue ++ [message]) = writesOf about queue := by
  rw [writesOf, List.filterMap_append, List.filterMap_cons_none other,
    List.filterMap_nil, List.append_nil]
  rfl

theorem writesOf_append {written : Value} (writes : about message = some written) :
    writesOf about (queue ++ [message]) = writesOf about queue ++ [written] := by
  rw [writesOf, List.filterMap_append, List.filterMap_cons_some writes,
    List.filterMap_nil]
  rfl

/-- Once everything has arrived, every copy is the value. -/
theorem Settled.value_eq (settled : Settled about value copy mail)
    (delivered : ∀ source target, source ≠ target → mail source target = [])
    (party : Party) : copy party = value := by
  apply settled.arrived
  intro source differs
  rw [delivered source party differs]
  rfl

theorem settled_empty (same : ∀ party, copy party = value) :
    Settled about value copy Mail.empty where
  last := fun _ _ _ _ isLast => nomatch isLast
  arrived := fun target _ => same target

variable [DecidableEq Party]

/-- A write settles on what it writes, where nobody else's write is in flight that
ends with anything else. -/
theorem settled_write {written : Value} {writer : Party} (writes : about message = some written)
    (ordered : ∀ source target, source ≠ writer → source ≠ target →
      ∀ seen ∈ (writesOf about (mail source target)).getLast?, seen = written) :
    Settled about written (Function.update copy writer written)
      (mail.broadcast writer message) where
  last := by
    intro source target differs seen isLast
    unfold Mail.broadcast at isLast
    split at isLast
    · rw [writesOf_append writes, List.getLast?_concat] at isLast
      exact (Option.some.inj isLast).symm
    case isFalse other => exact ordered source target other differs seen isLast
  arrived := by
    intro target nothing
    by_cases isWriter : target = writer
    · rw [isWriter, Function.update_self]
    · -- the write itself is in flight to everybody else
      have pending := nothing writer (Ne.symm isWriter)
      rw [Mail.broadcast, if_pos rfl, writesOf_append writes] at pending
      exact absurd pending (List.append_ne_nil_of_right_ne_nil _ (List.cons_ne_nil _ _))

/-- A broadcast about something else changes nothing. -/
theorem Settled.broadcast_other {sender : Party}
    (settled : Settled about value copy mail) (other : about message = none) :
    Settled about value copy (mail.broadcast sender message) := by
  have same : ∀ source target,
      writesOf about (mail.broadcast sender message source target) =
        writesOf about (mail source target) := by
    intro source target
    unfold Mail.broadcast
    split
    · exact writesOf_append_of_none other
    · rfl
  constructor
  · intro source target differs
    rw [same]
    exact settled.last source target differs
  · intro target nothing
    exact settled.arrived target fun source differs =>
      (same source target).symm.trans (nothing source differs)

/-- A message that arrives brings the receiver's copy nearer to the value. -/
theorem Settled.deliver {after : Mail Party Message} (settled : Settled about value copy mail)
    (taken : mail.deliver sender receiver = some (message, after)) :
    Settled about value
      (if sender = receiver then copy
        else (about message).elim copy (Function.update copy receiver)) after := by
  obtain ⟨rest, queue, rfl⟩ := Mail.deliver_eq_some_iff.mp taken
  constructor
  · intro source target differs seen isLast
    apply settled.last source target differs
    split at isLast
    case isFalse => exact isLast
    case isTrue here =>
      obtain ⟨rfl, rfl⟩ := here
      rw [queue, writesOf]
      cases writes : about message with
      | none =>
          rw [List.filterMap_cons_none writes]
          exact isLast
      | some written =>
          rw [List.filterMap_cons_some writes, List.getLast?_cons,
            show (rest.filterMap about).getLast? = some seen from isLast]
          rfl
  · intro target nothing
    by_cases own : sender = receiver
    · rw [if_pos own]
      apply settled.arrived
      intro source differs
      have stays := nothing source differs
      rwa [if_neg (fun here => differs (here.1.trans (own.trans here.2.symm)))] at stays
    · rw [if_neg own]
      by_cases isReceiver : target = receiver
      · subst isReceiver
        have left := nothing sender own
        rw [if_pos ⟨rfl, rfl⟩] at left
        cases writes : about message with
        | none =>
            apply settled.arrived
            intro source differs
            by_cases isSender : source = sender
            · rw [isSender, queue, writesOf, List.filterMap_cons_none writes]
              exact left
            · have stays := nothing source differs
              rwa [if_neg (fun here => isSender here.1)] at stays
        | some written =>
            rw [Option.elim_some, Function.update_self]
            apply settled.last sender target own
            rw [queue, writesOf, List.filterMap_cons_some writes,
              show rest.filterMap about = [] from left]
            rfl
      · have kept : (about message).elim copy (Function.update copy receiver) target =
            copy target := by
          cases about message with
          | none => rfl
          | some written => exact Function.update_of_ne isReceiver written copy
        rw [kept]
        apply settled.arrived
        intro source differs
        have stays := nothing source differs
        rwa [if_neg (fun here => isReceiver here.2)] at stays

end Registers

end NookOs.Lib
