/-
Module: NookOs.Queue.Sqs
Purpose: The SQS queue backend under any number of consumers, and exactly when
  a message is dead-lettered for exhaustion only after its deliveries.
Trusted boundary: none
Main exports: SqsQueue, SqsQueue.step, AttemptsAreDeliveries, NoneWasted, sqs_attempts_iff
-/
import Mathlib.Data.Finset.Interval
import Mathlib.Order.Interval.Finset.Nat
import Mathlib.Logic.Function.Basic
import NookOs.Lib.Run
import NookOs.Lib.InFlight
import NookOs.Queue.Work

namespace NookOs.Queue.Sqs

open Lib

/-!
SQS counts every `ReceiveMessage` that answers a message and hides the message
for the call's visibility timeout.  It has no receive filter, so a `receive`
takes whatever comes and releases what it was not asked for.  The awaits of a
`receive` on SQS are steps of their own, and any number of consumers may be at
any point of theirs.  Which visible messages a `ReceiveMessage` answers, and
which calls fail, is SQS's to choose.
-/

abbrev ConsumerId := Nat

/-- Whole seconds of a duration, cast to 32 bits. -/
def asSecs (duration : Duration) : Int :=
  ((duration / 1000000 : Nat) : Int).bmod (2 ^ 32)

/-- A message in the queue. -/
structure Message where
  id : MessageId
  work : NewWork
  sentAt : Instant
  /-- `ApproximateReceiveCount`. -/
  receiveCount : Nat
  visibleAt : Instant
deriving DecidableEq

/-- A receipt handle: the message and which of its receives gave it. -/
abbrev Handle := MessageId × Nat

/-- A message as a `ReceiveMessage` answers it. -/
structure Received where
  id : MessageId
  work : NewWork
  sentAt : Instant
  attempts : Nat
deriving DecidableEq

def Received.handle (item : Received) : Handle := (item.id, item.attempts)

/-- What a claimed message keeps between `receive` and its `ack` or `nack`. -/
structure InFlight where
  handle : Handle
  workType : WorkType
  tenantId : TenantId
  payload : List UInt8
  maxAttempts : Nat
deriving DecidableEq

/-- Why a message was dead-lettered. -/
inductive DeadReason where
  | exhausted
  | rejected (reason : String)
deriving DecidableEq

/-- The text of the `nook-dead-reason` attribute. -/
def DeadReason.text : DeadReason → String
  | .exhausted => "max attempts exhausted"
  | .rejected reason => reason

/-- A message in the dead-letter queue, or in the log where none is
configured. -/
structure DeadLetter where
  id : MessageId
  workType : WorkType
  tenantId : TenantId
  payload : List UInt8
  maxAttempts : Nat
  reason : DeadReason
deriving DecidableEq

/-- Give up after this many batches that claimed nothing of a requested type. -/
def noProgressCutoff : Nat := 2

/-- Where a `receive` stands. -/
inductive Stage where
  /-- At the head of its loop. -/
  | poll
  /-- In a batch, with what it has claimed of it. -/
  | batch (items : List Received) (claimed : Nat)
  /-- Past the dead-letter send, before the delete. -/
  | deadLetter (item : Received) (items : List Received) (claimed : Nat)
deriving DecidableEq

/-- A `receive` in progress. -/
structure ReceiveCall where
  consumer : ConsumerId
  types : List WorkType
  max : Nat
  visibility : Duration
  out : List WorkEnvelope
  noProgress : Nat
  stage : Stage
deriving DecidableEq

/-- A `receive` that answered: what it was asked for, and one envelope. -/
structure Returned where
  types : List WorkType
  envelope : WorkEnvelope
deriving DecidableEq

def envelopeHandle (envelope : WorkEnvelope) : Handle :=
  (envelope.id, envelope.attempts)

/-- The queue, the dead letters, each consumer's map of handles and the calls in
progress; and a record of the run: what was sent, every receipt and what became
of it, and the messages a consumer settled. -/
structure SqsQueue where
  messages : List Message
  dead : List DeadLetter
  inFlight : ConsumerId → MessageId → Option InFlight
  calls : List ReceiveCall
  sent : MessageId → Option NewWork
  taken : List Handle
  returned : List Returned
  released : List Handle
  spent : List Handle
  lost : List Handle
  settled : List MessageId

/-- Nothing has been sent. -/
def SqsQueue.empty : SqsQueue :=
  { messages := [], dead := [], inFlight := fun _ _ => none, calls := []
    sent := fun _ => none, taken := [], returned := [], released := []
    spent := [], lost := [], settled := [] }

/-- One step of one party. -/
inductive SqsStep where
  | enqueue (now : Instant) (id : MessageId) (work : NewWork)
  | receive (consumer : ConsumerId) (types : List WorkType) (max : Nat)
      (visibility : Duration)
  | receiveMessage (call : Nat) (now : Instant) (chosen : List MessageId)
  | proceed (call : Nat) (now : Instant) (succeeds : Bool)
  | fail (call : Nat)
  | ack (consumer : ConsumerId) (id : MessageId) (succeeds : Bool)
  | nackRequeue (now : Instant) (consumer : ConsumerId) (id : MessageId)
      (succeeds : Bool)
  | nackDead (consumer : ConsumerId) (id : MessageId) (reason : String)
      (sends deletes : Bool)
  | extendVisibility (now : Instant) (consumer : ConsumerId) (id : MessageId)
      (visibility : Duration) (succeeds : Bool)
  | restart (consumer : ConsumerId)

/-- The call was asked for messages of the type. -/
def asksFor (types : List WorkType) (workType : WorkType) : Bool :=
  types.isEmpty || types.contains workType

namespace SqsQueue

/-- `SendMessage`, with the delay clamped to 15 minutes. -/
def sendMessage (now : Instant) (id : MessageId) (work : NewWork)
    (system : SqsQueue) : SqsQueue :=
  let delay := (work.delay.map fun delay => max 0 (min (asSecs delay) 900)).getD 0
  { system with
    messages := system.messages ++
      [{ id, work, sentAt := now, receiveCount := 0
         visibleAt := now + delay * 1000000 }]
    sent := Function.update system.sent id (some work) }

/-- `ChangeMessageVisibility`. -/
def changeVisibility (now : Instant) (handle : Handle) (secs : Int)
    (messages : List Message) : List Message :=
  messages.map fun message =>
    if message.id = handle.1 then { message with visibleAt := now + secs * 1000000 }
    else message

/-- `DeleteMessage`. -/
def deleteMessage (handle : Handle) (messages : List Message) : List Message :=
  messages.filter fun message => message.id ≠ handle.1

/-- One message of a `ReceiveMessage`: it is counted and hidden. -/
def takeMessage (now : Instant) (secs : Int) (system : SqsQueue)
    (message : Message) : SqsQueue × Received :=
  ({ system with
      messages := system.messages.map fun other =>
        if other.id = message.id then
          { other with
            receiveCount := other.receiveCount + 1
            visibleAt := now + secs * 1000000 }
        else other
      taken := system.taken ++ [(message.id, message.receiveCount + 1)] },
    { id := message.id, work := message.work, sentAt := message.sentAt
      attempts := message.receiveCount + 1 })

/-- A `ReceiveMessage` of the chosen messages, all of them visible. -/
def takeMessages (now : Instant) (secs : Int) (system : SqsQueue) :
    List MessageId → Option (SqsQueue × List Received)
  | [] => some (system, [])
  | id :: ids =>
      (system.messages.find? fun message =>
          message.id = id && message.visibleAt ≤ now).bind fun message =>
        let (after, item) := system.takeMessage now secs message
        (takeMessages now secs after ids).map fun (final, items) =>
          (final, item :: items)

/-- The record `receive` makes of a message it claims. -/
def record (item : Received) : InFlight :=
  { handle := item.handle
    workType := item.work.workType
    tenantId := item.work.tenantId
    payload := item.work.payload
    maxAttempts := item.work.maxAttempts }

/-- The send of `dead_letter`. -/
def letter (id : MessageId) (claimed : InFlight) (reason : DeadReason) : DeadLetter :=
  { id
    workType := claimed.workType
    tenantId := claimed.tenantId
    payload := claimed.payload
    maxAttempts := claimed.maxAttempts
    reason }

/-- The envelope `receive` answers. -/
def envelope (now : Instant) (item : Received) : WorkEnvelope :=
  { id := item.id
    tenantId := item.work.tenantId
    workType := item.work.workType
    payload := item.work.payload
    attempts := item.attempts
    maxAttempts := item.work.maxAttempts
    notBefore := now
    enqueuedAt := item.sentAt }

/-- Set or forget a consumer's record of a message. -/
def setInFlight (consumer : ConsumerId) (id : MessageId) (claimed : Option InFlight)
    (system : SqsQueue) : ConsumerId → MessageId → Option InFlight :=
  Function.update system.inFlight consumer
    (Function.update (system.inFlight consumer) id claimed)

end SqsQueue

/-- The loop's condition. -/
def ReceiveCall.wantsMore (call : ReceiveCall) : Bool :=
  call.out.length < call.max && call.noProgress < noProgressCutoff

/-- The messages a call has taken and not answered, released or retired. -/
def ReceiveCall.holding (call : ReceiveCall) : List Handle :=
  call.out.map envelopeHandle ++
    match call.stage with
    | .poll => []
    | .batch items _ => items.map Received.handle
    | .deadLetter item items _ => (item :: items).map Received.handle

namespace SqsQueue

/-- The call at an index answers `Ok(out)`. -/
def answer (index : Nat) (call : ReceiveCall) (system : SqsQueue) : SqsQueue :=
  { system with
    calls := system.calls.eraseIdx index
    returned := system.returned ++ call.out.map fun envelope =>
      { types := call.types, envelope } }

/-- The call at an index ends with no answer. -/
def giveUp (index : Nat) (call : ReceiveCall) (system : SqsQueue) : SqsQueue :=
  { system with
    calls := system.calls.eraseIdx index
    lost := system.lost ++ call.holding }

/-- What a `receive` does with the next message of its batch. -/
def processItem (dlq : Bool) (index : Nat) (now : Instant) (succeeds : Bool)
    (call : ReceiveCall) (item : Received) (items : List Received) (claimed : Nat)
    (system : SqsQueue) : SqsQueue :=
  if asksFor call.types item.work.workType = false then
    -- The receive-side filter: anything it was not asked for goes back.
    { system with
      messages :=
        if succeeds then changeVisibility now item.handle 0 system.messages
        else system.messages
      calls := system.calls.set index { call with stage := .batch items claimed }
      released := system.released ++ [item.handle] }
  else if item.attempts > item.work.maxAttempts then
    if dlq && !succeeds then system.giveUp index call
    else
      { system with
        dead := system.dead ++ [letter item.id (record item) .exhausted]
        calls := system.calls.set index
          { call with stage := .deadLetter item items claimed } }
  else
    { system with
      inFlight := system.setInFlight call.consumer item.id (some (record item))
      calls := system.calls.set index
        { call with
          out := call.out ++ [envelope now item]
          stage := .batch items (claimed + 1) } }

/-- The next step of a `receive` that is not a `ReceiveMessage`. -/
def proceed (dlq : Bool) (index : Nat) (now : Instant) (succeeds : Bool)
    (call : ReceiveCall) (system : SqsQueue) : Option SqsQueue :=
  match call.stage with
  | .poll => if call.wantsMore then none else some (system.answer index call)
  | .batch [] claimed =>
      some
        { system with
          calls := system.calls.set index
            { call with
              noProgress := if claimed = 0 then call.noProgress + 1 else 0
              stage := .poll } }
  | .batch (item :: items) claimed =>
      some (system.processItem dlq index now succeeds call item items claimed)
  | .deadLetter item items claimed =>
      if succeeds then
        some
          { system with
            messages := deleteMessage item.handle system.messages
            calls := system.calls.set index { call with stage := .batch items claimed }
            spent := system.spent ++ [item.handle] }
      else some (system.giveUp index call)

/-- A `ReceiveMessage` of a call at the head of its loop.  An empty answer ends
the loop. -/
def poll (index : Nat) (now : Instant) (chosen : List MessageId)
    (call : ReceiveCall) (system : SqsQueue) : Option SqsQueue :=
  if call.stage = .poll ∧ call.wantsMore = true ∧ chosen.Nodup ∧
      chosen.length ≤ min (call.max - call.out.length) 10 then
    if chosen = [] then some (system.answer index call)
    else
      (system.takeMessages now (asSecs call.visibility) chosen).map fun (after, items) =>
        { after with
          calls := after.calls.set index { call with stage := .batch items 0 } }
  else none

/-- The interleaving semantics of the consumers of one queue. -/
def step (dlq : Bool) (system : SqsQueue) : SqsStep → Option SqsQueue
  | .enqueue now id work =>
      if (system.sent id).isSome then none else some (system.sendMessage now id work)
  | .receive consumer types max visibility =>
      some
        { system with
          calls := system.calls ++
            [{ consumer, types, max, visibility, out := [], noProgress := 0
               stage := .poll }] }
  | .receiveMessage index now chosen =>
      (system.calls[index]?).bind fun call => system.poll index now chosen call
  | .proceed index now succeeds =>
      (system.calls[index]?).bind fun call =>
        system.proceed dlq index now succeeds call
  | .fail index => (system.calls[index]?).map fun call => system.giveUp index call
  | .ack consumer id succeeds =>
      match system.inFlight consumer id with
      | none => some system
      | some claimed =>
          some
            { system with
              inFlight := system.setInFlight consumer id none
              messages :=
                if succeeds then deleteMessage claimed.handle system.messages
                else system.messages
              settled :=
                if succeeds then system.settled ++ [claimed.handle.1]
                else system.settled }
  | .nackRequeue now consumer id succeeds =>
      match system.inFlight consumer id with
      | none => some system
      | some claimed =>
          some
            { system with
              inFlight := system.setInFlight consumer id none
              messages :=
                if succeeds then changeVisibility now claimed.handle 0 system.messages
                else system.messages }
  | .nackDead consumer id reason sends deletes =>
      match system.inFlight consumer id with
      | none => some system
      | some claimed =>
          if dlq && !sends then
            some { system with inFlight := system.setInFlight consumer id none }
          else
            some
              { system with
                inFlight := system.setInFlight consumer id none
                dead := system.dead ++ [letter id claimed (.rejected reason)]
                messages :=
                  if deletes then deleteMessage claimed.handle system.messages
                  else system.messages
                settled :=
                  if deletes then system.settled ++ [claimed.handle.1]
                  else system.settled }
  | .extendVisibility now consumer id visibility succeeds =>
      match system.inFlight consumer id with
      | none => some system
      | some claimed =>
          some
            { system with
              messages :=
                if succeeds then
                  changeVisibility now claimed.handle (asSecs visibility) system.messages
                else system.messages }
  | .restart consumer =>
      -- The process's calls in progress are dropped one by one by `fail`.
      some
        { system with
          inFlight := Function.update system.inFlight consumer fun _ => none }

/-- How often the message has been returned to a consumer of its type. -/
def timesReturned (id : MessageId) (system : SqsQueue) : Nat :=
  system.returned.countP fun entry =>
    entry.envelope.id = id && asksFor entry.types entry.envelope.workType

/-- How many calls in progress hold the receipt. -/
def held (handle : Handle) (system : SqsQueue) : Nat :=
  (system.calls.map fun call => call.holding.count handle).sum

/-- What was taken from visibility is redeliverable still, unless its message
was dead-lettered for exhaustion or settled by a consumer. -/
def Accounted (handle : Handle) (system : SqsQueue) : Prop :=
  (∃ message ∈ system.messages, message.id = handle.1) ∨
    (∃ letter ∈ system.dead, letter.id = handle.1 ∧ letter.reason = .exhausted) ∨
    handle.1 ∈ system.settled

/-- A message dead-lettered for exhaustion has been returned as often as its cap
allows. -/
def ExhaustedByDeliveries (system : SqsQueue) : Prop :=
  ∀ letter ∈ system.dead, letter.reason = .exhausted →
    letter.maxAttempts ≤ system.timesReturned letter.id

end SqsQueue

/-- Exhaustion follows deliveries, and no receipt is left unaccounted for. -/
def AttemptsAreDeliveries (_ : SqsQueue) (_ : SqsStep) (after : SqsQueue) : Prop :=
  after.ExhaustedByDeliveries ∧ ∀ handle ∈ after.taken, after.Accounted handle

instance (handle : Handle) (system : SqsQueue) :
    Decidable (system.Accounted handle) :=
  inferInstanceAs (Decidable (_ ∨ _ ∨ _))

instance (system : SqsQueue) : Decidable system.ExhaustedByDeliveries :=
  inferInstanceAs (Decidable (∀ letter ∈ system.dead, _ → _))

instance (before : SqsQueue) (label : SqsStep) (after : SqsQueue) :
    Decidable (AttemptsAreDeliveries before label after) :=
  inferInstanceAs (Decidable (_ ∧ _))

/-- The condition on one step, read off the state before it: when a `receive`
dead-letters a message for exhaustion, none of the message's receives up to its
cap was released by a consumer of another type, was lost in a call that ended in
an error, or is held by a call still in progress. -/
def NoneWasted (dlq : Bool) (before : SqsQueue) (label : SqsStep)
    (_ : SqsQueue) : Prop :=
  match label with
  | .proceed index _ succeeds =>
      ∀ call ∈ before.calls[index]?,
        match call.stage with
        | .batch (item :: _) _ =>
            asksFor call.types item.work.workType = true →
            item.work.maxAttempts < item.attempts →
            (dlq = true → succeeds = true) →
            ∀ receipt, 1 ≤ receipt → receipt ≤ item.work.maxAttempts →
              (item.id, receipt) ∉ before.released ∧
                (item.id, receipt) ∉ before.lost ∧ before.held (item.id, receipt) = 0
        | _ => True
  | _ => True


namespace SqsQueue

/-- How often the message has been received. -/
def receives (id : MessageId) (system : SqsQueue) : Nat :=
  system.taken.countP fun handle => handle.1 = id

/-- The envelope is of a sent message, of a requested type, within its cap. -/
def Deliverable (sent : MessageId → Option NewWork) (types : List WorkType)
    (envelope : WorkEnvelope) : Prop :=
  ∃ work, sent envelope.id = some work ∧ asksFor types envelope.workType = true ∧
    envelope.attempts ≤ work.maxAttempts

/-- The messages of a batch are as they were sent. -/
def AsSent (sent : MessageId → Option NewWork) (items : List Received) : Prop :=
  ∀ item ∈ items, sent item.id = some item.work

/-- The message has been dead-lettered for exhaustion. -/
def Exhausted (dead : List DeadLetter) (id : MessageId) : Prop :=
  ∃ letter ∈ dead, letter.id = id ∧ letter.reason = .exhausted

/-- What a call in progress holds is what it may answer, release or retire. -/
structure CallSound (sent : MessageId → Option NewWork) (dead : List DeadLetter)
    (call : ReceiveCall) : Prop where
  out : ∀ envelope ∈ call.out, Deliverable sent call.types envelope
  stage : match call.stage with
    | .poll => True
    | .batch items _ => AsSent sent items
    | .deadLetter item items _ =>
        sent item.id = some item.work ∧ item.work.maxAttempts < item.attempts ∧
          Exhausted dead item.id ∧ AsSent sent items

/-- What every run keeps, with some messages taken and not yet in a call. -/
structure Sound (pending : List Received) (system : SqsQueue) : Prop where
  listed : ∀ message ∈ system.messages,
    system.sent message.id = some message.work ∧
      message.receiveCount = system.receives message.id
  unsent : ∀ id, system.sent id = none → system.receives id = 0
  /-- The receives of a message are numbered from one. -/
  numbered : ∀ handle, system.taken.count handle =
    if 1 ≤ handle.2 ∧ handle.2 ≤ system.receives handle.1 then 1 else 0
  /-- Every receipt is in one place. -/
  placed : ∀ handle, system.taken.count handle =
    (system.returned.map fun entry => envelopeHandle entry.envelope).count handle +
      system.released.count handle + system.spent.count handle +
      system.lost.count handle + system.held handle +
      (pending.map Received.handle).count handle
  pending : AsSent system.sent pending
  calls : ∀ call ∈ system.calls, CallSound system.sent system.dead call
  returned : ∀ entry ∈ system.returned,
    Deliverable system.sent entry.types entry.envelope
  spent : ∀ handle ∈ system.spent, ∀ work ∈ system.sent handle.1,
    work.maxAttempts < handle.2
  /-- A message leaves by an exhaustion or by a consumer's word. -/
  custody : ∀ id, (system.sent id).isSome = true →
    (∃ message ∈ system.messages, message.id = id) ∨ Exhausted system.dead id ∨
      id ∈ system.settled

theorem Exhausted.mono {dead later : List DeadLetter} {id : MessageId}
    (exhausted : Exhausted dead id) (kept : ∀ letter ∈ dead, letter ∈ later) :
    Exhausted later id := by
  rcases exhausted with ⟨letter, member, same⟩
  exact ⟨letter, kept letter member, same⟩

variable {call : ReceiveCall}

theorem CallSound.mono {sent : MessageId → Option NewWork} {dead later : List DeadLetter}
    (isSound : CallSound sent dead call)
    (kept : ∀ letter ∈ dead, letter ∈ later) : CallSound sent later call where
  out := isSound.out
  stage := by
    have stage := isSound.stage
    cases atStage : call.stage with
    | poll => trivial
    | batch items claimed =>
        rw [atStage] at stage
        exact stage
    | deadLetter item items claimed =>
        rw [atStage] at stage
        exact ⟨stage.1, stage.2.1, stage.2.2.1.mono kept, stage.2.2.2⟩

theorem empty_sound : Sound [] empty := by
  refine ⟨nofun, fun _ _ => rfl, ?_, fun _ => rfl, nofun, nofun, nofun, nofun, nofun⟩
  intro handle
  have none : (empty.receives handle.1) = 0 := rfl
  rw [none, if_neg (by omega)]
  rfl

variable {system : SqsQueue} {pending : List Received} {messages : List Message}

/-- A change to the messages that keeps whose they are and how often they were
received, and loses none that was not retired or settled. -/
theorem Sound.rewrite (sound : system.Sound pending)
    {dead : List DeadLetter} {settled : List MessageId}
    {inFlight : ConsumerId → MessageId → Option InFlight}
    (among : ∀ message ∈ messages, ∃ before ∈ system.messages,
      before.id = message.id ∧ before.work = message.work ∧
        before.receiveCount = message.receiveCount)
    (kept : ∀ message ∈ system.messages,
      (∃ after ∈ messages, after.id = message.id) ∨ Exhausted dead message.id ∨
        message.id ∈ settled)
    (lettersKept : ∀ letter ∈ system.dead, letter ∈ dead)
    (settledKept : ∀ id ∈ system.settled, id ∈ settled) :
    Sound pending { system with messages, dead, settled, inFlight } where
  listed := by
    intro message member
    rcases among message member with ⟨before, present, sameId, sameWork, sameCount⟩
    rw [← sameId, ← sameWork, ← sameCount]
    exact sound.listed before present
  unsent := sound.unsent
  numbered := sound.numbered
  placed := sound.placed
  pending := sound.pending
  calls := fun call member => (sound.calls call member).mono lettersKept
  returned := sound.returned
  spent := sound.spent
  custody := by
    intro id isSent
    rcases sound.custody id isSent with ⟨message, present, rfl⟩ | exhausted | done
    · exact kept message present
    · exact .inr (.inl (exhausted.mono lettersKept))
    · exact .inr (.inr (settledKept id done))

variable {now : Instant}

/-- A new visibility is neither a new message nor a receive. -/
theorem changeVisibility_same {handle : Handle} {secs : Int} {message : Message}
    (member : message ∈ changeVisibility now handle secs messages) :
    ∃ before ∈ messages, before.id = message.id ∧ before.work = message.work ∧
      before.receiveCount = message.receiveCount := by
  rcases List.mem_map.mp member with ⟨before, present, rfl⟩
  refine ⟨before, present, ?_⟩
  split <;> exact ⟨rfl, rfl, rfl⟩

theorem changeVisibility_keeps {handle : Handle} {secs : Int} {message : Message}
    (member : message ∈ messages) :
    ∃ after ∈ changeVisibility now handle secs messages, after.id = message.id := by
  refine ⟨_, List.mem_map_of_mem member, ?_⟩
  split <;> rfl

theorem deleteMessage_keeps {handle : Handle} {message : Message} (member : message ∈ messages) :
    (∃ after ∈ deleteMessage handle messages, after.id = message.id) ∨
      message.id = handle.1 := by
  by_cases same : message.id = handle.1
  · exact .inr same
  · left
    exact ⟨message, List.mem_filter.mpr ⟨member, by simpa using same⟩, rfl⟩

/-- Visibility, with a consumer's map. -/
theorem Sound.onVisibility (sound : system.Sound pending) (now : Instant) (handle : Handle)
    (secs : Int) (succeeds : Bool) (inFlight : ConsumerId → MessageId → Option InFlight) :
    Sound pending
      { system with
        inFlight
        messages :=
          if succeeds then changeVisibility now handle secs system.messages
          else system.messages } := by
  cases succeeds with
  | false =>
      exact sound.rewrite (fun message member => ⟨message, member, rfl, rfl, rfl⟩)
        (fun message member => .inl ⟨message, member, rfl⟩) (fun _ member => member)
        fun _ member => member
  | true =>
      exact sound.rewrite (fun _ => changeVisibility_same)
        (fun _ member => .inl (changeVisibility_keeps member)) (fun _ member => member)
        fun _ member => member

/-- A deletion of a message that is settled with it, or has been
dead-lettered. -/
theorem Sound.onDelete (sound : system.Sound pending) (handle : Handle) {dead : List DeadLetter}
    {settled : List MessageId} (inFlight : ConsumerId → MessageId → Option InFlight)
    (gone : Exhausted dead handle.1 ∨ handle.1 ∈ settled)
    (lettersKept : ∀ letter ∈ system.dead, letter ∈ dead)
    (settledKept : ∀ id ∈ system.settled, id ∈ settled) :
    Sound pending
      { system with
        inFlight, dead, settled
        messages := deleteMessage handle system.messages } := by
  apply sound.rewrite
  · intro message member
    exact ⟨message, List.mem_of_mem_filter member, rfl, rfl, rfl⟩
  · intro message member
    have either : (∃ after ∈ deleteMessage handle system.messages,
        after.id = message.id) ∨ message.id = handle.1 := deleteMessage_keeps member
    rcases either with stays | same
    · exact .inl stays
    · rw [same]
      exact .inr gone
  · exact lettersKept
  · exact settledKept

variable {index : Nat}

/-- The receipts the calls hold, with one call's apart. -/
theorem held_eraseIdx (present : system.calls[index]? = some call) (handle : Handle) :
    system.held handle = call.holding.count handle +
      ((system.calls.eraseIdx index).map fun other =>
        other.holding.count handle).sum :=
  sum_eraseIdx present _

/-- A call at an index goes on, moving receipts between its own and the places
they end in. -/
theorem Sound.goesOn (sound : system.Sound pending)
    {call next : ReceiveCall} (present : system.calls[index]? = some call)
    {inFlight : ConsumerId → MessageId → Option InFlight} {dead : List DeadLetter}
    {released spent : List Handle} {pendingAfter : List Received}
    (isSound : CallSound system.sent dead next)
    (lettersKept : ∀ letter ∈ system.dead, letter ∈ dead)
    (placed : ∀ handle,
      next.holding.count handle + released.count handle + spent.count handle +
          (pendingAfter.map Received.handle).count handle =
        call.holding.count handle + system.released.count handle +
          system.spent.count handle + (pending.map Received.handle).count handle)
    (asSent : AsSent system.sent pendingAfter)
    (spentOver : ∀ handle ∈ spent, ∀ work ∈ system.sent handle.1,
      work.maxAttempts < handle.2) :
    Sound pendingAfter
      { system with
        calls := system.calls.set index next, inFlight, dead, released, spent } where
  listed := sound.listed
  unsent := sound.unsent
  numbered := sound.numbered
  placed := by
    intro handle
    have before := sound.placed handle
    have moved := placed handle
    rw [held_eraseIdx present] at before
    dsimp only at before ⊢
    unfold held
    rw [before, sum_set present]
    omega
  pending := asSent
  calls := forall_mem_set
    (fun call member => (sound.calls call member).mono lettersKept) isSound
  returned := sound.returned
  spent := spentOver
  custody := by
    intro id isSent
    rcases sound.custody id isSent with stays | exhausted | done
    · exact .inl stays
    · exact .inr (.inl (exhausted.mono lettersKept))
    · exact .inr (.inr done)

/-- A call that answers moves what it holds to what was returned. -/
theorem Sound.answer (sound : system.Sound [])
    (present : system.calls[index]? = some call) (atPoll : call.stage = .poll) :
    Sound [] (system.answer index call) where
  listed := sound.listed
  unsent := sound.unsent
  numbered := sound.numbered
  placed := by
    intro handle
    have before := sound.placed handle
    rw [held_eraseIdx present] at before
    have holds : call.holding = call.out.map envelopeHandle := by
      rw [ReceiveCall.holding, atPoll, List.append_nil]
    have answered : ((system.answer index call).returned.map fun entry =>
        envelopeHandle entry.envelope) =
          (system.returned.map fun entry => envelopeHandle entry.envelope) ++
            call.out.map envelopeHandle := by
      simp [SqsQueue.answer, Function.comp_def]
    rw [answered, List.count_append]
    rw [holds] at before
    unfold SqsQueue.answer held
    dsimp only
    omega
  pending := sound.pending
  calls := fun other member => sound.calls other (List.mem_of_mem_eraseIdx member)
  returned := by
    intro entry member
    rcases List.mem_append.mp member with earlier | new
    · exact sound.returned entry earlier
    · rcases List.mem_map.mp new with ⟨envelope, inOut, rfl⟩
      exact (sound.calls call (List.mem_of_getElem? present)).out envelope inOut
  spent := sound.spent
  custody := sound.custody

/-- A call that ends with no answer loses what it holds. -/
theorem Sound.giveUp (sound : system.Sound []) (present : system.calls[index]? = some call) :
    Sound [] (system.giveUp index call) where
  listed := sound.listed
  unsent := sound.unsent
  numbered := sound.numbered
  placed := by
    intro handle
    have before := sound.placed handle
    rw [held_eraseIdx present] at before
    unfold SqsQueue.giveUp held
    dsimp only
    rw [List.count_append]
    omega
  pending := sound.pending
  calls := fun other member => sound.calls other (List.mem_of_mem_eraseIdx member)
  returned := sound.returned
  spent := sound.spent
  custody := sound.custody

theorem receives_takeMessage (now : Instant) (secs : Int) (message : Message) (id : MessageId) :
    (system.takeMessage now secs message).1.receives id =
      system.receives id + if message.id = id then 1 else 0 := by
  unfold receives takeMessage
  dsimp only
  rw [List.countP_append]
  by_cases same : message.id = id <;> simp [same]

/-- A message that is taken is counted, and its receipt is new. -/
theorem Sound.takeMessage (sound : system.Sound pending)
    {secs : Int} {message : Message} (member : message ∈ system.messages) :
    Sound (pending ++ [(system.takeMessage now secs message).2])
      (system.takeMessage now secs message).1 where
  listed := by
    intro other inAfter
    rw [receives_takeMessage]
    rcases List.mem_map.mp inAfter with ⟨before, present, rfl⟩
    have listed := sound.listed before present
    by_cases same : before.id = message.id
    · rw [if_pos same]
      exact ⟨listed.1, by simp [listed.2, same]⟩
    · rw [if_neg same]
      exact ⟨listed.1, by simp [listed.2, Ne.symm same]⟩
  unsent := by
    intro id isUnsent
    rw [receives_takeMessage]
    have differs : message.id ≠ id := by
      intro same
      have isSent := (sound.listed message member).1
      rw [same] at isSent
      exact absurd (isUnsent.symm.trans isSent) (by simp)
    rw [if_neg differs, Nat.add_zero]
    exact sound.unsent id isUnsent
  numbered := by
    intro handle
    rw [receives_takeMessage]
    have before := sound.numbered handle
    have counted := (sound.listed message member).2
    have after : (system.takeMessage now secs message).1.taken.count handle =
        system.taken.count handle +
          if (message.id, message.receiveCount + 1) = handle then 1 else 0 := by
      unfold SqsQueue.takeMessage
      dsimp only
      rw [List.count_append]
      by_cases same : (message.id, message.receiveCount + 1) = handle <;> simp [same]
    rw [after, before]
    by_cases isMessage : message.id = handle.1
    · rw [← isMessage, ← counted]
      by_cases isNext : message.receiveCount + 1 = handle.2
      · have whole : (message.id, message.receiveCount + 1) = handle :=
          Prod.ext isMessage isNext
        rw [if_pos whole, if_pos rfl, if_neg (by omega), if_pos (by omega)]
      · have other : (message.id, message.receiveCount + 1) ≠ handle :=
          fun same => isNext (congrArg Prod.snd same)
        rw [if_neg other, if_pos rfl, Nat.add_zero]
        by_cases inRange : 1 ≤ handle.2 ∧ handle.2 ≤ message.receiveCount
        · rw [if_pos inRange, if_pos (by omega)]
        · rw [if_neg inRange, if_neg (by omega)]
    · have other : (message.id, message.receiveCount + 1) ≠ handle :=
        fun same => isMessage (congrArg Prod.fst same)
      rw [if_neg other, if_neg isMessage, Nat.add_zero, Nat.add_zero]
  placed := by
    intro handle
    have before := sound.placed handle
    unfold SqsQueue.takeMessage held at *
    dsimp only
    rw [List.map_append, List.count_append, List.count_append, before]
    simp only [List.map_cons, List.map_nil, Received.handle]
    omega
  pending := by
    intro item inItems
    rcases List.mem_append.mp inItems with earlier | new
    · exact sound.pending item earlier
    · rw [List.mem_singleton.mp new]
      exact (sound.listed message member).1
  calls := sound.calls
  returned := sound.returned
  spent := sound.spent
  custody := by
    intro id isSent
    rcases sound.custody id isSent with ⟨before, present, same⟩ | rest
    · left
      refine ⟨_, List.mem_map_of_mem present, ?_⟩
      split
      · exact same
      · exact same
    · exact .inr rest

variable {after : SqsQueue}

/-- A whole `ReceiveMessage` counts what it answers, and leaves the calls as
they are. -/
theorem Sound.takeMessages {secs : Int}
    {chosen : List MessageId} {items : List Received} (sound : system.Sound pending)
    (taken : system.takeMessages now secs chosen = some (after, items)) :
    Sound (pending ++ items) after ∧ after.calls = system.calls ∧
      after.returned = system.returned ∧ after.dead = system.dead := by
  induction chosen generalizing system pending items with
  | nil =>
      cases taken
      rw [List.append_nil]
      exact ⟨sound, rfl, rfl, rfl⟩
  | cons id ids ih =>
      rcases Option.bind_eq_some_iff.mp taken with ⟨message, found, rest⟩
      rcases Option.map_eq_some_iff.mp rest with ⟨⟨final, more⟩, onward, result⟩
      cases result
      have next : Sound (pending ++ [(system.takeMessage now secs message).2])
          (system.takeMessage now secs message).1 :=
        sound.takeMessage (List.mem_of_find?_eq_some found)
      have later := ih next onward
      rw [List.append_assoc] at later
      exact later

/-- A message of a batch is released, retired or claimed, and its receipt moves
with it. -/
theorem Sound.processItem {item : Received}
    {items : List Received} {claimed : Nat} (sound : system.Sound []) (dlq : Bool)
    (now : Instant) (succeeds : Bool) (present : system.calls[index]? = some call)
    (atItem : call.stage = .batch (item :: items) claimed) :
    Sound [] (system.processItem dlq index now succeeds call item items claimed) := by
  have callSound := sound.calls call (List.mem_of_getElem? present)
  have batchSent := callSound.stage
  rw [atItem] at batchSent
  have isSent := batchSent item (List.mem_cons_self ..)
  have restSent : AsSent system.sent items :=
    fun other member => batchSent other (List.mem_cons_of_mem _ member)
  unfold SqsQueue.processItem
  split
  · have visible : Sound [] { system with
        messages :=
          if succeeds then changeVisibility now item.handle 0 system.messages
          else system.messages } :=
      sound.onVisibility now item.handle 0 succeeds system.inFlight
    apply visible.goesOn present
    · exact ⟨callSound.out, restSent⟩
    · exact fun _ member => member
    · intro handle
      simp only [ReceiveCall.holding, atItem, List.map_cons, List.count_append,
        List.count_cons, List.count_nil]
      omega
    · exact nofun
    · exact sound.spent
  · rename_i asked
    split
    · rename_i exceeded
      split
      · exact sound.giveUp present
      · apply sound.goesOn present
        · have exhausted : Exhausted
              (system.dead ++ [letter item.id (record item) .exhausted]) item.id :=
            ⟨_, List.mem_append_right _ (List.mem_singleton_self _), rfl, rfl⟩
          exact ⟨callSound.out, isSent, exceeded, exhausted, restSent⟩
        · exact fun _ member => List.mem_append_left _ member
        · intro handle
          simp only [ReceiveCall.holding, atItem]
        · exact nofun
        · exact sound.spent
    · rename_i within
      apply sound.goesOn present
      · have deliverable : Deliverable system.sent call.types
            (SqsQueue.envelope now item) :=
          ⟨item.work, isSent, Bool.not_eq_false _ ▸ asked, Nat.le_of_not_lt within⟩
        refine ⟨?_, restSent⟩
        intro envelope member
        rcases List.mem_append.mp member with earlier | new
        · exact callSound.out envelope earlier
        · rw [List.mem_singleton.mp new]
          exact deliverable
      · exact fun _ member => member
      · intro handle
        simp only [ReceiveCall.holding, atItem, List.map_cons, List.map_append,
          List.map_nil, List.count_append, List.count_cons, List.count_nil,
          SqsQueue.envelope, envelopeHandle, Received.handle]
        omega
      · exact nofun
      · exact sound.spent

/-- Each await of a `receive` keeps what a run keeps. -/
theorem Sound.proceed {dlq : Bool} {succeeds : Bool} (sound : system.Sound [])
    (present : system.calls[index]? = some call)
    (moved : system.proceed dlq index now succeeds call = some after) :
    Sound [] after := by
  have callSound := sound.calls call (List.mem_of_getElem? present)
  have stageSound := callSound.stage
  unfold SqsQueue.proceed at moved
  cases atStage : call.stage with
  | poll =>
      rw [atStage] at moved
      rcases Option.ite_none_left_eq_some.mp moved with ⟨_, answered⟩
      cases answered
      exact sound.answer present atStage
  | batch items claimed =>
      rw [atStage] at moved
      cases items with
      | nil =>
          cases moved
          apply sound.goesOn present
          · exact ⟨callSound.out, trivial⟩
          · exact fun _ member => member
          · intro handle
            simp [ReceiveCall.holding, atStage]
          · exact nofun
          · exact sound.spent
      | cons item items =>
          cases moved
          exact sound.processItem dlq now succeeds present atStage
  | deadLetter item items claimed =>
      rw [atStage] at moved stageSound
      rcases stageSound with ⟨isSent, exceeded, exhausted, restSent⟩
      cases succeeds with
      | false =>
          cases moved
          exact sound.giveUp present
      | true =>
          cases moved
          have deleted : Sound [] { system with
              messages := deleteMessage item.handle system.messages } :=
            sound.onDelete item.handle system.inFlight (.inl exhausted)
              (fun _ member => member) fun _ member => member
          apply deleted.goesOn present
          · exact ⟨callSound.out, restSent⟩
          · exact fun _ member => member
          · intro handle
            simp only [ReceiveCall.holding, atStage, List.map_cons, List.count_append,
              List.count_cons, List.count_nil]
            omega
          · exact nofun
          · intro handle member work isWork
            rcases List.mem_append.mp member with earlier | new
            · exact sound.spent handle earlier work isWork
            · rw [List.mem_singleton.mp new] at isWork ⊢
              cases isWork.symm.trans isSent
              exact exceeded

/-- A `ReceiveMessage` hands what it counted to its call. -/
theorem Sound.poll {chosen : List MessageId} (sound : system.Sound [])
    (present : system.calls[index]? = some call)
    (polled : system.poll index now chosen call = some after) : Sound [] after := by
  unfold SqsQueue.poll at polled
  rcases Option.ite_none_right_eq_some.mp polled with ⟨⟨atPoll, _⟩, rest⟩
  split at rest
  · cases rest
    exact sound.answer present atPoll
  · rcases Option.map_eq_some_iff.mp rest with ⟨⟨middle, items⟩, taken, result⟩
    cases result
    have counted := sound.takeMessages taken
    rcases counted with ⟨middleSound, sameCalls, _, _⟩
    rw [← sameCalls] at present
    apply middleSound.goesOn present
    · exact ⟨(middleSound.calls call (List.mem_of_getElem? present)).out,
        middleSound.pending⟩
    · exact fun _ member => member
    · intro handle
      simp only [ReceiveCall.holding, atPoll, List.count_append, List.nil_append,
        List.map_nil, List.count_nil]
      omega
    · exact nofun
    · exact middleSound.spent

/-- A message that is sent is under a fresh id. -/
theorem Sound.sendMessage (sound : system.Sound []) {id : MessageId}
    {work : NewWork} (fresh : system.sent id = none) :
    Sound [] (system.sendMessage now id work) := by
  have grows : ∀ {other : MessageId} {known : NewWork}, system.sent other = some known →
      Function.update system.sent id (some work) other = some known := by
    intro other known isSent
    have differs : other ≠ id := by
      rintro rfl
      exact absurd (fresh.symm.trans isSent) (by simp)
    rw [Function.update_of_ne differs]
    exact isSent
  have deliverable : ∀ {types : List WorkType} {envelope : WorkEnvelope},
      Deliverable system.sent types envelope →
      Deliverable (Function.update system.sent id (some work)) types envelope := by
    rintro types envelope ⟨known, isSent, rest⟩
    exact ⟨known, grows isSent, rest⟩
  have asSent : ∀ {items : List Received}, AsSent system.sent items →
      AsSent (Function.update system.sent id (some work)) items :=
    fun sentBefore item member => grows (sentBefore item member)
  refine ⟨?_, ?_, sound.numbered, sound.placed, nofun, ?_, ?_, ?_, ?_⟩
  · intro message member
    rcases List.mem_append.mp member with earlier | new
    · have listed := sound.listed message earlier
      exact ⟨grows listed.1, listed.2⟩
    · rw [List.mem_singleton.mp new]
      exact ⟨Function.update_self .., (sound.unsent id fresh).symm⟩
  · intro other isUnsent
    by_cases same : other = id
    · rw [same]
      exact sound.unsent id fresh
    · apply sound.unsent other
      unfold SqsQueue.sendMessage at isUnsent
      rw [← isUnsent]
      exact (Function.update_of_ne same _ _).symm
  · intro call member
    have before := sound.calls call member
    refine ⟨fun envelope inOut => deliverable (before.out envelope inOut), ?_⟩
    have stage := before.stage
    cases atStage : call.stage with
    | poll => trivial
    | batch items claimed =>
        rw [atStage] at stage
        exact asSent stage
    | deadLetter item items claimed =>
        rw [atStage] at stage
        exact ⟨grows stage.1, stage.2.1, stage.2.2.1, asSent stage.2.2.2⟩
  · exact fun entry member => deliverable (sound.returned entry member)
  · intro handle member known isKnown
    cases before : system.sent handle.1 with
    | none =>
        -- A receipt of a message that was not sent yet would be one too many.
        have isTaken : 0 < system.taken.count handle := by
          have spentOnce : 0 < system.spent.count handle := List.count_pos_iff.mpr member
          rw [sound.placed handle]
          omega
        rw [sound.numbered handle, sound.unsent handle.1 before, if_neg (by omega)]
          at isTaken
        contradiction
    | some earlier =>
        unfold SqsQueue.sendMessage at isKnown
        dsimp only at isKnown
        rw [grows before] at isKnown
        cases isKnown
        exact sound.spent handle member known before
  · intro other isSent
    by_cases same : other = id
    · subst same
      left
      exact ⟨_, List.mem_append_right _ (List.mem_singleton_self _), rfl⟩
    · unfold SqsQueue.sendMessage at isSent
      dsimp only at isSent
      rw [Function.update_of_ne same] at isSent
      rcases sound.custody other isSent with ⟨message, member, isOther⟩ | rest
      · exact .inl ⟨message, List.mem_append_left _ member, isOther⟩
      · exact .inr rest

/-- Every step keeps what a run keeps. -/
theorem Sound.step {dlq : Bool} {label : SqsStep}
    (sound : system.Sound []) (taken : system.step dlq label = some after) :
    Sound [] after := by
  cases label with
  | enqueue now id work =>
      rcases Option.ite_none_left_eq_some.mp taken with ⟨fresh, sends⟩
      cases sends
      exact sound.sendMessage (by simpa using fresh)
  | receive consumer types max visibility =>
      cases taken
      refine { sound with placed := ?_, calls := ?_ }
      · intro handle
        have before := sound.placed handle
        unfold held at before ⊢
        dsimp only
        rw [List.map_append, List.sum_append]
        simpa [ReceiveCall.holding] using before
      · intro call member
        rcases List.mem_append.mp member with earlier | new
        · exact sound.calls call earlier
        · rw [List.mem_singleton.mp new]
          exact ⟨nofun, trivial⟩
  | receiveMessage index now chosen =>
      rcases Option.bind_eq_some_iff.mp taken with ⟨call, present, polled⟩
      exact sound.poll present polled
  | proceed index now succeeds =>
      rcases Option.bind_eq_some_iff.mp taken with ⟨call, present, moved⟩
      exact sound.proceed present moved
  | fail index =>
      rcases Option.map_eq_some_iff.mp taken with ⟨call, present, rfl⟩
      exact sound.giveUp present
  | ack consumer id succeeds =>
      cases claimed : system.inFlight consumer id with
      | none =>
          simp only [SqsQueue.step, claimed, Option.some.injEq] at taken
          exact taken ▸ sound
      | some record =>
          simp only [SqsQueue.step, claimed, Option.some.injEq] at taken
          subst taken
          cases succeeds with
          | true =>
              apply sound.onDelete record.handle
              · exact .inr (List.mem_append_right _ (List.mem_singleton_self _))
              · exact fun _ member => member
              · exact fun _ member => List.mem_append_left _ member
          | false => exact sound.onVisibility 0 record.handle 0 false _
  | nackRequeue now consumer id succeeds =>
      cases claimed : system.inFlight consumer id with
      | none =>
          simp only [SqsQueue.step, claimed, Option.some.injEq] at taken
          exact taken ▸ sound
      | some record =>
          simp only [SqsQueue.step, claimed, Option.some.injEq] at taken
          subst taken
          exact sound.onVisibility now record.handle 0 succeeds _
  | nackDead consumer id reason sends deletes =>
      cases claimed : system.inFlight consumer id with
      | none =>
          simp only [SqsQueue.step, claimed, Option.some.injEq] at taken
          exact taken ▸ sound
      | some record =>
          simp only [SqsQueue.step, claimed] at taken
          split at taken
          · cases taken
            exact sound.onVisibility 0 record.handle 0 false _
          · cases taken
            cases deletes with
            | true =>
                apply sound.onDelete record.handle
                · exact .inr (List.mem_append_right _ (List.mem_singleton_self _))
                · exact fun _ member => List.mem_append_left _ member
                · exact fun _ member => List.mem_append_left _ member
            | false =>
                apply sound.rewrite
                · exact fun message member => ⟨message, member, rfl, rfl, rfl⟩
                · exact fun message member => .inl ⟨message, member, rfl⟩
                · exact fun _ member => List.mem_append_left _ member
                · exact fun _ member => member
  | extendVisibility now consumer id visibility succeeds =>
      cases claimed : system.inFlight consumer id with
      | none =>
          simp only [SqsQueue.step, claimed, Option.some.injEq] at taken
          exact taken ▸ sound
      | some record =>
          simp only [SqsQueue.step, claimed, Option.some.injEq] at taken
          subst taken
          exact sound.onVisibility now record.handle _ succeeds system.inFlight
  | restart consumer =>
      cases taken
      exact sound.onVisibility 0 (0, 0) 0 false _

/-- The receives of a message that were answered to a consumer. -/
def answers (id : MessageId) (system : SqsQueue) : List Nat :=
  (system.returned.filter fun entry => entry.envelope.id = id).map fun entry =>
    entry.envelope.attempts

theorem Sound.timesReturned_eq (sound : system.Sound pending) (id : MessageId) :
    system.timesReturned id = (system.answers id).length := by
  unfold timesReturned answers
  rw [List.length_map, ← List.countP_eq_length_filter]
  apply List.countP_congr
  intro entry member
  rcases sound.returned entry member with ⟨_, _, asked, _⟩
  rw [asked, Bool.and_true]

theorem mem_answers_iff {id : MessageId} {receipt : Nat} :
    receipt ∈ system.answers id ↔
      (id, receipt) ∈ system.returned.map fun entry => envelopeHandle entry.envelope := by
  unfold answers
  rw [List.mem_map, List.mem_map]
  constructor
  · rintro ⟨entry, member, rfl⟩
    rcases List.mem_filter.mp member with ⟨inReturned, isId⟩
    exact ⟨entry, inReturned, Prod.ext (of_decide_eq_true isId) rfl⟩
  · rintro ⟨entry, member, same⟩
    rw [envelopeHandle, Prod.mk.injEq] at same
    exact ⟨entry, List.mem_filter.mpr ⟨member, decide_eq_true same.1⟩, same.2⟩

/-- No receive is answered twice. -/
theorem Sound.nodup_answers (sound : system.Sound pending) (id : MessageId) :
    (system.answers id).Nodup := by
  have once : (system.returned.map fun entry =>
      envelopeHandle entry.envelope).Nodup := by
    rw [List.nodup_iff_count_le_one]
    intro handle
    have placed := sound.placed handle
    have numbered := sound.numbered handle
    split at numbered <;> omega
  have handles : (system.answers id).map (Prod.mk id) =
      (system.returned.filter fun entry => entry.envelope.id = id).map fun entry =>
        envelopeHandle entry.envelope := by
    rw [answers, List.map_map]
    apply List.map_congr_left
    intro entry member
    have isId := of_decide_eq_true (List.mem_filter.mp member).2
    exact Prod.ext isId.symm rfl
  apply List.Nodup.of_map (Prod.mk id)
  rw [handles]
  exact once.sublist (List.filter_sublist.map _)

/-- What is answered is a receive within the cap. -/
theorem Sound.bounds_of_answered (sound : system.Sound pending) {id : MessageId} {work : NewWork}
    (isSent : system.sent id = some work) {receipt : Nat} (answered : receipt ∈ system.answers id) :
    1 ≤ receipt ∧ receipt ≤ work.maxAttempts := by
  constructor
  · have isTaken : 0 < system.taken.count (id, receipt) := by
      have isReturned := List.count_pos_iff.mpr (mem_answers_iff.mp answered)
      have placed := sound.placed (id, receipt)
      omega
    rw [sound.numbered (id, receipt)] at isTaken
    split at isTaken
    · rename_i inRange
      exact inRange.1
    · contradiction
  · rcases List.mem_map.mp answered with ⟨entry, member, rfl⟩
    rcases List.mem_filter.mp member with ⟨inReturned, isId⟩
    rcases sound.returned entry inReturned with ⟨known, isKnown, _, within⟩
    rw [of_decide_eq_true isId, isSent] at isKnown
    cases isKnown
    exact within

/-- A receive within the cap was answered unless it was released, lost, or is
held. -/
theorem Sound.answered_iff (sound : system.Sound []) {id : MessageId} {work : NewWork}
    (isSent : system.sent id = some work) {receipt : Nat} (started : 1 ≤ receipt)
    (within : receipt ≤ work.maxAttempts) (received : receipt ≤ system.receives id) :
    receipt ∈ system.answers id ↔
      (id, receipt) ∉ system.released ∧ (id, receipt) ∉ system.lost ∧
        system.held (id, receipt) = 0 := by
  have placed := sound.placed (id, receipt)
  rw [sound.numbered (id, receipt), if_pos ⟨started, received⟩] at placed
  have notSpent : system.spent.count (id, receipt) = 0 := by
    rw [List.count_eq_zero]
    intro member
    have exceeded := sound.spent _ member work isSent
    exact absurd exceeded (by simpa using within)
  rw [mem_answers_iff, ← List.count_pos_iff, ← List.count_eq_zero,
    ← List.count_eq_zero]
  simp only [List.map_nil, List.count_nil] at placed
  omega

/-- A message received past its cap has been returned as often as its cap
exactly when none of the receives up to the cap was wasted. -/
theorem Sound.delivered_iff (sound : system.Sound []) {id : MessageId} {work : NewWork}
    (isSent : system.sent id = some work) (received : work.maxAttempts ≤ system.receives id) :
    work.maxAttempts ≤ system.timesReturned id ↔
      ∀ receipt, 1 ≤ receipt → receipt ≤ work.maxAttempts →
        (id, receipt) ∉ system.released ∧ (id, receipt) ∉ system.lost ∧
          system.held (id, receipt) = 0 := by
  have nodup := sound.nodup_answers id
  have among : (system.answers id).toFinset ⊆ Finset.Icc 1 work.maxAttempts := by
    intro receipt member
    rw [List.mem_toFinset] at member
    exact Finset.mem_Icc.mpr (sound.bounds_of_answered isSent member)
  have card : (system.answers id).toFinset.card = system.timesReturned id := by
    rw [sound.timesReturned_eq, List.toFinset_card_of_nodup nodup]
  rw [← card]
  constructor
  · intro enough receipt started within
    have all : (system.answers id).toFinset = Finset.Icc 1 work.maxAttempts := by
      apply Finset.eq_of_subset_of_card_le among
      rw [Nat.card_Icc, Nat.add_sub_cancel]
      exact enough
    have answered : receipt ∈ (system.answers id).toFinset := by
      rw [all]
      exact Finset.mem_Icc.mpr ⟨started, within⟩
    exact (sound.answered_iff isSent started within (within.trans received)).mp
      (List.mem_toFinset.mp answered)
  · intro noneWasted
    have all : Finset.Icc 1 work.maxAttempts ⊆ (system.answers id).toFinset := by
      intro receipt member
      rcases Finset.mem_Icc.mp member with ⟨started, within⟩
      apply List.mem_toFinset.mpr
      exact (sound.answered_iff isSent started within (within.trans received)).mpr
        (noneWasted receipt started within)
    have fewer := Finset.card_le_card all
    rw [Nat.card_Icc, Nat.add_sub_cancel] at fewer
    exact fewer

/-- Every receipt is accounted for. -/
theorem Sound.accounted (sound : system.Sound []) {handle : Handle}
    (isTaken : handle ∈ system.taken) : system.Accounted handle := by
  have isSent : (system.sent handle.1).isSome = true := by
    cases unsent : system.sent handle.1 with
    | some work => rfl
    | none =>
        have none := sound.numbered handle
        have counted := List.count_pos_iff.mpr isTaken
        rw [sound.unsent handle.1 unsent, if_neg (by omega)] at none
        omega
  exact sound.custody handle.1 isSent

/-- More answers and no new exhaustion leave nothing to show. -/
theorem ExhaustedByDeliveries.grows {more : List Returned} (before : system.ExhaustedByDeliveries)
    (letters : ∀ letter ∈ after.dead, letter.reason = .exhausted → letter ∈ system.dead)
    (answered : after.returned = system.returned ++ more) :
    after.ExhaustedByDeliveries := by
  intro letter member isExhausted
  have earlier := before letter (letters letter member isExhausted) isExhausted
  unfold timesReturned at earlier ⊢
  rw [answered, List.countP_append]
  omega

/-- A step that changes neither the dead letters nor the answers. -/
theorem ExhaustedByDeliveries.frame (before : system.ExhaustedByDeliveries)
    (sameDead : after.dead = system.dead) (sameReturned : after.returned = system.returned) :
    after.ExhaustedByDeliveries := by
  have answered : after.returned = system.returned ++ [] := by
    rw [sameReturned, List.append_nil]
  apply before.grows _ answered
  intro letter member _
  rw [← sameDead]
  exact member

/-- The dead letter of an exhausted message is in order exactly when none of its
receives was wasted. -/
theorem Sound.retires_iff (sound : system.Sound []) (before : system.ExhaustedByDeliveries)
    {item : Received} {items : List Received} {claimed : Nat}
    (present : system.calls[index]? = some call)
    (atItem : call.stage = .batch (item :: items) claimed)
    (exceeded : item.work.maxAttempts < item.attempts)
    (dead : after.dead = system.dead ++ [letter item.id (record item) .exhausted])
    (returned : after.returned = system.returned) :
    after.ExhaustedByDeliveries ↔
      ∀ receipt, 1 ≤ receipt → receipt ≤ item.work.maxAttempts →
        (item.id, receipt) ∉ system.released ∧ (item.id, receipt) ∉ system.lost ∧
          system.held (item.id, receipt) = 0 := by
  have batchSent := (sound.calls call (List.mem_of_getElem? present)).stage
  rw [atItem] at batchSent
  have isSent := batchSent item (List.mem_cons_self ..)
  have received : item.attempts ≤ system.receives item.id := by
    have isTaken : 0 < system.taken.count item.handle := by
      have placed := sound.placed item.handle
      have holds : 0 < call.holding.count item.handle := by
        rw [List.count_pos_iff, ReceiveCall.holding, atItem]
        simp
      rw [held_eraseIdx present] at placed
      omega
    rw [sound.numbered item.handle] at isTaken
    split at isTaken
    · rename_i inRange
      exact inRange.2
    · contradiction
  have sameTimes : ∀ id, after.timesReturned id = system.timesReturned id := by
    intro id
    unfold timesReturned
    rw [returned]
  rw [← sound.delivered_iff isSent (by omega)]
  constructor
  · intro inOrder
    have new := inOrder (letter item.id (record item) .exhausted)
      (by rw [dead]; exact List.mem_append_right _ (List.mem_singleton_self _)) rfl
    rw [sameTimes] at new
    exact new
  · intro enough other member isExhausted
    rw [dead] at member
    rw [sameTimes]
    rcases List.mem_append.mp member with earlier | new
    · exact before other earlier isExhausted
    · rw [List.mem_singleton.mp new]
      exact enough

/-- One await of a `receive`: the condition is exactly what keeps exhaustion
after deliveries. -/
theorem Sound.proceed_iff {dlq : Bool} {succeeds : Bool} (sound : system.Sound [])
    (before : system.ExhaustedByDeliveries) (present : system.calls[index]? = some call)
    (moved : system.proceed dlq index now succeeds call = some after) :
    after.ExhaustedByDeliveries ↔
      NoneWasted dlq system (.proceed index now succeeds) after := by
  have condition : NoneWasted dlq system (.proceed index now succeeds) after ↔
      match call.stage with
      | .batch (item :: _) _ =>
          asksFor call.types item.work.workType = true →
          item.work.maxAttempts < item.attempts →
          (dlq = true → succeeds = true) →
          ∀ receipt, 1 ≤ receipt → receipt ≤ item.work.maxAttempts →
            (item.id, receipt) ∉ system.released ∧
              (item.id, receipt) ∉ system.lost ∧ system.held (item.id, receipt) = 0
      | _ => True := by
    simp only [NoneWasted, present, Option.mem_some_iff, forall_eq']
  rw [condition]
  unfold SqsQueue.proceed at moved
  cases atStage : call.stage with
  | poll =>
      rw [atStage] at moved
      rcases Option.ite_none_left_eq_some.mp moved with ⟨_, answered⟩
      cases answered
      apply iff_of_true _ trivial
      exact before.grows (fun _ member _ => member) rfl
  | batch items claimed =>
      rw [atStage] at moved
      cases items with
      | nil =>
          cases moved
          exact iff_of_true (before.frame rfl rfl) trivial
      | cons item items =>
          cases moved
          dsimp only
          unfold SqsQueue.processItem
          split
          · rename_i foreign
            apply iff_of_true (before.frame rfl rfl)
            intro asked
            rw [foreign] at asked
            contradiction
          · rename_i asked
            rw [Bool.not_eq_false] at asked
            split
            · rename_i exceeded
              split
              · rename_i failed
                apply iff_of_true (before.frame rfl rfl)
                intro _ _ sent
                simp only [Bool.and_eq_true, Bool.not_eq_true'] at failed
                rw [sent failed.1] at failed
                exact absurd failed.2 (by simp)
              · rename_i sent
                have sends : dlq = true → succeeds = true := by
                  intro configured
                  simpa [configured] using sent
                refine (sound.retires_iff before present atStage exceeded ?_ ?_).trans ?_
                · rfl
                · rfl
                · exact ⟨fun noneWasted _ _ _ => noneWasted,
                    fun noneWasted => noneWasted asked exceeded sends⟩
            · rename_i within
              apply iff_of_true (before.frame rfl rfl)
              intro _ exceeded
              exact absurd exceeded within
  | deadLetter item items claimed =>
      rw [atStage] at moved
      apply iff_of_true _ trivial
      cases succeeds with
      | true | false =>
          cases moved
          exact before.frame rfl rfl

/-- One step: the condition is exactly what keeps exhaustion after
deliveries. -/
theorem Sound.exhausted_iff {dlq : Bool} {label : SqsStep} (sound : system.Sound [])
    (before : system.ExhaustedByDeliveries) (taken : system.step dlq label = some after) :
    after.ExhaustedByDeliveries ↔ NoneWasted dlq system label after := by
  cases label with
  | proceed index now succeeds =>
      rcases Option.bind_eq_some_iff.mp taken with ⟨call, present, moved⟩
      exact sound.proceed_iff before present moved
  | enqueue now id work =>
      rcases Option.ite_none_left_eq_some.mp taken with ⟨_, sends⟩
      cases sends
      exact iff_of_true (before.frame rfl rfl) trivial
  | receive consumer types max visibility =>
      cases taken
      exact iff_of_true (before.frame rfl rfl) trivial
  | receiveMessage index now chosen =>
      rcases Option.bind_eq_some_iff.mp taken with ⟨call, present, polled⟩
      apply iff_of_true _ trivial
      unfold SqsQueue.poll at polled
      rcases Option.ite_none_right_eq_some.mp polled with ⟨_, rest⟩
      split at rest
      · cases rest
        exact before.grows (fun _ member _ => member) rfl
      · rcases Option.map_eq_some_iff.mp rest with ⟨⟨middle, items⟩, counted, result⟩
        cases result
        rcases sound.takeMessages counted with ⟨_, _, sameReturned, sameDead⟩
        exact before.frame sameDead sameReturned
  | fail index =>
      rcases Option.map_eq_some_iff.mp taken with ⟨call, present, rfl⟩
      exact iff_of_true (before.frame rfl rfl) trivial
  | nackDead consumer id reason sends deletes =>
      apply iff_of_true _ trivial
      cases claimed : system.inFlight consumer id with
      | none =>
          simp only [SqsQueue.step, claimed, Option.some.injEq] at taken
          exact taken ▸ before
      | some record =>
          simp only [SqsQueue.step, claimed] at taken
          split at taken
          · cases taken
            exact before.frame rfl rfl
          · cases taken
            have answered : system.returned = system.returned ++ [] :=
              (List.append_nil _).symm
            refine ExhaustedByDeliveries.grows before ?_ answered
            intro other member isExhausted
            rcases List.mem_append.mp member with earlier | new
            · exact earlier
            · rw [List.mem_singleton.mp new] at isExhausted
              contradiction
  | ack consumer id succeeds | nackRequeue now consumer id succeeds
  | extendVisibility now consumer id visibility succeeds =>
      apply iff_of_true _ trivial
      cases claimed : system.inFlight consumer id with
      | none =>
          simp only [SqsQueue.step, claimed, Option.some.injEq] at taken
          exact taken ▸ before
      | some record =>
          simp only [SqsQueue.step, claimed, Option.some.injEq] at taken
          subst taken
          exact before.frame rfl rfl
  | restart consumer =>
      cases taken
      exact iff_of_true (before.frame rfl rfl) trivial

end SqsQueue

/-- In every interleaving of any number of consumers, with or without a
dead-letter queue, exhaustion follows deliveries and no message is left
unaccounted for, exactly when every step meets the condition. -/
theorem sqs_attempts_iff (dlq : Bool) (labels : List SqsStep) :
    Along (SqsQueue.step dlq) AttemptsAreDeliveries .empty labels ↔
      Along (SqsQueue.step dlq) (NoneWasted dlq) .empty labels := by
  apply along_iff_of_invariant fun system : SqsQueue =>
    system.Sound [] ∧ system.ExhaustedByDeliveries
  · intro before label after both taken kept
    exact ⟨both.1.step taken, kept.1⟩
  · intro before label after both taken
    rw [← both.1.exhausted_iff both.2 taken]
    exact and_iff_left fun _ isTaken => (both.1.step taken).accounted isTaken
  · exact ⟨SqsQueue.empty_sound, nofun⟩

/-- One message of type `a`, with one delivery to it. -/
def oneDelivery : NewWork :=
  (NewWork.new 1 "a" []).setMaxAttempts 1

/-- A consumer of type `b` receives the message and releases it.  The next
receive is the first by a consumer of its type, and dead-letters it. -/
theorem exhausted_undelivered :
    ¬ Along (SqsQueue.step true) AttemptsAreDeliveries .empty
      [.enqueue 0 0 oneDelivery, .receive 0 ["b"] 10 30000000,
        .receiveMessage 0 1 [0], .proceed 0 1 true, .receive 1 ["a"] 10 30000000,
        .receiveMessage 1 2 [0], .proceed 1 2 true] := by
  decide

end NookOs.Queue.Sqs
