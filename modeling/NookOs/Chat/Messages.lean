/-
Module: NookOs.Chat.Messages
Purpose: One chat message with its revisions and attachments, and the calls
  that edit it, delete it and read it back for a peer.
Trusted boundary: whether a caller reaches the channel and is an admin, and the
  tallies of the reactions, are whatever the environment says
Main exports: MessageRow, ChatMessage, MessageRow.toMessage, Rows, Statement, Request, chat
-/
import NookOs.Jobs.LoopJob
import NookOs.Lib.Program
import NookOs.Lib.Text

namespace NookOs.Chat

open Lib
open Lib.Program (ensure)
open Jobs (Instant)

/-!
Every statement of these calls names one message, so the rows are those of one
message and its identifier is left out.  Nothing attaches a file to a message
after its post.
-/

section Data

abbrev UserId := Nat
abbrev ChannelId := Nat
abbrev MessageId := Nat
abbrev ContentId := Nat

/-- A row of `chat_messages`, with the rollups of its replies. -/
structure MessageRow where
  id : MessageId
  channelId : ChannelId
  authorId : UserId
  authorName : Option String := none
  body : String
  parentMessageId : Option MessageId := none
  replyCount : Nat := 0
  lastReplyAt : Option Instant := none
  createdAt : Instant := 0
  editedAt : Option Instant := none
  deletedAt : Option Instant := none
  kind : Option String := none
deriving DecidableEq

/-- A row of `chat_message_attachments`. -/
structure AttachmentRow where
  id : Nat
  contentId : ContentId
  filename : String
  contentType : String
  sizeBytes : Nat
deriving DecidableEq

inductive Action where
  | edit
  | delete
deriving DecidableEq

/-- A row of `chat_message_revisions`. -/
structure Revision where
  priorContent : String
  action : Action
  actedBy : UserId
deriving DecidableEq

structure MessageMeta where
  channelId : ChannelId
  authorId : UserId
  deletedAt : Option Instant
deriving DecidableEq

structure ChatReactionAggregate where
  emoji : String
  count : Nat
  reacted : Bool
deriving DecidableEq

/-- The payload of a message. -/
structure ChatMessage where
  id : MessageId
  channelId : ChannelId
  authorId : UserId
  authorName : Option String
  body : String
  parentMessageId : Option MessageId
  replyCount : Nat
  lastReplyAt : Option Instant
  createdAt : Instant
  reactions : List ChatReactionAggregate
  editedAt : Option Instant
  deleted : Bool
  kind : Option String
  attachments : List AttachmentRow
deriving DecidableEq

def deletedPlaceholder : String := "message deleted"

/-- A row as a payload: a deleted message is redacted. -/
def MessageRow.toMessage (row : MessageRow) : ChatMessage :=
  { id := row.id
    channelId := row.channelId
    authorId := row.authorId
    authorName := row.authorName
    body := if row.deletedAt.isSome then deletedPlaceholder else row.body
    parentMessageId := row.parentMessageId
    replyCount := row.replyCount
    lastReplyAt := row.lastReplyAt
    createdAt := row.createdAt
    reactions := []
    editedAt := row.editedAt
    deleted := row.deletedAt.isSome
    kind := row.kind
    attachments := [] }

/-- A payload that left the server, and whether the message was deleted then. -/
structure Sent where
  payload : ChatMessage
  deleted : Bool
deriving DecidableEq

/-- What no query reads: the bodies the message has had, the body it was deleted
with, the content of its attachments, what of it was offered to the store for
deletion, and the payloads that were sent. -/
structure History where
  bodies : List String
  atDeletion : Option String
  contents : List ContentId
  offered : List ContentId
  sent : List Sent
deriving DecidableEq

structure Rows where
  message : MessageRow
  attachments : List AttachmentRow
  revisions : List Revision
  history : History
deriving DecidableEq

/-- A message as it was posted. -/
def Rows.posted (message : MessageRow) (attachments : List AttachmentRow) : Rows :=
  { message := { message with deletedAt := none }
    attachments := attachments
    revisions := []
    history :=
      { bodies := [message.body]
        atDeletion := none
        contents := attachments.map AttachmentRow.contentId
        offered := []
        sent := [] } }

end Data

section Statements

inductive ApiError where
  | badRequest (message : String)
  | notFound
  | forbidden
  | conflict (message : String)
  | internal
deriving DecidableEq

/-- What `channels::access` finds. -/
inductive Access where
  | authorized
  | refused
  | noChannel
deriving DecidableEq

/-- What a handler asks of the repositories, the content store and the sockets.
The row that an edit or a deletion decides on, and the attachments that are read
for a deletion or a payload, are the same queries. -/
inductive Statement where
  | readMeta (deleting : Bool)
  | access (channel : ChannelId) (user : UserId)
  | isAdmin (user : UserId)
  | insertRevision (action : Action) (actor : UserId)
  | updateBody (body : String)
  | updateDeletedAt
  | attachmentsFor (detaching : Bool)
  | deleteAttachments
  | forget (content : ContentId)
  | get
  | reactionsFor (viewer : Option UserId)
  | publishLocal (payload : ChatMessage)
  | publishBus
  | respond (payload : ChatMessage)
deriving DecidableEq

abbrev Statement.Value : Statement → Type
  | .readMeta _ => Option MessageMeta
  | .access .. => Access
  | .isAdmin _ => Bool
  | .insertRevision .. => Unit
  | .updateBody _ => Unit
  | .updateDeletedAt => Unit
  | .attachmentsFor _ => List AttachmentRow
  | .deleteAttachments => Unit
  | .forget _ => Unit
  | .get => Option MessageRow
  | .reactionsFor _ => List ChatReactionAggregate
  | .publishLocal _ => Unit
  | .publishBus => Unit
  | .respond _ => Unit

/-- The statements that no other process answers. -/
def Statement.isLocal : Statement → Bool
  | .publishLocal _ | .respond _ => true
  | _ => false

/-- How a statement goes: it runs, it fails before it has an effect, or it has
its effect and its answer is lost. -/
inductive Outcome where
  | runs
  | fails
  | lost
deriving DecidableEq

/-- What the environment decides about a statement. -/
structure Choice where
  now : Instant := 0
  access : Access := .authorized
  isAdmin : Bool := true
  reactions : List ChatReactionAggregate := []
  outcome : Outcome := .runs
deriving DecidableEq

namespace Rows

/-- A payload leaves the server. -/
def send (rows : Rows) (payload : ChatMessage) : Rows :=
  { rows with
    history := { rows.history with
      sent := ⟨payload, rows.message.deletedAt.isSome⟩ :: rows.history.sent } }

/-- Run a statement. -/
def answer (rows : Rows) (choice : Choice) : (request : Statement) → Rows × request.Value
  | .readMeta _ =>
      (rows, some ⟨rows.message.channelId, rows.message.authorId, rows.message.deletedAt⟩)
  | .access _ _ => (rows, choice.access)
  | .isAdmin _ => (rows, choice.isAdmin)
  | .insertRevision action actor =>
      ({ rows with revisions := rows.revisions ++ [⟨rows.message.body, action, actor⟩] }, ())
  | .updateBody body =>
      ({ rows with
          message := { rows.message with body := body, editedAt := some choice.now }
          history := { rows.history with bodies := body :: rows.history.bodies } }, ())
  | .updateDeletedAt =>
      ({ rows with
          message := { rows.message with deletedAt := some choice.now }
          history := { rows.history with
            atDeletion := rows.history.atDeletion <|> some rows.message.body } }, ())
  | .attachmentsFor _ => (rows, rows.attachments)
  | .deleteAttachments => ({ rows with attachments := [] }, ())
  | .forget content =>
      ({ rows with
          history := { rows.history with offered := content :: rows.history.offered } }, ())
  | .get => (rows, some rows.message)
  | .reactionsFor _ => (rows, choice.reactions)
  | .publishLocal payload => (rows.send payload, ())
  | .publishBus => (rows, ())
  | .respond payload => (rows.send payload, ())

/-- Run a statement as the environment has it.  What the content store is asked
to forget it was asked, whatever it does. -/
def execute (rows : Rows) (choice : Choice) (request : Statement) :
    Option (Rows × Except ApiError request.Value) :=
  let (after, value) := rows.answer choice request
  match choice.outcome with
  | .runs => some (after, .ok value)
  | .lost => if request.isLocal then none else some (after, .error .internal)
  | .fails =>
      if request.isLocal then none
      else
        match request with
        | .forget _ => some (after, .error .internal)
        | _ => some (rows, .error .internal)

end Rows

end Statements

section Calls

abbrev Handler := Program.Failing Statement Statement.Value ApiError

abbrev perform (request : Statement) : Handler request.Value := Program.perform request

abbrev attempt (request : Statement) : Handler (Except ApiError request.Value) :=
  Program.attempt request

/-- What was replied, or nothing where the statement failed. -/
def orDefault {Value : Type} (reply : Except ApiError (List Value)) : List Value :=
  match reply with
  | .ok values => values
  | .error _ => []

/-- A payload with what is attached to it separately. -/
def ChatMessage.withExtras (message : ChatMessage) (reactions : List ChatReactionAggregate)
    (attachments : List AttachmentRow) : ChatMessage :=
  { message with reactions := reactions, attachments := attachments }

/-- The message with its reactions and attachments, or without where it is
deleted. -/
def withAttached (viewer : Option UserId) (message : ChatMessage) : Handler ChatMessage :=
  if message.deleted then pure message
  else do
    let reactions ← attempt (.reactionsFor viewer)
    let attachments ← attempt (.attachmentsFor false)
    pure (message.withExtras (orDefault reactions) (orDefault attachments))

/-- `read_message`: a failure is no message. -/
def readMessage (viewer : Option UserId) : Handler (Option ChatMessage) := do
  match ← attempt .get with
  | .ok (some row) => some <$> withAttached viewer row.toMessage
  | _ => pure none

/-- The updated message to the sockets of this process. -/
def publishUpdate : Option ChatMessage → Handler Unit
  | some message => perform (.publishLocal message)
  | none => pure ()

def broadcastUpdate : Handler Unit := do
  publishUpdate (← readMessage none)
  discard (attempt .publishBus)

/-- The answer of a call: the message as it is now. -/
def respondCurrent (caller : UserId) : Handler ChatMessage := do
  match ← readMessage (some caller) with
  | some message => do
      perform (.respond message)
      pure message
  | none => throw .notFound

def messageMeta (deleting : Bool) : Handler MessageMeta := do
  match ← perform (.readMeta deleting) with
  | some row => pure row
  | none => throw .notFound

def channelAccess (channel : ChannelId) (caller : UserId) : Handler Unit := do
  match ← perform (.access channel caller) with
  | .authorized => pure ()
  | .refused => throw .forbidden
  | .noChannel => throw .notFound

/-- `MessageRepository::edit`: the revision, then the body. -/
def edit (body : String) (actor : UserId) : Handler Unit := do
  perform (.insertRevision .edit actor)
  perform (.updateBody body)

/-- `MessageRepository::soft_delete`: the revision, then the mark. -/
def softDelete (actor : UserId) : Handler Unit := do
  perform (.insertRevision .delete actor)
  perform .updateDeletedAt

/-- `MessageRepository::detach_all`: the rows are read, then deleted. -/
def detachAll : Handler (List ContentId) := do
  let rows ← perform (.attachmentsFor true)
  perform .deleteAttachments
  pure (rows.map AttachmentRow.contentId)

/-- Each is offered to the content store, which may refuse it. -/
def forgetAll : List ContentId → Handler Unit
  | [] => pure ()
  | content :: rest => do
      discard (attempt (.forget content))
      forgetAll rest

def forgetAttachments : Handler Unit := do
  forgetAll (← detachAll)

def update (caller : UserId) (text : String) : Handler ChatMessage := do
  let body := String.ofList (Text.trim text.toList)
  ensure (body ≠ "") (.badRequest "a message needs a body")
  let row ← messageMeta false
  channelAccess row.channelId caller
  ensure (row.authorId = caller) .forbidden
  ensure row.deletedAt.isNone (.conflict "this message was deleted")
  edit body caller
  broadcastUpdate
  respondCurrent caller

/-- The author may; another caller has to be an admin. -/
def mayDelete (author caller : UserId) : Handler Unit :=
  if author = caller then pure ()
  else do ensure (← perform (.isAdmin caller)) .forbidden

def delete (caller : UserId) : Handler ChatMessage := do
  let row ← messageMeta true
  channelAccess row.channelId caller
  mayDelete row.authorId caller
  if row.deletedAt.isSome then respondCurrent caller
  else do
    softDelete caller
    forgetAttachments
    broadcastUpdate
    respondCurrent caller

/-- A peer that was told of the message reads it back for its own sockets. -/
def deliverNotice : Handler Unit := do
  publishUpdate (← readMessage none)

inductive Request where
  | update (caller : UserId) (text : String)
  | delete (caller : UserId)
  | notice
deriving DecidableEq

def handle : Request → Handler (Option ChatMessage)
  | .update caller text => some <$> update caller text
  | .delete caller => some <$> delete caller
  | .notice => (fun _ => none) <$> deliverNotice

/-- The calls on one message. -/
def chat : Service Rows Choice Empty Request Statement
    (fun request => Except ApiError request.Value) (Except ApiError (Option ChatMessage)) where
  handler request := (handle request).run
  execute := Rows.execute
  happen _ event := nomatch event

end Calls

end NookOs.Chat
