/-
Module: NookOs.Chat.Deletion
Purpose: Whether the history of a chat message is complete and its deletion
  final, over every interleaving of edits, deletions and read-backs.
Trusted boundary: none
Main exports: Upheld, Rows.Fit, Rows.Sound, history_broken, history_upheld
-/
import NookOs.Chat.Messages

namespace NookOs.Chat

open Lib
open Jobs (Instant)

section Law

abbrev State := Service.State Rows Request
  (fun request : Statement => Except ApiError request.Value)
  (Except ApiError (Option ChatMessage))

abbrev Move := Service.Move Choice Empty Request

/-- No attachment row is left, and all that was attached has been offered to the
content store for deletion. -/
structure Rows.Settled (rows : Rows) : Prop where
  detached : rows.attachments = []
  offered : ∀ content ∈ rows.history.contents, content ∈ rows.history.offered

instance (rows : Rows) : Decidable rows.Settled :=
  decidable_of_iff
    (rows.attachments = [] ∧ ∀ content ∈ rows.history.contents, content ∈ rows.history.offered)
    ⟨fun ⟨detached, offered⟩ => ⟨detached, offered⟩,
    fun settled => ⟨settled.detached, settled.offered⟩⟩

/-- Every body the message has had is there still, the body is the one it was
deleted with, no payload that was sent after its deletion carries it, and a
deletion that has answered with success has taken the attachments along. -/
structure Upheld (state : State) : Prop where
  complete : ∀ body ∈ state.store.history.bodies, body = state.store.message.body ∨
    body ∈ state.store.revisions.map Revision.priorContent
  frozen : ∀ body ∈ state.store.history.atDeletion, state.store.message.body = body
  redacted : ∀ sent ∈ state.store.history.sent, sent.deleted = true →
    sent.payload.body = deletedPlaceholder
  settled : ∀ call ∈ state.answered, ∀ caller answer, call.caller = .delete caller →
    call.value = .ok answer → state.store.Settled

/-- What the statements of a call may meet: an edit replaces a body that a
revision has, of a message that is not deleted; a payload is sent while the
message is deleted only if it was when the payload was read; a deletion that
finds the message deleted finds it settled; and where a deletion reads the
attachments, all that are gone have been offered. -/
def Rows.Fit (rows : Rows) (choice : Choice) : Statement → Prop
  | .updateBody body => choice.outcome ≠ .fails →
      rows.message.deletedAt = none ∧
        (body = rows.message.body ∨
          rows.message.body ∈ rows.revisions.map Revision.priorContent)
  | .publishLocal payload | .respond payload =>
      rows.message.deletedAt.isSome = true → payload.deleted = true
  | .readMeta true => choice.outcome = .runs →
      rows.message.deletedAt.isSome = true → rows.Settled
  | .attachmentsFor true => choice.outcome = .runs →
      ∀ content ∈ rows.history.contents,
        content ∈ rows.attachments.map AttachmentRow.contentId ∨
          content ∈ rows.history.offered
  | _ => True

instance (rows : Rows) (choice : Choice) (request : Statement) :
    Decidable (rows.Fit choice request) := by
  unfold Rows.Fit
  split <;> infer_instance

end Law

section Statements

/-- A payload of a deleted message carries the placeholder. -/
def ChatMessage.Redacted (payload : ChatMessage) : Prop :=
  payload.deleted = true → payload.body = deletedPlaceholder

theorem MessageRow.toMessage_redacted (row : MessageRow) : row.toMessage.Redacted := by
  intro deleted
  exact if_pos deleted

/-- What is asked to be sent is redacted. -/
def Statement.Redacted : Statement → Prop
  | .publishLocal payload | .respond payload => payload.Redacted
  | _ => True

namespace Rows

/-- The bodies are all there, a deleted message has the body it was deleted with,
and what was sent of it carries the placeholder. -/
structure Sound (rows : Rows) : Prop where
  complete : ∀ body ∈ rows.history.bodies, body = rows.message.body ∨
    body ∈ rows.revisions.map Revision.priorContent
  frozen : ∀ body ∈ rows.history.atDeletion, rows.message.body = body
  marked : rows.history.atDeletion.isSome = rows.message.deletedAt.isSome
  redacted : ∀ sent ∈ rows.history.sent, sent.deleted = true →
    sent.payload.body = deletedPlaceholder

theorem Sound.posted (message : MessageRow) (attachments : List AttachmentRow) :
    (Rows.posted message attachments).Sound where
  complete := fun _ member => .inl (List.mem_singleton.mp member)
  frozen := fun _ isFrozen => by cases isFrozen
  marked := rfl
  redacted := fun _ member => by cases member

/-- How the rows may come to look while a call waits. -/
structure Later (before after : Rows) : Prop where
  contents : after.history.contents = before.history.contents
  attachments : after.attachments ⊆ before.attachments
  offered : before.history.offered ⊆ after.history.offered

theorem Later.refl (rows : Rows) : Later rows rows where
  contents := rfl
  attachments := List.Subset.refl _
  offered := List.Subset.refl _

theorem Later.trans {first second third : Rows} (one : Later first second)
    (two : Later second third) : Later first third where
  contents := two.contents.trans one.contents
  attachments := List.Subset.trans two.attachments one.attachments
  offered := List.Subset.trans one.offered two.offered

theorem Settled.later {before after : Rows} (later : Later before after)
    (settled : before.Settled) : after.Settled where
  detached := List.eq_nil_of_subset_nil (settled.detached ▸ later.attachments)
  offered := by
    intro content member
    exact later.offered (settled.offered content (later.contents ▸ member))

variable {rows after : Rows} {choice : Choice}

/-- A payload that is redacted is sent of a message that is deleted only where
the payload says so. -/
theorem Sound.send (sound : rows.Sound) {payload : ChatMessage} (redacted : payload.Redacted)
    (current : rows.message.deletedAt.isSome = true → payload.deleted = true) :
    (rows.send payload).Sound where
  complete := sound.complete
  frozen := sound.frozen
  marked := sound.marked
  redacted := by
    intro sent member deleted
    rcases List.mem_cons.mp member with rfl | earlier
    · exact redacted (current deleted)
    · exact sound.redacted sent earlier deleted

theorem Sound.insertRevision (sound : rows.Sound) (revision : Revision) :
    ({ rows with revisions := rows.revisions ++ [revision] } : Rows).Sound where
  complete := by
    intro body member
    rcases sound.complete body member with current | recorded
    · exact .inl current
    · rw [List.map_append]
      exact .inr (List.mem_append_left _ recorded)
  frozen := sound.frozen
  marked := sound.marked
  redacted := sound.redacted

/-- An edit of a message that is not deleted replaces a body that a revision
has. -/
theorem Sound.updateBody (sound : rows.Sound) (body : String) (undeleted :
      rows.message.deletedAt = none)
    (recorded : body = rows.message.body ∨
      rows.message.body ∈ rows.revisions.map Revision.priorContent) :
    (rows.answer choice (.updateBody body)).1.Sound where
  complete := by
    intro old member
    rcases List.mem_cons.mp member with rfl | earlier
    · exact .inl rfl
    · rcases sound.complete old earlier with rfl | isRecorded
      · rcases recorded with rfl | isRecorded
        · exact .inl rfl
        · exact .inr isRecorded
      · exact .inr isRecorded
  frozen := by
    intro old isFrozen
    have isMarked := sound.marked
    change rows.history.atDeletion = some old at isFrozen
    rw [isFrozen, undeleted] at isMarked
    cases isMarked
  marked := sound.marked
  redacted := sound.redacted

theorem Sound.updateDeletedAt (sound : rows.Sound) :
    (rows.answer choice .updateDeletedAt).1.Sound where
  complete := sound.complete
  frozen := by
    intro body isFrozen
    change (rows.history.atDeletion <|> some rows.message.body) = some body at isFrozen
    cases marked : rows.history.atDeletion with
    | none =>
        rw [marked] at isFrozen
        exact Option.some.inj isFrozen
    | some first =>
        rw [marked] at isFrozen
        exact sound.frozen body (marked.trans isFrozen)
  marked := by
    change (rows.history.atDeletion <|> some rows.message.body).isSome = true
    cases rows.history.atDeletion <;> rfl
  redacted := sound.redacted

/-- A fit statement that runs keeps the rows sound. -/
theorem Sound.answer (sound : rows.Sound) {request : Statement} (asked : request.Redacted)
    (fit : rows.Fit choice request) (effect : choice.outcome ≠ .fails) :
    (rows.answer choice request).1.Sound := by
  cases request with
  | insertRevision action actor => exact sound.insertRevision _
  | updateBody body =>
      obtain ⟨undeleted, recorded⟩ := fit effect
      exact sound.updateBody body undeleted recorded
  | updateDeletedAt => exact sound.updateDeletedAt
  | deleteAttachments | forget => exact ⟨sound.complete, sound.frozen, sound.marked, sound.redacted⟩
  | publishLocal | respond => exact sound.send asked fit
  | _ => exact sound

theorem answer_later (rows : Rows) (choice : Choice) (request : Statement) :
    Later rows (rows.answer choice request).1 := by
  cases request with
  | deleteAttachments => exact ⟨rfl, List.nil_subset _, List.Subset.refl _⟩
  | forget content => exact ⟨rfl, List.Subset.refl _, List.subset_cons_self _ _⟩
  | _ => exact ⟨rfl, List.Subset.refl _, List.Subset.refl _⟩

/-- However a statement goes, it replies with a value only where it has run. -/
theorem execute_cases {request : Statement} {reply : Except ApiError request.Value}
    (executed : rows.execute choice request = some (after, reply)) :
    (after = (rows.answer choice request).1 ∧ (choice.outcome = .fails → ∃ content,
        request = .forget content) ∧
      ∀ value, reply = .ok value → choice.outcome = .runs ∧
        value = (rows.answer choice request).2) ∨
    (after = rows ∧ (∀ content, request ≠ .forget content) ∧
      ∃ failure, reply = .error failure) := by
  unfold execute at executed
  cases outcome : choice.outcome with
  | runs =>
      simp only [outcome] at executed
      cases executed
      refine .inl ⟨rfl, nofun, ?_⟩
      intro value isValue
      cases isValue
      exact ⟨rfl, rfl⟩
  | lost =>
      simp only [outcome] at executed
      split at executed
      case isTrue => cases executed
      case isFalse =>
        cases executed
        exact .inl ⟨rfl, nofun, nofun⟩
  | fails =>
      simp only [outcome] at executed
      split at executed
      case isTrue => cases executed
      case isFalse =>
        cases request with
        | forget content =>
            cases executed
            exact .inl ⟨rfl, fun _ => ⟨content, rfl⟩, nofun⟩
        | _ =>
            cases executed
            exact .inr ⟨rfl, nofun, _, rfl⟩

/-- A fit statement keeps the rows sound and moves them on, however it goes. -/
theorem Sound.execute (sound : rows.Sound) {request : Statement} (asked : request.Redacted)
    (fit : rows.Fit choice request) {reply : Except ApiError request.Value}
    (executed : rows.execute choice request = some (after, reply)) :
    after.Sound ∧ Later rows after := by
  rcases execute_cases executed with ⟨rfl, refused, -⟩ | ⟨rfl, -⟩
  · refine ⟨?_, rows.answer_later choice request⟩
    by_cases effect : choice.outcome = .fails
    · obtain ⟨content, rfl⟩ := refused effect
      exact ⟨sound.complete, sound.frozen, sound.marked, sound.redacted⟩
    · exact sound.answer asked fit effect
  · exact ⟨sound, .refl after⟩

end Rows

end Statements

section Handlers

/-- What the calls on a message owe each other. -/
def courtesy : Contract Rows Choice Empty Request
    (fun request : Statement => Except ApiError request.Value)
    (Except ApiError (Option ChatMessage)) where
  invariant := Rows.Sound
  later := Rows.Later
  permitted _ rows choice request := rows.Fit choice request
  allowed _ _ := True
  owed _ _ request := request.Redacted
  promise request _ result rows :=
    ∀ caller answer, request = .delete caller → result = .ok answer → rows.Settled
  later_refl := Rows.Later.refl
  later_trans _ _ _ := Rows.Later.trans

abbrev Yields {First : Type} (fact : First → Rows → Prop) (seen : Rows)
    (program : Handler First) : Prop :=
  courtesy.Yields chat fact seen program

variable {First : Type} {seen : Rows}

/-- A statement that sends nothing unredacted tells what its reply and its
effect tell. -/
theorem yields_attempt (request : Statement)
    {fact : Except ApiError request.Value → Rows → Prop} (asked : request.Redacted)
    (told : ∀ (now : Rows) choice after reply, now.Fit choice request →
      now.execute choice request = some (after, reply) → fact reply after) :
    Yields fact seen (attempt request) := by
  apply Contract.yields_attempt
  intro past now waited sound
  refine ⟨asked, ?_⟩
  intro choice after reply fit executed
  obtain ⟨stillSound, moved⟩ := sound.execute asked fit executed
  exact ⟨stillSound, moved, told now choice after reply fit executed⟩

theorem yields_perform (request : Statement) {fact : request.Value → Rows → Prop}
    (asked : request.Redacted)
    (told : ∀ (now : Rows) (choice : Choice), now.Fit choice request → choice.outcome = .runs →
      fact (now.answer choice request).2 (now.answer choice request).1) :
    Yields fact seen (perform request) := by
  apply Contract.yields_perform
  intro past now waited sound
  refine ⟨asked, ?_⟩
  intro choice after reply fit executed
  obtain ⟨stillSound, moved⟩ := sound.execute asked fit executed
  refine ⟨stillSound, moved, ?_⟩
  intro value isValue
  rcases Rows.execute_cases executed with ⟨rfl, -, replied⟩ | ⟨-, -, failure, isError⟩
  · obtain ⟨runs, rfl⟩ := replied value isValue
    exact told now choice fit runs
  · rw [isError] at isValue
    cases isValue

/-- A statement that sends nothing and whose reply does not matter. -/
theorem yields_any (request : Statement) (asked : request.Redacted) :
    Yields (fun _ _ => True) seen (perform request) :=
  yields_perform request asked fun _ _ _ _ => trivial

theorem yields_reply (request : Statement) (asked : request.Redacted) :
    Yields (fun _ _ => True) seen (attempt request) :=
  yields_attempt request asked fun _ _ _ _ _ _ => trivial

theorem yields_discard (request : Statement) (asked : request.Redacted) :
    Yields (fun _ _ => True) seen (discard (attempt request)) := by
  apply Contract.yields_bind (yields_reply request asked)
  intro reply store _ _
  exact Contract.yields_pure trivial

theorem withAttached_yields {viewer : Option UserId} {message : ChatMessage}
    (redacted : message.Redacted) :
    Yields (fun message _ => message.Redacted) seen (withAttached viewer message) := by
  unfold withAttached
  split
  case isTrue => exact Contract.yields_pure redacted
  case isFalse =>
    apply Contract.yields_bind (yields_reply (.reactionsFor viewer) trivial)
    intro reactions store _ _
    apply Contract.yields_bind (yields_reply (.attachmentsFor false) trivial)
    intro attachments after _ _
    exact Contract.yields_pure redacted

/-- A message that was read is redacted. -/
theorem readMessage_yields (viewer : Option UserId) :
    Yields (fun found _ => ∀ message ∈ found, message.Redacted) seen (readMessage viewer) := by
  apply Contract.yields_bind (yields_reply .get trivial)
  intro reply store _ _
  split
  case h_1 row =>
    apply Contract.yields_map
    apply (withAttached_yields row.toMessage_redacted).imp
    intro message _ redacted given isGiven
    cases isGiven
    exact redacted
  case h_2 => exact Contract.yields_pure fun _ isFound => by cases isFound

theorem publishUpdate_yields {found : Option ChatMessage}
    (redacted : ∀ message ∈ found, message.Redacted) :
    Yields (fun _ _ => True) seen (publishUpdate found) := by
  cases found with
  | none => exact Contract.yields_pure trivial
  | some message => exact yields_any (.publishLocal message) (redacted message rfl)

theorem broadcastUpdate_yields : Yields (fun _ _ => True) seen broadcastUpdate := by
  apply Contract.yields_bind (readMessage_yields none)
  intro found store _ redacted
  apply Contract.yields_bind (publishUpdate_yields redacted)
  intro _ after _ _
  exact yields_discard .publishBus trivial

theorem respondCurrent_yields (caller : UserId) :
    Yields (fun _ _ => True) seen (respondCurrent caller) := by
  apply Contract.yields_bind (readMessage_yields (some caller))
  intro found store _ redacted
  cases found with
  | none => exact Contract.yields_throw
  | some message =>
      apply Contract.yields_bind (yields_any (.respond message) (redacted message rfl))
      intro _ after _ _
      exact Contract.yields_pure trivial

theorem channelAccess_yields (channel : ChannelId) (caller : UserId) :
    Yields (fun _ _ => True) seen (channelAccess channel caller) := by
  apply Contract.yields_bind (yields_any (.access channel caller) trivial)
  intro access store _ _
  cases access with
  | authorized => exact Contract.yields_pure trivial
  | refused | noChannel => exact Contract.yields_throw

theorem mayDelete_yields (author caller : UserId) :
    Yields (fun _ _ => True) seen (mayDelete author caller) := by
  unfold mayDelete
  split
  case isTrue => exact Contract.yields_pure trivial
  case isFalse =>
    apply Contract.yields_bind (yields_any (.isAdmin caller) trivial)
    intro isAdmin store _ _
    exact Contract.yields_ensure.imp fun _ _ _ => trivial

/-- A deletion that finds the message deleted finds it settled. -/
theorem messageMeta_yields (deleting : Bool) :
    Yields (fun row store => deleting = true → row.deletedAt.isSome = true → store.Settled) seen
      (messageMeta deleting) := by
  have read : Yields (fun (found : Option MessageMeta) store => ∀ row ∈ found,
      deleting = true → row.deletedAt.isSome = true → store.Settled) seen
      (perform (.readMeta deleting)) := by
    apply yields_perform (.readMeta deleting) trivial
    rintro now choice fit runs row isRow rfl isDeleted
    cases isRow
    exact fit runs isDeleted
  apply Contract.yields_bind read
  intro found store _ told
  cases found with
  | none => exact Contract.yields_throw
  | some row => exact Contract.yields_pure (told row rfl)

theorem edit_yields (body : String) (actor : UserId) :
    Yields (fun _ _ => True) seen (edit body actor) := by
  apply Contract.yields_bind (yields_any (.insertRevision .edit actor) trivial)
  intro _ store _ _
  exact yields_any (.updateBody body) trivial

theorem softDelete_yields (actor : UserId) :
    Yields (fun _ _ => True) seen (softDelete actor) := by
  apply Contract.yields_bind (yields_any (.insertRevision .delete actor) trivial)
  intro _ store _ _
  exact yields_any .updateDeletedAt trivial

/-- When the rows are detached, their contents are told or were offered. -/
theorem detachAll_yields :
    Yields (fun contents rows => rows.attachments = [] ∧ ∀ content ∈ rows.history.contents,
      content ∈ contents ∨ content ∈ rows.history.offered) seen detachAll := by
  have read : Yields (fun (found : List AttachmentRow) rows =>
      ∀ content ∈ rows.history.contents,
        content ∈ found.map AttachmentRow.contentId ∨ content ∈ rows.history.offered) seen
      (perform (.attachmentsFor true)) :=
    yields_perform (.attachmentsFor true) trivial fun _ _ fit runs => fit runs
  apply Contract.yields_bind read
  intro found store _ told
  have deleted : Yields (fun _ rows => rows.attachments = []) store
      (perform .deleteAttachments) :=
    yields_perform .deleteAttachments trivial fun _ _ _ _ => rfl
  have lasts : ∀ after, Rows.Later store after →
      (∀ content ∈ store.history.contents, content ∈ found.map AttachmentRow.contentId ∨
        content ∈ store.history.offered) →
      ∀ content ∈ after.history.contents, content ∈ found.map AttachmentRow.contentId ∨
        content ∈ after.history.offered := by
    intro after waited known content member
    exact (known content (waited.contents ▸ member)).imp_right fun known =>
      waited.offered known
  apply Contract.yields_bind (Contract.Yields.carry deleted (fun rows =>
    ∀ content ∈ rows.history.contents, content ∈ found.map AttachmentRow.contentId ∨
      content ∈ rows.history.offered) lasts told)
  intro _ after _ both
  exact Contract.yields_pure both

/-- What is forgotten was offered. -/
theorem forgetAll_yields (contents : List ContentId) :
    Yields (fun _ rows => ∀ content ∈ contents, content ∈ rows.history.offered) seen
      (forgetAll contents) := by
  induction contents generalizing seen with
  | nil => exact Contract.yields_pure nofun
  | cons first rest ih =>
      have asked : Yields (fun _ rows => first ∈ rows.history.offered) seen
          (attempt (.forget first)) := by
        apply yields_attempt (.forget first) trivial
        intro now choice after reply _ executed
        rcases Rows.execute_cases executed with ⟨rfl, -, -⟩ | ⟨-, other, -⟩
        · exact List.mem_cons_self
        · exact absurd rfl (other first)
      have offers : Yields (fun _ rows => first ∈ rows.history.offered) seen
          (discard (attempt (.forget first))) := by
        apply Contract.yields_bind asked
        intro reply store _ told
        exact Contract.yields_pure told
      apply Contract.yields_bind offers
      intro _ store _ isOffered
      apply (Contract.Yields.carry ih (first ∈ ·.history.offered)
        (fun after waited offered => waited.offered offered) isOffered).imp
      rintro _ rows ⟨others, still⟩ content member
      rcases List.mem_cons.mp member with rfl | other
      · exact still
      · exact others content other

theorem forgetAttachments_yields :
    Yields (fun _ rows => rows.Settled) seen forgetAttachments := by
  apply Contract.yields_bind detachAll_yields
  intro contents store _ ⟨detached, told⟩
  apply (Contract.Yields.carry (forgetAll_yields contents) (fun rows => rows.attachments = [] ∧
    ∀ content ∈ rows.history.contents, content ∈ contents ∨ content ∈ rows.history.offered)
    ?_ ⟨detached, told⟩).imp
  · rintro _ rows ⟨forgotten, stillDetached, stillTold⟩
    refine ⟨stillDetached, ?_⟩
    intro content member
    rcases stillTold content member with isForgotten | offered
    · exact forgotten content isForgotten
    · exact offered
  · rintro after waited ⟨wasDetached, wasTold⟩
    refine ⟨List.eq_nil_of_subset_nil (wasDetached ▸ waited.attachments), ?_⟩
    intro content member
    exact (wasTold content (waited.contents ▸ member)).imp_right fun offered =>
      waited.offered offered

theorem update_yields (caller : UserId) (text : String) :
    Yields (fun _ _ => True) seen (update caller text) := by
  rw [update]
  apply Contract.yields_bind Contract.yields_ensure
  intro _ one _ _
  apply Contract.yields_bind (messageMeta_yields false)
  intro row two _ _
  apply Contract.yields_bind (channelAccess_yields row.channelId caller)
  intro _ three _ _
  apply Contract.yields_bind Contract.yields_ensure
  intro _ four _ _
  apply Contract.yields_bind Contract.yields_ensure
  intro _ five _ _
  apply Contract.yields_bind (edit_yields _ caller)
  intro _ six _ _
  apply Contract.yields_bind broadcastUpdate_yields
  intro _ seven _ _
  exact respondCurrent_yields caller

/-- A program that begins settled ends settled. -/
theorem yields_settled {program : Handler First}
    (yields : Yields (fun _ _ => True) seen program) (settled : seen.Settled) :
    Yields (fun _ rows => rows.Settled) seen program :=
  (Contract.Yields.carry yields Rows.Settled (fun _ waited before => before.later waited)
    settled).imp fun _ _ both => both.2

/-- A deletion that succeeds leaves the message settled. -/
theorem delete_yields (caller : UserId) :
    Yields (fun _ rows => rows.Settled) seen (delete caller) := by
  apply Contract.yields_bind (messageMeta_yields true)
  intro row one _ told
  apply Contract.yields_bind (Contract.Yields.carry
    (channelAccess_yields row.channelId caller)
    (fun rows => row.deletedAt.isSome = true → rows.Settled)
    (fun _ waited before isDeleted => (before isDeleted).later waited) (told rfl))
  intro _ two _ ⟨_, told₁⟩
  apply Contract.yields_bind (Contract.Yields.carry (mayDelete_yields row.authorId caller)
    (fun rows => row.deletedAt.isSome = true → rows.Settled)
    (fun _ waited before isDeleted => (before isDeleted).later waited) told₁)
  intro _ three _ ⟨_, told₂⟩
  split
  case isTrue isDeleted =>
    exact yields_settled (respondCurrent_yields caller) (told₂ isDeleted)
  case isFalse =>
    apply Contract.yields_bind (softDelete_yields caller)
    intro _ four _ _
    apply Contract.yields_bind forgetAttachments_yields
    intro _ five _ settled
    apply Contract.yields_bind (yields_settled broadcastUpdate_yields settled)
    intro _ six _ stillSettled
    exact yields_settled (respondCurrent_yields caller) stillSettled

theorem deliverNotice_yields : Yields (fun _ _ => True) seen deliverNotice := by
  apply Contract.yields_bind (readMessage_yields none)
  intro found store _ redacted
  exact publishUpdate_yields redacted

theorem courtesy_met : courtesy.Met chat where
  handlers := by
    intro request store sound
    have promised (told : Yields (fun _ rows => ∀ caller, request = .delete caller →
        rows.Settled) store (handle request)) :
        courtesy.Keeps chat (courtesy.promise request) [] store (handle request).run := by
      apply (told.keeps sound []).mono
      rintro past result rows fact caller answer isDelete isOk
      exact fact answer isOk caller isDelete
    apply promised
    cases request with
    | update caller text =>
        exact Contract.yields_map ((update_yields caller text).imp fun _ _ _ _ isDelete => by
          cases isDelete)
    | delete caller =>
        exact Contract.yields_map ((delete_yields caller).imp fun _ _ settled _ _ => settled)
    | notice => exact Contract.yields_map (deliverNotice_yields.imp fun _ _ _ _ isDelete => by
        cases isDelete)
  world _ event := nomatch event

end Handlers

section Claim

instance (state : State) (move : Move) : Decidable (courtesy.Permits state move) := by
  unfold Contract.Permits
  split
  case h_1 =>
    split
    case h_1 =>
      change Decidable (Rows.Fit _ _ _)
      infer_instance
    case h_2 => exact isTrue trivial
  case h_2 => exact isTrue trivial
  case h_3 => exact isTrue trivial

/-- In every interleaving of calls whose statements are fit when they run, the
history is complete and the deletion final, in every state. -/
theorem history_upheld {message : MessageRow} {attachments : List AttachmentRow}
    {moves : List Move} {final : State}
    (fit : Along chat.step (fun before move _ => courtesy.Permits before move)
      (Service.start (Rows.posted message attachments)) moves)
    (ran : run chat.step (Service.start (Rows.posted message attachments)) moves =
      some final) : Upheld final := by
  have kept := (Contract.run_kept courtesy_met fit
    (Contract.kept_start (Rows.Sound.posted message attachments)) ran).1
  refine ⟨kept.invariant.complete, kept.invariant.frozen, kept.invariant.redacted, ?_⟩
  intro call member caller answer isDelete isOk
  obtain ⟨seen, waited, promised⟩ := kept.answered call member
  exact (promised caller answer isDelete isOk).later waited

/-- What can be seen to be broken. -/
def breaks (state : State) : Bool :=
  (state.store.history.bodies.any fun body => body ≠ state.store.message.body &&
      body ∉ state.store.revisions.map Revision.priorContent) ||
    state.store.history.atDeletion.any (· ≠ state.store.message.body) ||
    (state.store.history.sent.any fun sent =>
      sent.deleted && sent.payload.body ≠ deletedPlaceholder) ||
    state.answered.any fun call =>
      match call.caller, call.value with
      | .delete _, .ok _ => !state.store.Settled
      | _, _ => false

theorem Upheld.breaks {state : State} (upheld : Upheld state) : breaks state = false := by
  simp only [NookOs.Chat.breaks, Bool.or_eq_false_iff, List.any_eq_false,
    Option.any_eq_false, Bool.and_eq_true, decide_eq_true_eq]
  refine ⟨⟨⟨?_, ?_⟩, ?_⟩, ?_⟩
  · rintro body member ⟨other, unrecorded⟩
    exact (upheld.complete body member).elim other unrecorded
  · intro body isFrozen
    simp [upheld.frozen body isFrozen]
  · rintro sent member ⟨deleted, carries⟩
    exact carries (upheld.redacted sent member deleted)
  · intro call member
    split
    case h_1 caller answer isDelete isOk =>
      simp [upheld.settled call member caller answer isDelete isOk]
    case h_2 => exact Bool.false_ne_true

def goesOn (index count : Nat) : List Move := List.replicate count (.goOn index {})

/-- The author edits twice at once: both have recorded the first body before
either replaces it. -/
def editsCross : List Move :=
  [.call (.update 7 "second"), .call (.update 7 "third")] ++ goesOn 0 3 ++ goesOn 1 3 ++
    goesOn 0 1 ++ goesOn 1 1

/-- An edit that found the message replaces its body after its deletion. -/
def editsLate : List Move :=
  [.call (.update 7 "second"), .call (.delete 7)] ++ goesOn 0 3 ++ goesOn 1 4 ++ goesOn 0 1

/-- A deletion fails to delete the attachment rows, and its retry answers with
success. -/
def retriesInVain : List Move :=
  .call (.delete 7) :: goesOn 0 5 ++ [.goOn 0 { outcome := .fails }, .goOn 0 {}] ++
    .call (.delete 7) :: goesOn 0 5

/-- A peer has read the message back before its deletion and delivers it then. -/
def deliversLate : List Move :=
  [.call .notice, .call (.delete 7)] ++ goesOn 0 3 ++ goesOn 1 4 ++ goesOn 0 1

/-- A message of an author with one file. -/
def withFile : Rows :=
  Rows.posted { id := 1, channelId := 1, authorId := 7, body := "first" }
    [{ id := 2, contentId := 5, filename := "plan.txt", contentType := "text/plain",
       sizeBytes := 9 }]

/-- Each of the four runs reaches a state that is broken. -/
theorem history_broken :
    [editsCross, editsLate, retriesInVain, deliversLate].Forall fun moves =>
      ∃ final, run chat.step (Service.start withFile) moves = some final ∧ ¬ Upheld final := by
  have seen : ∀ moves ∈ [editsCross, editsLate, retriesInVain, deliversLate],
      (run chat.step (Service.start withFile) moves).any breaks = true := by
    decide +kernel
  apply List.forall_iff_forall_mem.mpr
  intro moves isRun
  obtain ⟨final, ran, broken⟩ := (Option.any_eq_true _ _).mp (seen moves isRun)
  refine ⟨final, ran, ?_⟩
  intro upheld
  rw [upheld.breaks] at broken
  cases broken

/-- An edit, a refused edit of another, a deletion by an admin and its retry, one
call after the other. -/
def oneByOne : List Move :=
  .call (.update 7 "second") :: goesOn 0 14 ++ .call (.update 8 "mine") :: goesOn 0 3 ++
    .call (.delete 8) :: goesOn 0 14 ++ .call (.delete 7) :: goesOn 0 5

theorem history_upheld_oneByOne :
    ∃ final, run chat.step (Service.start withFile) oneByOne = some final ∧ Upheld final := by
  have runs : (run chat.step (Service.start withFile) oneByOne).isSome = true := by
    decide +kernel
  obtain ⟨final, ran⟩ := Option.isSome_iff_exists.mp runs
  exact ⟨final, ran, history_upheld (by decide +kernel) ran⟩

end Claim

end NookOs.Chat
