/-
Module: NookOs.Tasks.DescriptionRevisions
Purpose: The revisions that edits of one card keep of the descriptions they replace, in any
  interleaving of the edits' statements.
Trusted boundary: none
Main exports: EditPhase, Desk, Desk.step, Undoable, undoable_of_run, undoable_of_new_stamps
-/
import Mathlib.Data.List.Perm.Basic
import Mathlib.Logic.Function.Basic
import NookOs.Lib.Run
import NookOs.Tasks.Task

namespace NookOs.Tasks.DescriptionRevisions

open Lib
open Jobs (Instant)

/-!
An edit reads the shape of the card and then its row, checks what it was asked for, writes
with one conditional statement, and keeps the description it read as a revision where the
write landed.  Whether the checks on other rows and tables pass is left to the label.
-/

section Model

abbrev CallId := Nat

/-- The statement that a call of `update_task` comes to next. -/
inductive EditPhase where
  | idle
  | shape (edit : TaskEdit)
  | row (edit : TaskEdit)
  | write (edit : TaskEdit) (prior : Option String)
  | revision (prior : String)
  | answered
  | refused
deriving DecidableEq

inductive EditLabel where
  | update (call : CallId) (edit : TaskEdit)
  | taskShape (call : CallId) (passes : Bool)
  | getRow (call : CallId)
  | fails (call : CallId)
  | updateFields (call : CallId) (now : Instant)
  | addRevision (call : CallId)
  | elsewhere (edit : TaskEdit) (now : Instant)

/-- A write of a call that landed, with the descriptions before and after it. -/
structure Landed where
  call : CallId
  before : Option String
  after : Option String
deriving DecidableEq

/-- The card, its revisions, each with the call that kept it, and the calls.  The stamps
that the card has had and the writes that landed are on record. -/
structure Desk where
  row : TaskItem
  revisions : List (CallId × String)
  phase : CallId → EditPhase
  stamps : List Instant
  landed : List Landed

namespace Desk

/-- An edit of the description carries the stamp of an earlier reading. -/
def Guarded (desk : Desk) (edit : TaskEdit) : Prop :=
  edit.description.isSome → ∃ stamp ∈ desk.stamps, edit.expectedUpdatedAt = some stamp

instance (desk : Desk) (edit : TaskEdit) : Decidable (desk.Guarded edit) :=
  inferInstanceAs <| Decidable <|
    edit.description.isSome → ∃ stamp ∈ desk.stamps, edit.expectedUpdatedAt = some stamp

def turn (desk : Desk) (call : CallId) (phase : EditPhase) : Desk :=
  { desk with phase := Function.update desk.phase call phase }

/-- What is left to do once the write has landed. -/
def afterWrite (edit : TaskEdit) : Option String → EditPhase
  | none => .answered
  | some prior => if edit.description ≠ some prior then .revision prior else .answered

def step (desk : Desk) : EditLabel → Option Desk
  | .update call edit =>
      if desk.phase call = .idle ∧ desk.Guarded edit then some (desk.turn call (.shape edit))
      else none
  | .taskShape call passes =>
      match desk.phase call with
      | .shape edit => some (desk.turn call (if passes then .row edit else .refused))
      | _ => none
  | .getRow call =>
      match desk.phase call with
      | .row edit =>
          some (desk.turn call
            (.write edit (if edit.description.isSome then desk.row.description else none)))
      | _ => none
  | .fails call =>
      match desk.phase call with
      | .write _ _ => some (desk.turn call .refused)
      | _ => none
  | .updateFields call now =>
      match desk.phase call with
      | .write edit prior =>
          match Repo.updateFields now edit desk.row with
          | none => some (desk.turn call .refused)
          | some row =>
              some { desk.turn call (afterWrite edit prior) with
                row := row
                stamps := now :: desk.stamps
                landed := ⟨call, desk.row.description, row.description⟩ :: desk.landed }
      | _ => none
  | .addRevision call =>
      match desk.phase call with
      | .revision prior =>
          some { desk.turn call .answered with
            revisions := (call, prior) :: desk.revisions }
      | _ => none
  | .elsewhere edit now =>
      if edit.description.isSome then none
      else
        match Repo.updateFields now edit desk.row with
        | none => some desk
        | some row => some { desk with row := row, stamps := now :: desk.stamps }

/-- A card on which no call is under way. -/
def start (row : TaskItem) (earlier : List Instant) : Desk :=
  { row := row, revisions := [], phase := fun _ => .idle
    stamps := row.updatedAt :: earlier, landed := [] }

end Desk

end Model

section Properties

/-- The description that a write replaced by a different text. -/
def Landed.replaces (landed : Landed) : Option (CallId × String) :=
  landed.before.bind fun text =>
    if landed.after ≠ some text then some (landed.call, text) else none

def Desk.replaced (desk : Desk) : List (CallId × String) := desk.landed.filterMap Landed.replaces

/-- No call is between its first statement and its answer. -/
def Desk.Quiet (desk : Desk) : Prop :=
  ∀ call, desk.phase call = .idle ∨ desk.phase call = .answered ∨ desk.phase call = .refused

/-- Each replacement has one revision and there are no others; a call that was refused has
written nothing, and one that left the text as it was has kept nothing. -/
structure Undoable (desk : Desk) : Prop where
  recorded : desk.Quiet → desk.revisions.Perm desk.replaced
  refused : ∀ call, desk.phase call = .refused →
    (∀ landed ∈ desk.landed, landed.call ≠ call) ∧ ∀ kept ∈ desk.revisions, kept.1 ≠ call
  unchanged : ∀ landed ∈ desk.landed, landed.before = landed.after →
    ∀ kept ∈ desk.revisions, kept.1 ≠ landed.call

/-- A write of a description that lands finds the description that its call has read. -/
def ReadsWhatItReplaces (desk : Desk) (label : EditLabel) (_ : Desk) : Prop :=
  match label with
  | .updateFields call _ =>
      ∀ edit prior, desk.phase call = .write edit prior → edit.description.isSome = true →
        Repo.unmoved edit desk.row = true → desk.row.description = prior
  | _ => True

/-- A write stamps the card with a time that it has not had. -/
def StampsAreNew (desk : Desk) (label : EditLabel) (_ : Desk) : Prop :=
  match label with
  | .updateFields _ now | .elsewhere _ now => now ∉ desk.stamps
  | _ => True

instance (desk : Desk) (label : EditLabel) (after : Desk) :
    Decidable (StampsAreNew desk label after) :=
  match label with
  | .updateFields _ now | .elsewhere _ now => inferInstanceAs (Decidable (now ∉ desk.stamps))
  | .update .. | .taskShape .. | .getRow _ | .fails _ | .addRevision _ => isTrue trivial

end Properties

/-! ### Runs in which a write replaces what its call has read -/

variable {row : TaskItem}

section Runs

namespace Desk

/-- What the revisions are at any time: those of the replacements, but for the ones that
their calls have still to keep. -/
structure Sound (desk : Desk) : Prop where
  counts : ∀ entry : CallId × String,
    desk.revisions.count entry +
        (if desk.phase entry.1 = .revision entry.2 then 1 else 0) =
      desk.replaced.count entry
  written : ∀ landed ∈ desk.landed,
    desk.phase landed.call = .answered ∨ ∃ prior, desk.phase landed.call = .revision prior
  single : (desk.landed.map (·.call)).Nodup
  unread : ∀ call edit prior, desk.phase call = .write edit prior →
    edit.description.isSome = false → prior = none

variable {desk after : Desk} {call other : CallId} {phase : EditPhase} {edit : TaskEdit}
  {prior : Option String} {now : Instant}

@[simp] theorem phase_turn : (desk.turn call phase).phase other =
    if other = call then phase else desk.phase other :=
  Function.update_apply ..

@[simp] theorem phase_start (row : TaskItem) (earlier : List Instant) (call : CallId) :
    (start row earlier).phase call = .idle := rfl

theorem sound_start (row : TaskItem) (earlier : List Instant) : (start row earlier).Sound where
  counts entry := by
    rw [phase_start, if_neg (nofun : EditPhase.idle ≠ .revision entry.2)]
    rfl
  written _ member := absurd member List.not_mem_nil
  single := List.nodup_nil
  unread _ _ _ writes := absurd writes nofun

/-- A phase before the write has landed. -/
def Before (phase : EditPhase) : Prop :=
  phase ≠ .answered ∧ ∀ prior, phase ≠ .revision prior

theorem Sound.notLanded (sound : desk.Sound) (before : Before (desk.phase call)) :
    ∀ landed ∈ desk.landed, landed.call ≠ call := by
  rintro landed member rfl
  rcases sound.written landed member with answered | ⟨prior, revising⟩
  · exact before.1 answered
  · exact before.2 prior revising

/-- A call that has written nothing goes on to another phase like that. -/
theorem Sound.turn (sound : desk.Sound) (before : Before (desk.phase call))
    (stays : ∀ prior, phase ≠ .revision prior)
    (unread : ∀ edit prior, phase = .write edit prior →
      edit.description.isSome = false → prior = none) :
    (desk.turn call phase).Sound where
  counts entry := by
    have counted := sound.counts entry
    rw [phase_turn]
    split
    · next same =>
        rw [same, if_neg (before.2 entry.2)] at counted
        rw [if_neg (stays entry.2)]
        exact counted
    · exact counted
  written landed member := by
    rw [phase_turn, if_neg (sound.notLanded before landed member)]
    exact sound.written landed member
  single := sound.single
  unread other edit prior := by
    rw [phase_turn]
    split
    · exact unread edit prior
    · exact sound.unread other edit prior

theorem Sound.pass (sound : desk.Sound) (before : Before (desk.phase call))
    (stays : ∀ prior, phase ≠ .revision prior) (idles : ∀ edit prior, phase ≠ .write edit prior) :
    (desk.turn call phase).Sound :=
  sound.turn before stays fun edit prior writes _ => absurd writes (idles edit prior)

theorem updateFields_some (written : Repo.updateFields now edit desk.row = some row) :
    Repo.unmoved edit desk.row = true ∧
      row.description = edit.description.or desk.row.description ∧ row.updatedAt = now := by
  unfold Repo.updateFields at written
  split at written
  · next unmoved =>
      cases written
      exact ⟨unmoved, rfl, rfl⟩
  · cases written

/-- A revision is left to keep exactly where the write replaced the text that was read. -/
theorem afterWrite_eq (call : CallId)
    (reads : edit.description.isSome = true → desk.row.description = prior)
    (unread : edit.description.isSome = false → prior = none) (text : String) :
    afterWrite edit prior = .revision text ↔
      Landed.replaces ⟨call, desk.row.description, edit.description.or desk.row.description⟩ =
        some (call, text) := by
  cases given : edit.description with
  | none =>
      rw [unread (by rw [given]; rfl)]
      refine iff_of_false nofun ?_
      cases desk.row.description <;> simp [Landed.replaces]
  | some description =>
      rw [reads (by rw [given]; rfl)]
      cases prior with
      | none => exact iff_of_false nofun nofun
      | some old =>
          simp only [afterWrite, given, Landed.replaces, Option.some_or, Option.bind_some]
          by_cases same : some description = some old
          · simp [same]
          · simp [same]

/-- A replacement is booked under the call that made it. -/
theorem call_of_replaces {landed : Landed} {entry : CallId × String}
    (found : landed.replaces = some entry) : landed.call = entry.1 := by
  obtain ⟨text, -, kept⟩ := Option.bind_eq_some_iff.mp found
  split at kept
  · cases kept
    rfl
  · cases kept

theorem afterWrite_landed (edit : TaskEdit) (prior : Option String) :
    afterWrite edit prior = .answered ∨
    ∃ text, afterWrite edit prior = .revision text := by
  cases prior with
  | none => exact .inl rfl
  | some old =>
      rw [afterWrite]
      split
      · exact .inr ⟨old, rfl⟩
      · exact .inl rfl

/-- A write that lands on the text that its call has read. -/
theorem Sound.write (sound : desk.Sound) (before : Before (desk.phase call))
    (writes : desk.phase call = .write edit prior)
    (reads : edit.description.isSome = true → desk.row.description = prior)
    (row : TaskItem) (stamps : List Instant) :
    Sound { desk.turn call (afterWrite edit prior) with
      row := row
      stamps := stamps
      landed := ⟨call, desk.row.description, edit.description.or desk.row.description⟩ ::
        desk.landed } where
  counts entry := by
    have counted := sound.counts entry
    have kept := afterWrite_eq call reads (sound.unread call edit prior writes) entry.2
    obtain ⟨who, text⟩ := entry
    change desk.revisions.count (who, text) +
      (if (desk.turn call (afterWrite edit prior)).phase who = .revision text then 1 else 0) = _
    rw [phase_turn, replaced, List.count_filterMap, List.countP_cons, ← List.count_filterMap,
      ← replaced, ← counted]
    split
    · next same =>
        subst same
        simp only [if_neg (before.2 text), beq_iff_eq, ← kept, Nat.add_zero]
    · next apart =>
        rw [if_neg fun found => apart (call_of_replaces (beq_iff_eq.mp found)).symm, Nat.add_zero]
  written landed member := by
    rcases List.mem_cons.mp member with rfl | earlier
    · rw [phase_turn, if_pos rfl]
      exact afterWrite_landed edit prior
    · rw [phase_turn, if_neg (sound.notLanded before landed earlier)]
      exact sound.written landed earlier
  single := by
    refine List.nodup_cons.mpr ⟨fun member => ?_, sound.single⟩
    obtain ⟨landed, earlier, same⟩ := List.mem_map.mp member
    exact sound.notLanded before landed earlier same
  unread other otherEdit otherPrior := by
    rw [phase_turn]
    split
    · rcases afterWrite_landed edit prior with answered | ⟨text, revising⟩
      · rw [answered]
        exact nofun
      · rw [revising]
        exact nofun
    · exact sound.unread other otherEdit otherPrior

/-- The revision that a call had left to keep. -/
theorem Sound.revise (sound : desk.Sound) {text : String}
    (revising : desk.phase call = .revision text) :
    Sound { desk.turn call .answered with revisions := (call, text) :: desk.revisions } where
  counts entry := by
    obtain ⟨who, kept⟩ := entry
    have counted := sound.counts (who, kept)
    change ((call, text) :: desk.revisions).count (who, kept) +
      (if (desk.turn call .answered).phase who = .revision kept then 1 else 0) =
        desk.replaced.count (who, kept)
    rw [← counted, phase_turn, List.count_cons]
    by_cases same : who = call
    · subst same
      rw [revising, if_pos rfl, if_neg (nofun : EditPhase.answered ≠ .revision kept)]
      simp only [beq_iff_eq, Prod.mk.injEq, true_and, EditPhase.revision.injEq, Nat.add_zero]
    · rw [if_neg same, if_neg]
      · rfl
      · exact fun equal => same (congrArg Prod.fst (beq_iff_eq.mp equal)).symm
  written landed member := by
    rw [phase_turn]
    split
    · exact .inl rfl
    · exact sound.written landed member
  single := sound.single
  unread other otherEdit otherPrior := by
    rw [phase_turn]
    split
    · exact nofun
    · exact sound.unread other otherEdit otherPrior

/-- Each statement of a call, and each edit that is not of the description, keeps the count,
where the writes that land replace what their calls have read. -/
theorem Sound.step (sound : desk.Sound) {label : EditLabel} (taken : desk.step label = some after)
    (reads : ReadsWhatItReplaces desk label after) : after.Sound := by
  cases label with
  | update call edit =>
      obtain ⟨⟨idle, -⟩, same⟩ := Option.ite_none_right_eq_some.mp taken
      cases same
      exact sound.pass (idle ▸ ⟨nofun, fun _ => nofun⟩) (fun _ => nofun) fun _ _ => nofun
  | taskShape call passes =>
      simp only [Desk.step] at taken
      split at taken
      · next edit shape =>
          have before : Before (desk.phase call) := shape ▸ ⟨nofun, fun _ => nofun⟩
          cases taken
          cases passes with
          | false =>
              change (desk.turn call .refused).Sound
              exact sound.pass before (fun _ => nofun) fun _ _ => nofun
          | true =>
              change (desk.turn call (.row edit)).Sound
              exact sound.pass before (fun _ => nofun) fun _ _ => nofun
      · cases taken
  | getRow call =>
      simp only [Desk.step] at taken
      split at taken
      · next edit read =>
          cases taken
          refine sound.turn (read ▸ ⟨nofun, fun _ => nofun⟩) (fun _ => nofun)
            fun other prior same silent => ?_
          obtain ⟨rfl, rfl⟩ := EditPhase.write.inj same
          rw [silent]
          rfl
      · cases taken
  | fails call =>
      simp only [Desk.step] at taken
      split at taken
      · next edit prior writes =>
          cases taken
          exact sound.pass (writes ▸ ⟨nofun, fun _ => nofun⟩) (fun _ => nofun) fun _ _ => nofun
      · cases taken
  | updateFields call now =>
      simp only [Desk.step] at taken
      split at taken
      · next edit prior writes =>
          have before : Before (desk.phase call) := writes ▸ ⟨nofun, fun _ => nofun⟩
          split at taken
          · cases taken
            exact sound.pass before (fun _ => nofun) fun _ _ => nofun
          · next row written =>
              obtain ⟨unmoved, described, -⟩ := updateFields_some written
              cases taken
              rw [described]
              exact sound.write before writes
                (fun given => reads edit prior writes given unmoved) row _
      · cases taken
  | addRevision call =>
      simp only [Desk.step] at taken
      split at taken
      · next text revising =>
          cases taken
          exact sound.revise revising
      · cases taken
  | elsewhere edit now =>
      simp only [Desk.step] at taken
      split at taken
      · cases taken
      · split at taken
        · cases taken
          exact sound
        · cases taken
          exact ⟨sound.counts, sound.written, sound.single, sound.unread⟩

/-- A revision is of a description that the call which kept it has replaced. -/
theorem Sound.of_kept (sound : desk.Sound) {kept : CallId × String}
    (member : kept ∈ desk.revisions) :
    ∃ landed ∈ desk.landed, landed.replaces = some kept ∧ landed.call = kept.1 := by
  have counted := sound.counts kept
  have positive := List.count_pos_iff.mpr member
  have replaced : kept ∈ desk.replaced := List.count_pos_iff.mp (by omega)
  obtain ⟨landed, written, found⟩ := List.mem_filterMap.mp replaced
  exact ⟨landed, written, found, call_of_replaces found⟩

theorem Sound.undoable (sound : desk.Sound) : Undoable desk where
  recorded quiet := List.perm_iff_count.mpr fun entry => by
    have counted := sound.counts entry
    rw [if_neg] at counted
    · exact counted
    · intro revising
      rcases quiet entry.1 with idle | answered | refused
      · exact nomatch revising.symm.trans idle
      · exact nomatch revising.symm.trans answered
      · exact nomatch revising.symm.trans refused
  refused call refused := by
    have wrote : ∀ landed ∈ desk.landed, landed.call ≠ call :=
      sound.notLanded (refused ▸ ⟨nofun, fun _ => nofun⟩)
    refine ⟨wrote, fun kept member same => ?_⟩
    obtain ⟨landed, written, -, booked⟩ := sound.of_kept member
    exact wrote landed written (booked.trans same)
  unchanged landed written same kept member booked := by
    obtain ⟨other, otherWritten, replaces, otherBooked⟩ := sound.of_kept member
    have one := List.inj_on_of_nodup_map sound.single written otherWritten
      (booked.symm.trans otherBooked.symm)
    obtain ⟨text, old, differs⟩ := Option.bind_eq_some_iff.mp (one ▸ replaces)
    rw [if_neg (not_not.mpr (same.symm.trans old))] at differs
    cases differs

end Desk

theorem Desk.sound_of_run {earlier : List Instant} {labels : List EditLabel}
    {final : Desk} (reads : Along Desk.step ReadsWhatItReplaces (Desk.start row earlier) labels)
    (ran : run Desk.step (Desk.start row earlier) labels = some final) : final.Sound :=
  reads.run_invariant Desk.Sound (fun _ _ _ sound taken reads => sound.step taken reads)
    (Desk.sound_start row earlier) ran

end Runs

/-! ### Runs in which no stamp comes twice -/

section Stamps

/-- The edit that a call under way has still to write. -/
def EditPhase.Asks (edit : TaskEdit) : EditPhase → Prop
  | .shape asked | .row asked | .write asked _ => asked = edit
  | _ => False

namespace Desk

/-- What makes a stamp as good as a version: the row's own is on record, every edit under way
carries one on record, and an edit that is ready to write and still fits the row has read it. -/
structure Versioned (desk : Desk) : Prop where
  stamped : desk.row.updatedAt ∈ desk.stamps
  guarded : ∀ call edit, EditPhase.Asks edit (desk.phase call) → desk.Guarded edit
  current : ∀ call edit prior, desk.phase call = .write edit prior →
    edit.description.isSome = true → Repo.unmoved edit desk.row = true →
      desk.row.description = prior

variable {desk after : Desk} {call : CallId} {phase : EditPhase} {edit : TaskEdit}

/-- A stamp that the row has not had fits no edit of a description under way. -/
theorem Guarded.moved (guarded : desk.Guarded edit) (given : edit.description.isSome = true)
    (new : row.updatedAt ∉ desk.stamps) : Repo.unmoved edit row = false := by
  obtain ⟨stamp, member, expected⟩ := guarded given
  rw [Repo.unmoved, expected, Option.all_some, decide_eq_false_iff_not]
  rintro rfl
  exact new member

theorem versioned_start (row : TaskItem) (earlier : List Instant) :
    (start row earlier).Versioned where
  stamped := List.mem_cons_self
  guarded _ _ asks := asks.elim
  current _ _ _ writes := absurd writes nofun

theorem Versioned.turn (versioned : desk.Versioned)
    (asks : ∀ edit, EditPhase.Asks edit phase → desk.Guarded edit)
    (reads : ∀ edit prior, phase = .write edit prior → edit.description.isSome = true →
      desk.row.description = prior) :
    (desk.turn call phase).Versioned where
  stamped := versioned.stamped
  guarded other edit := by
    rw [phase_turn]
    split
    · exact asks edit
    · exact versioned.guarded other edit
  current other edit prior := by
    rw [phase_turn]
    split
    · exact fun writes given _ => reads edit prior writes given
    · exact versioned.current other edit prior

/-- A call under way that goes on with what it was asked for. -/
theorem Versioned.pass (versioned : desk.Versioned)
    (asks : ∀ edit, EditPhase.Asks edit phase → EditPhase.Asks edit (desk.phase call))
    (idles : ∀ edit prior, phase ≠ .write edit prior) : (desk.turn call phase).Versioned :=
  versioned.turn (fun edit asked => versioned.guarded call edit (asks edit asked))
    fun edit prior writes _ => absurd writes (idles edit prior)

/-- A row with a new stamp is one that no edit under way fits. -/
theorem Versioned.write (versioned : desk.Versioned) (new : row.updatedAt ∉ desk.stamps) :
    Versioned { desk with row := row, stamps := row.updatedAt :: desk.stamps } where
  stamped := List.mem_cons_self
  guarded call edit asks given := by
    obtain ⟨stamp, member, expected⟩ := versioned.guarded call edit asks given
    exact ⟨stamp, List.mem_cons_of_mem _ member, expected⟩
  current call edit prior writes given unmoved := by
    have guarded := versioned.guarded call edit (by rw [writes]; rfl)
    rw [guarded.moved given new] at unmoved
    cases unmoved

theorem Versioned.step (versioned : desk.Versioned) {label : EditLabel}
    (taken : desk.step label = some after) (new : StampsAreNew desk label after) :
    after.Versioned := by
  cases label with
  | update call edit =>
      obtain ⟨⟨-, guarded⟩, same⟩ := Option.ite_none_right_eq_some.mp taken
      cases same
      exact versioned.turn (fun _ asked => asked ▸ guarded) fun _ _ writes _ => nomatch writes
  | taskShape call passes =>
      simp only [Desk.step] at taken
      split at taken
      · next edit shape =>
          cases taken
          cases passes with
          | false => exact versioned.pass (fun _ => False.elim) fun _ _ => nofun
          | true =>
              refine versioned.pass (fun _ asked => ?_) fun _ _ => nofun
              rw [shape]
              exact asked
      · cases taken
  | getRow call =>
      simp only [Desk.step] at taken
      split at taken
      · next edit read =>
          cases taken
          refine versioned.turn
            (fun other asked => versioned.guarded call other (by rw [read]; exact asked))
            fun other prior same given => ?_
          obtain ⟨rfl, rfl⟩ := EditPhase.write.inj same
          rw [if_pos given]
      · cases taken
  | fails call =>
      simp only [Desk.step] at taken
      split at taken
      · cases taken
        exact versioned.pass (fun _ => False.elim) fun _ _ => nofun
      · cases taken
  | updateFields call now =>
      simp only [Desk.step] at taken
      split at taken
      · next edit prior writes =>
          split at taken
          · cases taken
            exact versioned.pass (fun _ => False.elim) fun _ _ => nofun
          · next row written =>
              obtain ⟨-, -, rfl⟩ := updateFields_some written
              cases taken
              have wrote := versioned.write new
              rcases afterWrite_landed edit prior with answered | ⟨text, left⟩
              · have passed : Versioned (Desk.turn _ call .answered) :=
                  wrote.pass (fun _ => False.elim) fun _ _ => nofun
                rw [answered]
                exact ⟨passed.stamped, passed.guarded, passed.current⟩
              · have passed : Versioned (Desk.turn _ call (.revision text)) :=
                  wrote.pass (fun _ => False.elim) fun _ _ => nofun
                rw [left]
                exact ⟨passed.stamped, passed.guarded, passed.current⟩
      · cases taken
  | addRevision call =>
      simp only [Desk.step] at taken
      split at taken
      · cases taken
        have passed : (desk.turn call .answered).Versioned :=
          versioned.pass (fun _ => False.elim) fun _ _ => nofun
        exact ⟨passed.stamped, passed.guarded, passed.current⟩
      · cases taken
  | elsewhere edit now =>
      simp only [Desk.step] at taken
      split at taken
      · cases taken
      · split at taken
        · cases taken
          exact versioned
        · next row written =>
            obtain ⟨-, -, rfl⟩ := updateFields_some written
            cases taken
            exact versioned.write new

theorem Versioned.reads (versioned : desk.Versioned) (label : EditLabel) :
    ReadsWhatItReplaces desk label after := by
  cases label with
  | updateFields call now => exact versioned.current call
  | _ => trivial

end Desk

/-- Where no write repeats a stamp of the card, a write that lands finds what its call has
read. -/
theorem reads_of_new_stamps {earlier : List Instant} {labels : List EditLabel}
    (new : Along Desk.step StampsAreNew (Desk.start row earlier) labels) :
    Along Desk.step ReadsWhatItReplaces (Desk.start row earlier) labels :=
  new.of_invariant Desk.Versioned (fun _ _ _ versioned taken new => versioned.step taken new)
    (fun _ label _ versioned _ _ => versioned.reads label) (Desk.versioned_start row earlier)

/-- Stamps that never repeat are versions, and under them the edits can be undone. -/
theorem undoable_of_new_stamps {earlier : List Instant} {labels : List EditLabel} {final : Desk}
    (new : Along Desk.step StampsAreNew (Desk.start row earlier) labels)
    (ran : run Desk.step (Desk.start row earlier) labels = some final) : Undoable final :=
  (Desk.sound_of_run (reads_of_new_stamps new) ran).undoable

end Stamps

/-! ### Every run -/

section EveryRun

/-- In every run whose writes of descriptions find what their calls have read, the edits
can be undone. -/
theorem undoable_of_run (row : TaskItem) (earlier : List Instant) (labels : List EditLabel)
    (final : Desk) (reads : Along Desk.step ReadsWhatItReplaces (Desk.start row earlier) labels)
    (ran : run Desk.step (Desk.start row earlier) labels = some final) : Undoable final :=
  (Desk.sound_of_run reads ran).undoable

/-- A card with a description of one letter. -/
def lettered : TaskItem :=
  { id := 1, tenantId := 1, boardId := 1, columnId := 1, number := none, title := "T"
    description := some "A", type := .task, position := 0, priority := 0, visibility := .team
    createdBy := none, assigneeUserId := none, workspaceId := none, parentTaskId := none
    assignedNodeId := none, branch := none, worktreePath := none, worktreeNodeId := none
    checkoutId := none, sessionId := none, claimExpiresAt := none, unblockedAt := none
    buildLadderClearedAt := none, prUrl := none, archivedAt := none, createdAt := 1
    updatedAt := 5 }

def replacing (text : String) : TaskEdit :=
  { description := some text, expectedUpdatedAt := some 5 }

/-- Two calls that have both read the first letter, the second of which writes first. -/
def crossing (now : Instant) : List EditLabel :=
  [.update 1 (replacing "B"), .update 2 (replacing "C"), .taskShape 1 true, .taskShape 2 true,
    .getRow 1, .getRow 2, .updateFields 2 now, .addRevision 2]

/-- The second write carries the stamp of the row that it replaces, so that the first call's
stamp still fits: it replaces the other's text, and keeps the one that it has read. -/
theorem revision_lost :
    ¬ ∀ (row : TaskItem) (earlier : List Instant) (labels : List EditLabel) (final : Desk),
      run Desk.step (Desk.start row earlier) labels = some final → Undoable final := by
  intro undoable
  have lost := undoable lettered []
    (crossing 5 ++ [.updateFields 1 6, .addRevision 1]) _ rfl
  have quiet := lost.recorded fun call => by
    by_cases first : call = 1
    · subst first
      exact .inr (.inl rfl)
    by_cases second : call = 2
    · subst second
      exact .inr (.inl rfl)
    · refine .inl ?_
      simp only [Desk.phase_turn, if_neg first, if_neg second]
      rfl
  have kept : (1, "C") ∈ [(1, "A"), (2, "A")] := quiet.mem_iff.mpr List.mem_cons_self
  exact absurd kept (by decide)

/-- The same with a stamp that is new: the first call is refused. -/
theorem undoable_of_run_crossing :
    ∃ final, run Desk.step (Desk.start lettered [])
        (crossing 6 ++ [.updateFields 1 7]) = some final ∧ Undoable final :=
  ⟨_, rfl, undoable_of_run lettered [] (crossing 6 ++ [.updateFields 1 7]) _
    (reads_of_new_stamps (by decide +kernel)) rfl⟩

end EveryRun

end NookOs.Tasks.DescriptionRevisions
