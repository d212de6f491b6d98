/-
Module: NookOs.Tasks.LadderHistory
Purpose: Whole histories of a card's build runs, and exactly when every streak of
  failures that reaches the stop has it announced once.
Trusted boundary: none
Main exports: Ladder.Sound, Ladder.apply_iff, Ladder.announced_once_iff
-/
import NookOs.Tasks.BuildLadder

namespace NookOs.Tasks

open Lib
open Jobs (Instant JobId LoopJob NewLoopJob RowWrite isTerminal checkTransition)

namespace Ladder

/-- What holds of the ladder between two events, whatever has been announced. -/
structure Sound (ladder : Ladder) : Prop where
  keyed : Table.Keyed LoopJob.id ladder.jobs
  stamped : ∀ row ∈ ladder.jobs, row.updatedAt ≤ ladder.clock
  cleared : ∀ cleared ∈ ladder.card.buildLadderClearedAt, cleared ≤ ladder.clock
  tenant : ∀ row ∈ ladder.jobs, row.targetTaskId = some ladder.card.id →
    row.tenantId = ladder.card.tenantId

section Jobs

variable {ladder : Ladder} {job row : LoopJob} {event : LadderEvent}

/-- What an event may write over a row: a live job, its fixed columns and a
recorded outcome kept. -/
structure Follows (job row : LoopJob) : Prop where
  live : isTerminal job.state = false
  fixed : row.fixed = job.fixed
  outcome : job.buildOutcome.isSome = true → row.buildOutcome = job.buildOutcome

theorem Follows.targetTaskId (follows : Follows job row) :
    row.targetTaskId = job.targetTaskId := by
  have same := congrArg LoopJob.targetTaskId follows.fixed
  exact same

theorem Follows.kind (follows : Follows job row) : row.kind = job.kind := by
  have same := congrArg LoopJob.kind follows.fixed
  exact same

theorem Follows.tenantId (follows : Follows job row) : row.tenantId = job.tenantId := by
  have same := congrArg LoopJob.tenantId follows.fixed
  exact same

theorem Follows.id (follows : Follows job row) : row.id = job.id := by
  have same := congrArg LoopJob.id follows.fixed
  exact same

/-- The row an event writes, and the row it writes it over. -/
theorem written_spec (written : event.written ladder.jobs = some row) :
    ∃ job, Table.find LoopJob.id ladder.jobs row.id = some job ∧ Follows job row ∧
      event.now = some row.updatedAt := by
  cases event with
  | claimForExecutor now id node =>
      obtain ⟨job, found, claimed⟩ := Option.bind_eq_some_iff.mp written
      simp only [Jobs.Repo.claimForExecutor, Option.ite_none_right_eq_some,
        Option.some.injEq] at claimed
      obtain ⟨queued, rfl⟩ := claimed
      obtain ⟨_, rfl⟩ := Table.find_some found
      exact ⟨job, found, ⟨by rw [queued]; rfl, rfl, fun _ => rfl⟩, rfl⟩
  | transition now id target hook =>
      obtain ⟨job, found, moved⟩ := Option.bind_eq_some_iff.mp written
      obtain ⟨_, rfl⟩ := Table.find_some found
      split at moved
      · rename_i call checked
        cases moved
        have legal : Jobs.legalTransition job.state target = true := by
          unfold checkTransition at checked
          split at checked
          · cases checked
          · split at checked
            · assumption
            · cases checked
        exact ⟨job, found, ⟨Jobs.legalTransition_not_terminal legal, rfl, fun _ => rfl⟩,
          rfl⟩
      · cases moved
      · cases moved
  | job id write hook =>
      obtain ⟨job, found, updated⟩ := Option.bind_eq_some_iff.mp written
      obtain ⟨live, stamp, fixed, outcome⟩ := RowWrite.update_spec updated
      have follows : Follows job row := ⟨live, fixed, outcome⟩
      obtain ⟨_, rfl⟩ := Table.find_some found
      exact ⟨job, by rw [follows.id]; exact found, follows, congrArg some stamp.symm⟩
  | enqueue | task | attachLabel | detachLabel | deleteLabel | clearBuildLadder
  | comment => cases written

theorem mem_writeRow {other : LoopJob} (member : other ∈ (ladder.writeRow row).jobs) :
    other = row ∨ other ∈ ladder.jobs := by
  obtain ⟨earlier, wasThere, rfl⟩ := List.mem_map.mp member
  split
  · exact .inl rfl
  · exact .inr wasThere

/-- A row of another id is still there. -/
theorem mem_writeRow_of_ne {other : LoopJob} (member : other ∈ ladder.jobs)
    (differs : other.id ≠ row.id) : other ∈ (ladder.writeRow row).jobs := by
  apply List.mem_map.mpr
  exact ⟨other, member, if_neg differs⟩

theorem self_mem_writeRow (found : Table.find LoopJob.id ladder.jobs row.id = some job) :
    row ∈ (ladder.writeRow row).jobs := by
  obtain ⟨member, sameId⟩ := Table.find_some found
  exact List.mem_map.mpr ⟨job, member, if_pos sameId⟩

/-- A live job is not a failure. -/
theorem Follows.not_isUnanswered (follows : Follows job row) :
    ladder.isUnanswered job = false := by
  rw [Bool.eq_false_iff]
  intro unanswered
  have failed := (isUnanswered_iff.mp unanswered).1
  simp only [failedHere, Bool.and_eq_true, decide_eq_true_eq] at failed
  have live := follows.live
  rw [failed.1.2] at live
  cases live

/-- A run that recorded an outcome answers every failure of the card. -/
theorem writeRow_answered (sound : ladder.Sound)
    (found : Table.find LoopJob.id ladder.jobs row.id = some job)
    (late : ladder.clock < row.updatedAt) (answered : ladder.answers row = true) :
    (ladder.writeRow row).buildFailureStreak = [] := by
  apply buildFailureStreak_eq_nil
  intro other member
  rw [Bool.eq_false_iff]
  intro unanswered
  obtain ⟨failed, _, answers⟩ := isUnanswered_iff.mp unanswered
  have notBefore := answers row (self_mem_writeRow found) answered
  rcases mem_writeRow member with rfl | wasThere
  · simp only [Ladder.answers, failedHere, Bool.and_eq_true] at answered failed
    rw [Option.isNone_iff_eq_none.mp failed.2] at answered
    exact absurd answered.2 Bool.false_ne_true
  · have earlier := sound.stamped other wasThere
    exact absurd (lt_of_le_of_lt earlier late) (not_lt.mpr notBefore)

/-- A run that recorded none adds itself to the failures, where it failed. -/
theorem writeRow_unanswered (sound : ladder.Sound)
    (found : Table.find LoopJob.id ladder.jobs row.id = some job)
    (follows : Follows job row) (late : ladder.clock < row.updatedAt)
    (unanswering : ladder.answers row = false) :
    (ladder.writeRow row).buildFailureStreak.length =
        ladder.buildFailureStreak.length + (if ladder.failedHere row then 1 else 0) ∧
      ∀ id ∈ ladder.buildFailureStreak, id ∈ (ladder.writeRow row).buildFailureStreak := by
  have notYet : ladder.answers job = false := by
    rw [Bool.eq_false_iff] at unanswering ⊢
    intro answered
    apply unanswering
    simp only [answers, Bool.and_eq_true, decide_eq_true_eq] at answered ⊢
    rw [follows.targetTaskId, follows.kind, follows.outcome answered.2]
    exact answered
  -- what answers a failure is what did before
  have same : (ladder.writeRow row).isUnanswered = ladder.isUnanswered := by
    funext other
    apply Bool.eq_iff_iff.mpr
    rw [isUnanswered_iff, isUnanswered_iff]
    apply and_congr Iff.rfl
    apply and_congr Iff.rfl
    constructor
    · intro answered earlier member answers
      by_cases sameId : earlier.id = row.id
      · have isJob := sound.keyed.find_of_mem member
        rw [sameId, found] at isJob
        rw [← Option.some.inj isJob, notYet] at answers
        cases answers
      · exact answered earlier (mem_writeRow_of_ne member sameId) answers
    · intro answered later member answers
      rcases mem_writeRow member with rfl | wasThere
      · rw [show ladder.answers later = true from answers] at unanswering
        cases unanswering
      · exact answered later wasThere answers
  have isFailure : ladder.isUnanswered row = ladder.failedHere row := by
    apply Bool.eq_iff_iff.mpr
    rw [isUnanswered_iff]
    constructor
    · exact fun unanswered => unanswered.1
    · intro failed
      refine ⟨failed, ?_, ?_⟩
      · intro cleared isCleared
        exact lt_of_le_of_lt (sound.cleared cleared isCleared) late
      · intro other member _
        exact (lt_of_le_of_lt (sound.stamped other member) late).le
  constructor
  · have counted : (ladder.writeRow row).jobs.countP ladder.isUnanswered +
          (if ladder.isUnanswered job then 1 else 0) =
        ladder.jobs.countP ladder.isUnanswered +
          if ladder.isUnanswered row then 1 else 0 :=
      sound.keyed.countP_update found
    rw [follows.not_isUnanswered, isFailure] at counted
    rw [length_buildFailureStreak, length_buildFailureStreak, same]
    exact counted
  · intro id isIn
    obtain ⟨other, member, unanswered, rfl⟩ := mem_buildFailureStreak.mp isIn
    apply mem_buildFailureStreak.mpr
    refine ⟨other, mem_writeRow_of_ne member ?_, by rw [same]; exact unanswered, rfl⟩
    intro sameId
    have isJob := sound.keyed.find_of_mem member
    rw [sameId, found] at isJob
    rw [← Option.some.inj isJob, follows.not_isUnanswered] at unanswered
    cases unanswered

/-- A run that is enqueued is no failure, and answers none. -/
theorem enqueue_spec {new : NewLoopJob} {now : Instant} :
    let after : Ladder := { ladder with jobs := ladder.jobs ++ [Jobs.Repo.create now new] }
    after.buildFailureStreak.length = ladder.buildFailureStreak.length ∧
      ∀ id ∈ ladder.buildFailureStreak, id ∈ after.buildFailureStreak := by
  intro after
  have same : after.isUnanswered = ladder.isUnanswered := by
    funext other
    apply Bool.eq_iff_iff.mpr
    rw [isUnanswered_iff, isUnanswered_iff]
    apply and_congr Iff.rfl
    apply and_congr Iff.rfl
    constructor
    · exact fun answered earlier member => answered earlier (List.mem_append_left _ member)
    · intro answered later member answers
      rcases List.mem_append.mp member with old | new
      · exact answered later old answers
      · rw [List.mem_singleton.mp new] at answers
        simp [Ladder.answers, Jobs.Repo.create] at answers
  have noFailure : ladder.isUnanswered (Jobs.Repo.create now new) = false := by
    rw [Bool.eq_false_iff]
    intro unanswered
    have failed := (isUnanswered_iff.mp unanswered).1
    simp [failedHere, Jobs.Repo.create] at failed
  constructor
  · rw [length_buildFailureStreak, length_buildFailureStreak, same, List.countP_append,
      List.countP_singleton, noFailure]
    rfl
  · intro id isIn
    obtain ⟨other, member, unanswered, rfl⟩ := mem_buildFailureStreak.mp isIn
    exact mem_buildFailureStreak.mpr
      ⟨other, List.mem_append_left _ member, by rw [same]; exact unanswered, rfl⟩

/-- A reset answers every failure of the card. -/
theorem clearBuildLadder_spec (sound : ladder.Sound) {now : Instant}
    (late : ladder.clock < now) :
    (ladder.clearBuildLadder now).buildFailureStreak = [] := by
  apply buildFailureStreak_eq_nil
  intro row member
  rw [Bool.eq_false_iff]
  intro unanswered
  have later := (isUnanswered_iff.mp unanswered).2.1 now rfl
  exact absurd (later.trans_le (sound.stamped row member)) late.le.not_gt

end Jobs

section History

variable {before after : Ladder}

/-- A step that keeps the streak, or adds to it, leaves the history alone. -/
theorem remember_of_kept
    (kept : ∀ id ∈ before.buildFailureStreak, id ∈ after.buildFailureStreak) :
    before.remember after = after :=
  if_pos (List.all_eq_true.mpr fun id isIn => decide_eq_true (kept id isIn))

/-- A streak that is over has been announced as often as it should. -/
theorem announcedOnce_emptied (announced : before.AnnouncedOnce)
    (silent : before.Silent after) (empty : after.buildFailureStreak = []) :
    (before.remember after).AnnouncedOnce := by
  unfold remember
  split
  case isTrue kept =>
      -- the streak was empty before
      have wasEmpty : before.buildFailureStreak = [] := by
        apply List.eq_nil_iff_forall_not_mem.mpr
        intro id isIn
        have stays := List.all_eq_true.mp kept id isIn
        rw [empty] at stays
        cases of_decide_eq_true stays
      have below := announced.below (by rw [wasEmpty]; decide)
      constructor
      · intro reached
        rw [empty] at reached
        exact absurd reached (by decide)
      · intro _
        rw [silent.stops, silent.notices, silent.stopsBefore, silent.noticesBefore]
        exact below
  case isFalse =>
      constructor
      · intro reached
        exact absurd (show maxFailures ≤ after.buildFailureStreak.length from reached)
          (by rw [empty]; decide)
      · exact fun _ => ⟨silent.stops, silent.notices⟩

/-- A silent step that does not reach the stop needs the label where the stop was
reached before. -/
theorem announcedOnce_silent_iff (announced : before.AnnouncedOnce)
    (silent : before.Silent after)
    (sameSide : maxFailures ≤ after.buildFailureStreak.length ↔
      maxFailures ≤ before.buildFailureStreak.length) :
    after.AnnouncedOnce ↔
      (maxFailures ≤ before.buildFailureStreak.length →
        escalationLabel ∈ after.labels) := by
  constructor
  · exact fun held reached => (held.reached (sameSide.mpr reached)).2.2
  · intro labelled
    constructor
    · intro reached
      have wasReached := sameSide.mp reached
      obtain ⟨stops, notices, _⟩ := announced.reached wasReached
      rw [silent.stops, silent.notices, silent.stopsBefore, silent.noticesBefore]
      exact ⟨stops, notices, labelled wasReached⟩
    · intro below
      have wasBelow := not_le.mp (mt sameSide.mpr (not_le.mpr below))
      rw [silent.stops, silent.notices, silent.stopsBefore, silent.noticesBefore]
      exact announced.below wasBelow

/-- The step that reaches the stop needs to announce it. -/
theorem announcedOnce_reaching_iff (announced : before.AnnouncedOnce)
    (below : before.buildFailureStreak.length < maxFailures)
    (reached : maxFailures ≤ after.buildFailureStreak.length)
    (stopsBefore : after.stopsBefore = before.stopsBefore)
    (noticesBefore : after.noticesBefore = before.noticesBefore) :
    after.AnnouncedOnce ↔ before.Announces after := by
  obtain ⟨stops, notices⟩ := announced.below below
  constructor
  · intro held
    obtain ⟨one, oneNotice, labelled⟩ := held.reached reached
    exact ⟨by rw [one, stopsBefore, stops], by rw [oneNotice, noticesBefore, notices],
      labelled⟩
  · rintro ⟨one, oneNotice, labelled⟩
    constructor
    · intro _
      exact ⟨by rw [one, stopsBefore, stops], by rw [oneNotice, noticesBefore, notices],
        labelled⟩
    · intro stillBelow
      exact absurd reached (not_le.mpr stillBelow)

end History

section Steps

variable {columns : List BoardColumn} {key : Option String} {before after : Ladder}
  {event : LadderEvent} {row : LoopJob}

/-- The hook of an ending that does not reach the stop announces nothing. -/
theorem conclude_quiet {hook : Option Hook}
    (tenant : row.targetTaskId = some before.card.id →
      row.tenantId = before.card.tenantId)
    (notStop : before.failedHere row = true →
      before.buildFailureStreak.length ≠ maxFailures) :
    before.Quiet (before.conclude columns key hook row) := by
  cases hook with
  | none => exact Quiet.refl before
  | some hook => exact onRunConcluded_quiet tenant notStop

theorem conclude_spec {hook : Option Hook} (failed : before.failedHere row = true)
    (atStop : before.buildFailureStreak.length = maxFailures) :
    before.SameRuns (before.conclude columns key hook row) ∧
      (before.Announces (before.conclude columns key hook row) ↔
        hook.any (before.climbs columns · row) = true) := by
  cases hook with
  | none =>
      exact ⟨SameRuns.refl before,
        iff_of_false (Quiet.refl before).not_announces Bool.false_ne_true⟩
  | some hook => exact onRunConcluded_spec failed atStop

/-- The write of a run that recorded an outcome ends the streak in silence. -/
theorem conclude_answered (sound : before.Sound) (announced : before.AnnouncedOnce)
    {job : LoopJob} (found : Table.find LoopJob.id before.jobs row.id = some job)
    (late : before.clock < row.updatedAt)
    (tenant : row.targetTaskId = some before.card.id →
      row.tenantId = before.card.tenantId)
    (answered : before.answers row = true) :
    before.failedHere row = false ∧
      (before.remember
        ((before.writeRow row).conclude columns key event.hook row)).AnnouncedOnce := by
  have noFailure : before.failedHere row = false := by
    simp only [answers, Bool.and_eq_true] at answered
    rw [failedHere, Option.isNone_eq_false_iff.mpr answered.2, Bool.and_false]
  have quiet := @conclude_quiet columns key (before.writeRow row) row event.hook tenant
    (fun failed => by
      rw [show (before.writeRow row).failedHere row = false from noFailure] at failed
      cases failed)
  refine ⟨noFailure, announcedOnce_emptied announced ?_ ?_⟩
  · exact ⟨quiet.stops, quiet.notices, quiet.stopsBefore, quiet.noticesBefore⟩
  · rw [quiet.buildFailureStreak]
    exact writeRow_answered sound found late answered

/-- The write of a run that recorded none is announced as it should be exactly
where the failure that reaches the stop climbs. -/
theorem conclude_unanswered_iff (sound : before.Sound)
    (announced : before.AnnouncedOnce) {job : LoopJob}
    (found : Table.find LoopJob.id before.jobs row.id = some job)
    (follows : Follows job row) (late : before.clock < row.updatedAt)
    (tenant : row.targetTaskId = some before.card.id →
      row.tenantId = before.card.tenantId)
    (unanswering : before.answers row = false) :
    (before.remember
        ((before.writeRow row).conclude columns key event.hook row)).AnnouncedOnce ↔
      (before.failedHere row = true →
        before.buildFailureStreak.length + 1 = maxFailures →
          event.hook.any (before.climbs columns · row) = true) := by
  have wrote : before.Silent (before.writeRow row) := ⟨rfl, rfl, rfl, rfl⟩
  obtain ⟨length, kept⟩ := writeRow_unanswered sound found follows late unanswering
  have same : (before.writeRow row).SameRuns
      ((before.writeRow row).conclude columns key event.hook row) →
        before.remember ((before.writeRow row).conclude columns key event.hook row) =
          (before.writeRow row).conclude columns key event.hook row := by
    intro runs
    apply remember_of_kept
    rw [runs.buildFailureStreak]
    exact kept
  by_cases atStop : before.failedHere row = true ∧
      before.buildFailureStreak.length + 1 = maxFailures
  · -- the failure that reaches the stop
    obtain ⟨failed, reaches⟩ := atStop
    rw [failed, if_pos rfl, reaches] at length
    have spec := @conclude_spec columns key (before.writeRow row) row event.hook failed
      length
    have stopAnnounced :
        ((before.writeRow row).conclude columns key event.hook row).AnnouncedOnce ↔
          before.Announces ((before.writeRow row).conclude columns key event.hook row) := by
      apply announcedOnce_reaching_iff announced
      · omega
      · rw [spec.1.buildFailureStreak, length]
      · exact spec.1.stopsBefore
      · exact spec.1.noticesBefore
    rw [same spec.1, stopAnnounced, wrote.announces_iff, spec.2]
    exact ⟨fun climbs _ _ => climbs, fun climbs => climbs failed reaches⟩
  · have quiet := @conclude_quiet columns key (before.writeRow row) row event.hook tenant
      (fun failed reaches => atStop ⟨failed, by
        rw [length, show before.failedHere row = true from failed, if_pos rfl] at reaches
        exact reaches⟩)
    rw [same quiet.toSameRuns,
      announcedOnce_silent_iff announced (wrote.trans quiet.silent)]
    · apply iff_of_true
      · exact fun reached => quiet.labelled (announced.reached reached).2.2
      · exact fun failed reaches => absurd ⟨failed, reaches⟩ atStop
    · rw [quiet.buildFailureStreak, length]
      cases failed : before.failedHere row with
      | false => exact Iff.rfl
      | true =>
          have differs : before.buildFailureStreak.length + 1 ≠ maxFailures :=
            fun reaches => atStop ⟨failed, reaches⟩
          rw [if_pos rfl]
          omega

/-- A write of a job is announced as it should be exactly where the failure that
reaches the stop climbs. -/
theorem writeJob_iff (sound : before.Sound) (announced : before.AnnouncedOnce)
    (late : event.now.all (before.clock < ·) = true) :
    (before.remember (before.writeJob columns key event)).AnnouncedOnce ↔
      ((event.written before.jobs).all fun row =>
        !(before.failedHere row &&
            before.buildFailureStreak.length + 1 = maxFailures) ||
          event.hook.any (before.climbs columns · row)) = true := by
  unfold writeJob
  cases written : event.written before.jobs with
  | none =>
      rw [Option.all_none, eq_self, iff_true, remember_of_kept fun _ isIn => isIn]
      exact announced
  | some row =>
      obtain ⟨job, found, follows, stamp⟩ := written_spec written
      have isLate : before.clock < row.updatedAt := by simpa [stamp] using late
      have tenant : row.targetTaskId = some before.card.id →
          row.tenantId = before.card.tenantId := by
        intro here
        rw [follows.tenantId]
        exact sound.tenant job (Table.find_some found).1 (follows.targetTaskId ▸ here)
      dsimp only
      rw [Option.all_some]
      cases answered : before.answers row with
      | true =>
          obtain ⟨noFailure, held⟩ := @conclude_answered columns key before event row sound
            announced job found isLate tenant answered
          exact iff_of_true held (by rw [noFailure]; rfl)
      | false =>
          rw [conclude_unanswered_iff sound announced found follows isLate tenant answered]
          simp only [Bool.or_eq_true, Bool.not_eq_true', ← Bool.not_eq_true,
            Bool.and_eq_true, decide_eq_true_eq]
          tauto

/-- A write of the card's row leaves the ladder's reset alone. -/
theorem apply_buildLadderClearedAt (write : LeaseWrite) (task : TaskItem) :
    (write.apply columns task).buildLadderClearedAt = task.buildLadderClearedAt := by
  rcases write.apply_cases task with same | ⟨_, result, _⟩
  · rw [same]
  · cases write with
    | createTask => cases result
    | releaseAssignment | assignNodeAndColumn | recordStartedWork | setPrUrl
    | setColumn =>
        rw [← Option.some.inj result]
        rfl
    | updateFields | releaseClaimOf | completeIfInFlight | renewClaim | claimTask =>
        simp only [LeaseWrite.statement, Repo.updateFields, Repo.releaseClaimOf,
          Repo.releaseAssignment, Repo.completeIfInFlight, Repo.renewClaim,
          Repo.claimTask, Option.ite_none_right_eq_some] at result
        rw [← Option.some.inj result.2]
    | reapLapsedClaims =>
        simp only [LeaseWrite.statement, Repo.reapLapsedClaims] at result
        split at result
        · cases result
        · rw [Option.ite_none_right_eq_some] at result
          rw [← Option.some.inj result.2]

/-- A step that says nothing of the stop and keeps the label is as it should
be. -/
theorem announcedOnce_quiet (announced : before.AnnouncedOnce)
    (quiet : before.Quiet after) : (before.remember after).AnnouncedOnce := by
  rw [remember_of_kept fun _ isIn => quiet.buildFailureStreak.symm ▸ isIn,
    announcedOnce_silent_iff announced quiet.silent (by rw [quiet.buildFailureStreak])]
  exact fun reached => quiet.labelled (announced.reached reached).2.2

/-- Taking a label off is as it should be unless it is the ladder's own and the
streak stays at the stop. -/
theorem detachLabel_iff (announced : before.AnnouncedOnce) (name : String) :
    (before.remember (before.detachLabel name)).AnnouncedOnce ↔
      ¬ (name = escalationLabel ∧ maxFailures ≤ before.buildFailureStreak.length) := by
  have same : before.SameRuns (before.detachLabel name) :=
    ⟨rfl, rfl, rfl, rfl, rfl, rfl⟩
  have silent : before.Silent (before.detachLabel name) := ⟨rfl, rfl, rfl, rfl⟩
  rw [remember_of_kept fun _ isIn => same.buildFailureStreak.symm ▸ isIn,
    announcedOnce_silent_iff announced silent (by rw [same.buildFailureStreak])]
  constructor
  · rintro labelled ⟨rfl, reached⟩
    exact (mem_detachLabel.mp (labelled reached)).2 rfl
  · intro allowed reached
    refine mem_detachLabel.mpr ⟨(announced.reached reached).2.2, ?_⟩
    rintro rfl
    exact allowed ⟨rfl, reached⟩

/-- An event is announced as it should be exactly where it is heard. -/
theorem apply_iff (sound : before.Sound) (announced : before.AnnouncedOnce)
    (late : event.now.all (before.clock < ·) = true) :
    (before.remember (before.apply columns key event)).AnnouncedOnce ↔
      before.heard columns event = true := by
  cases event with
  | claimForExecutor | transition | job => exact writeJob_iff sound announced late
  | enqueue now new =>
      apply iff_of_true _ rfl
      unfold apply
      dsimp only
      split
      · exact announcedOnce_quiet announced (Quiet.refl before)
      · split
        · exact announcedOnce_quiet announced (Quiet.refl before)
        · obtain ⟨length, kept⟩ := @enqueue_spec before new now
          have silent : before.Silent
              { before with jobs := before.jobs ++ [Jobs.Repo.create now new] } :=
            ⟨rfl, rfl, rfl, rfl⟩
          rw [remember_of_kept kept,
            announcedOnce_silent_iff announced silent (by rw [length])]
          exact fun reached => (announced.reached reached).2.2
  | task write =>
      apply iff_of_true _ rfl
      have same := @LeaseWrite.apply_same columns write before.card
      exact announcedOnce_quiet announced
        ⟨⟨rfl, same.1, same.2.1, apply_buildLadderClearedAt write before.card, rfl, rfl⟩,
          rfl, rfl, id⟩
  | attachLabel name =>
      exact iff_of_true (announcedOnce_quiet announced (attachLabel_quiet name)) rfl
  | comment body =>
      exact iff_of_true (announcedOnce_quiet announced (comment_quiet rfl)) rfl
  | clearBuildLadder now =>
      apply iff_of_true _ rfl
      exact announcedOnce_emptied announced ⟨rfl, rfl, rfl, rfl⟩
        (clearBuildLadder_spec sound (of_decide_eq_true late))
  | deleteLabel name =>
      apply (detachLabel_iff announced name).trans
      simp [heard, imp_iff_not_or]
  | detachLabel now name clearFails =>
      unfold apply heard
      dsimp only
      split
      case isTrue lifted =>
        simp only [Bool.and_eq_true, Bool.not_eq_true'] at lifted
        have silent : before.Silent ((before.detachLabel name).clearBuildLadder now) :=
          ⟨rfl, rfl, rfl, rfl⟩
        have detached : (before.detachLabel name).Sound :=
          ⟨sound.keyed, sound.stamped, sound.cleared, sound.tenant⟩
        apply iff_of_true
        · apply announcedOnce_emptied announced silent
          exact clearBuildLadder_spec detached (of_decide_eq_true late)
        · simp [lifted.2]
      case isFalse kept =>
        rw [detachLabel_iff announced name]
        by_cases isEscalation : name = escalationLabel
        · have known : name ∈ escalationLabels := by
            rw [isEscalation]
            decide
          by_cases reached : maxFailures ≤ before.buildFailureStreak.length
          · have onCard := (announced.reached reached).2.2
            rw [← isEscalation] at onCard
            have fails : clearFails = true := by simpa [onCard, known] using kept
            simp [isEscalation, reached, fails, isEscalation ▸ onCard]
          · simp [reached]
        · simp [isEscalation]

/-- Writing down the history does not matter. -/
theorem Sound.remember {clock : Instant} (sound : Sound { after with clock }) :
    Sound { before.remember after with clock } := by
  unfold Ladder.remember
  split <;> exact ⟨sound.keyed, sound.stamped, sound.cleared, sound.tenant⟩

theorem Sound.ofSameRuns {clock : Instant} (sound : before.Sound)
    (same : before.SameRuns after) (later : before.clock ≤ clock) :
    Sound { after with clock } where
  keyed := same.jobs ▸ sound.keyed
  stamped := fun row member =>
    (sound.stamped row (same.jobs ▸ member)).trans later
  cleared := fun cleared isCleared =>
    (sound.cleared cleared (same.cleared ▸ isCleared)).trans later
  tenant := fun row member here =>
    (sound.tenant row (same.jobs ▸ member) (here.trans (congrArg some same.id))).trans
      same.tenantId.symm

theorem conclude_sameRuns {hook : Option Hook}
    (tenant : row.targetTaskId = some before.card.id →
      row.tenantId = before.card.tenantId) :
    before.SameRuns (before.conclude columns key hook row) := by
  by_cases atStop : before.failedHere row = true ∧
      before.buildFailureStreak.length = maxFailures
  · exact (conclude_spec atStop.1 atStop.2).1
  · exact (conclude_quiet tenant fun failed reaches =>
      atStop ⟨failed, reaches⟩).toSameRuns

theorem Sound.writeJob {clock : Instant} (sound : before.Sound)
    (isNow : event.now = some clock) (late : before.clock < clock) :
    Sound { before.writeJob columns key event with clock } := by
  unfold Ladder.writeJob
  cases written : event.written before.jobs with
  | none => exact sound.ofSameRuns (SameRuns.refl before) late.le
  | some row =>
      obtain ⟨job, found, follows, stamp⟩ := written_spec written
      have isStamp : row.updatedAt = clock := Option.some.inj (stamp.symm.trans isNow)
      have tenant : row.targetTaskId = some before.card.id →
          row.tenantId = before.card.tenantId := by
        intro here
        rw [follows.tenantId]
        exact sound.tenant job (Table.find_some found).1 (follows.targetTaskId ▸ here)
      have wrote : Sound { before.writeRow row with clock } :=
        { keyed := sound.keyed.update fun _ same => same.symm
          stamped := by
            intro other member
            rcases mem_writeRow member with rfl | wasThere
            · exact isStamp.le
            · exact (sound.stamped other wasThere).trans late.le
          cleared := fun cleared isCleared =>
            (sound.cleared cleared isCleared).trans late.le
          tenant := by
            intro other member here
            rcases mem_writeRow member with rfl | wasThere
            · exact tenant here
            · exact sound.tenant other wasThere here }
      have same : (before.writeRow row).SameRuns
          ((before.writeRow row).conclude columns key event.hook row) :=
        conclude_sameRuns tenant
      exact wrote.ofSameRuns
        ⟨same.jobs, same.id, same.tenantId, same.cleared, same.stopsBefore,
          same.noticesBefore⟩ le_rfl

theorem Sound.clearBuildLadder {now : Instant} (sound : before.Sound)
    (late : before.clock < now) :
    Sound { before.clearBuildLadder now with clock := now } where
  keyed := sound.keyed
  stamped := fun row member => (sound.stamped row member).trans late.le
  cleared := by
    intro cleared isCleared
    rw [← Option.some.inj isCleared]
  tenant := sound.tenant

/-- Every event keeps the ladder sound. -/
theorem Sound.step (sound : before.Sound)
    (taken : before.step columns key event = some after) : after.Sound := by
  unfold Ladder.step at taken
  split at taken
  case isFalse => cases taken
  case isTrue late =>
    cases taken
    apply Sound.remember
    have later : before.clock ≤ event.now.getD before.clock := by
      cases isNow : event.now with
      | none => exact le_rfl
      | some now =>
          rw [isNow] at late
          exact (of_decide_eq_true late).le
    have sameRuns : ∀ other, before.SameRuns other →
        Sound { other with clock := event.now.getD before.clock } :=
      fun other same => sound.ofSameRuns same later
    cases event with
    | claimForExecutor | transition | job =>
        exact sound.writeJob rfl (of_decide_eq_true late)
    | enqueue now new =>
        unfold apply
        dsimp only
        split
        · exact sameRuns before (SameRuns.refl before)
        · rename_i tenant
          split
          · exact sameRuns before (SameRuns.refl before)
          · rename_i fresh
            have isLate : before.clock < now := of_decide_eq_true late
            exact
              { keyed := by
                  apply sound.keyed.insert
                  apply Table.find_none_iff.mpr
                  intro other member same
                  apply fresh
                  exact List.any_eq_true.mpr ⟨other, member, by simp [same]⟩
                stamped := by
                  intro other member
                  rcases List.mem_append.mp member with old | added
                  · exact (sound.stamped other old).trans isLate.le
                  · rw [List.mem_singleton.mp added]
                    exact le_rfl
                cleared := fun cleared isCleared =>
                  (sound.cleared cleared isCleared).trans isLate.le
                tenant := by
                  intro other member here
                  rcases List.mem_append.mp member with old | added
                  · exact sound.tenant other old here
                  · rw [List.mem_singleton.mp added] at here ⊢
                    exact Decidable.not_not.mp fun differs => tenant ⟨here, differs⟩ }
    | task write =>
        have same := @LeaseWrite.apply_same columns write before.card
        exact sameRuns _
          ⟨rfl, same.1, same.2.1, apply_buildLadderClearedAt write before.card, rfl, rfl⟩
    | attachLabel name => exact sameRuns _ (attachLabel_quiet name).toSameRuns
    | deleteLabel | comment => exact sameRuns _ ⟨rfl, rfl, rfl, rfl, rfl, rfl⟩
    | clearBuildLadder now => exact sound.clearBuildLadder (of_decide_eq_true late)
    | detachLabel now name clearFails =>
        unfold apply
        dsimp only
        have detached : (before.detachLabel name).Sound :=
          ⟨sound.keyed, sound.stamped, sound.cleared, sound.tenant⟩
        split
        · exact detached.clearBuildLadder (of_decide_eq_true late)
        · exact detached.ofSameRuns (SameRuns.refl _) later

end Steps

/-- A card before any of its runs. -/
def start (clock : Instant) (card : TaskItem) (labels : List String)
    (comments : List CardComment) : Ladder :=
  { clock
    jobs := []
    card
    labels
    comments
    notifications := []
    stopsBefore := comments.countP (·.isStop)
    noticesBefore := 0 }

/-- In every history of a card's runs, every streak of failures that reaches the
stop has it announced once, with the label on the card while the streak lasts,
and no other is announced, exactly when every event is heard. -/
theorem announced_once_iff {columns : List BoardColumn} {key : Option String}
    {clock : Instant} {card : TaskItem} {labels : List String}
    {comments : List CardComment} {events : List LadderEvent}
    (cleared : ∀ cleared ∈ card.buildLadderClearedAt, cleared ≤ clock) :
    Along (step columns key) (fun _ _ after => after.AnnouncedOnce)
        (start clock card labels comments) events ↔
      Along (step columns key) (fun before event _ => before.heard columns event = true)
        (start clock card labels comments) events := by
  apply along_iff_of_invariant (fun ladder => ladder.Sound ∧ ladder.AnnouncedOnce)
  · intro before event after invariant taken announced
    exact ⟨invariant.1.step taken, announced⟩
  · intro before event after invariant taken
    unfold step at taken
    split at taken
    case isFalse => cases taken
    case isTrue late =>
      cases taken
      rw [← @apply_iff columns key before event invariant.1 invariant.2 late]
      exact ⟨fun held => ⟨held.reached, held.below⟩, fun held => ⟨held.reached, held.below⟩⟩
  · have noRuns : (start clock card labels comments).buildFailureStreak = [] :=
      buildFailureStreak_eq_nil (List.forall_mem_nil _)
    refine ⟨⟨Table.keyed_nil, List.forall_mem_nil _, cleared, List.forall_mem_nil _⟩, ?_, ?_⟩
    · intro reached
      rw [noRuns] at reached
      exact absurd reached (by decide)
    · exact fun _ => ⟨rfl, rfl⟩

/-- A hook none of whose calls fails, on a run that said nothing. -/
def plainHook : Hook := { transcript := none, fails := fun _ => false }

/-- The loop claims the card for a build, and places it. -/
def raised (now : Instant) (id : JobId) : List LadderEvent :=
  [.task (.claimTask 1 1 now 7 (some 2) (some 14400)),
    .enqueue now
      { id
        tenant := 1
        kind := .build
        targetTaskId := some 1
        workspaceId := some 1
        requestedBy := 7
        seed := none
        predecessorJobId := none
        reviewPrNumber := none
        reviewHeadSha := none
        reviewForced := false
        buildFingerprint := some "1" },
    .claimForExecutor (now + 1) id 1]

/-- The build fails while the loop holds the card. -/
def failure (now : Instant) (id : JobId) : List LadderEvent :=
  raised now id ++ [.transition (now + 2) id .failed plainHook]

/-- A card in To-Do that was never built. -/
def unbuilt : Ladder :=
  start 0
    (Repo.createTask 0 1 1
      { tenant := 1, board := 1, columnId := 1, title := "card", createdBy := some 7 })
    [] []

/-- A person takes the card over while its third build runs, which fails, and
gives it back: the fourth failure is not the third, and nobody is told. -/
def takenOver : List LadderEvent :=
  failure 10 1 ++ failure 20 2 ++ raised 30 3 ++
    [.task (.updateFields 1 1 32 { assigneeUserId := some 9 }),
      .transition 33 3 .failed plainHook,
      .task (.releaseAssignment 1 1 34)] ++
    failure 40 4

theorem stop_skipped :
    (∃ ladder, run (step threeColumns none) unbuilt takenOver = some ladder ∧
      ladder.buildFailureStreak = [4, 3, 2, 1] ∧ ladder.stops = 0 ∧ ladder.notices = 0) ∧
    ¬ Along (step threeColumns none) (fun _ _ after => after.AnnouncedOnce) unbuilt
        takenOver := by
  constructor
  · exact ⟨_, rfl, by decide⟩
  · decide

/-- Three failures, a reset by hand, and a run reaped with its outcome. -/
theorem announced_once_iff_thrice :
    Along (step threeColumns none) (fun _ _ after => after.AnnouncedOnce) unbuilt
      (failure 10 1 ++ failure 20 2 ++ failure 30 3 ++
        [.detachLabel 40 escalationLabel false] ++ failure 50 4 ++ raised 60 5 ++
        [.job 5 (.setBuildOutcome 63 .blocked) plainHook,
          .job 5 (.reapStaleExecutors 90000000 60 fun _ => some 0) plainHook]) :=
  (announced_once_iff (by decide)).mpr (by decide)

end Ladder

end NookOs.Tasks
