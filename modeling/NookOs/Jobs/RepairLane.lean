/-
Module: NookOs.Jobs.RepairLane
Purpose: A pull request that conflicts and has been routed to the repair queue,
  and exactly when its card is owed a repair once its hold has passed.
Trusted boundary: none
Main exports: buildWork, RepairOwed, Answerable, repair_owed_iff
-/
import NookOs.Jobs.Ceiling
import NookOs.Jobs.Hygiene

namespace NookOs.Jobs

open Lib

/-!
The pass that routes the pull request and the pass that picks the repair up are
two moments of one history.  Anything may happen in between but a newer verdict
on the pull request.
-/

section Setting

variable (tenant : TenantId) (workspace : WorkspaceId)

/-- The source a build pass reads a workspace's ledger into. -/
def buildWork (board : Board) (uuidV5 : String → String) (rows : List LoopJob) :
    BuildWork :=
  { board
    uuidV5
    rejectedHeads := rejectedReviewHeads tenant workspace rows
    conflicts := outstandingConflicts tenant workspace rows }

/-- A row that says something about a pull request. -/
def speaksOf (pr : Int) (row : LoopJob) : Bool :=
  row.workspaceId = some workspace && row.kind = .review &&
    row.reviewPrNumber = some pr && row.reviewVerdict.isSome

/-- No verdict on the pull request is newer than the first ledger's. -/
def Quiet (pr : Int) (before after : List LoopJob) : Prop :=
  ∀ row ∈ after, speaksOf workspace pr row →
    ∃ earlier ∈ before, speaksOf workspace pr earlier ∧
      earlier.fixed = row.fixed ∧ earlier.reviewVerdict = row.reviewVerdict

/-- The card waits in the repair lane for a listed pull request that is still at
the head and labelled. -/
structure Waiting (board : Board) (prs : List PullRequest) (task : TaskId)
    (card : Card) (number : Nat) (pr : PullRequest) (head : String) : Prop where
  onBoard : board task = some card
  joined : card.prUrl.bind prNumberOf = some number
  listed : prs.find? (·.number = number) = some pr
  unmoved : pr.headSha = head
  labelled : "loop-changes-requested" ∈ pr.labels

/-- The hold since the newest conclusion filed at a key has passed. -/
def HoldPassed (heads : List RunHeads) (key : Int) (now : Instant) : Prop :=
  ∀ head ∈ Table.find RunHeads.itemKey heads key,
    (∀ done ∈ head.doneAt, done + backoffFor head.failureStreak ≤ now) ∧
      ∀ attempted ∈ head.attemptedAt,
        attempted + backoffFor head.failureStreak ≤ now

instance (heads : List RunHeads) (key : Int) (now : Instant) :
    Decidable (HoldPassed heads key now) :=
  inferInstanceAs (Decidable (∀ _ ∈ _, _))

variable (board : Board) (uuidV5 : String → String)

/-- Once the hold has passed, a pass over the repair lane owes the card its
repair, under every ceiling that has room. -/
def RepairOwed (lane : List TaskId) (prs : List PullRequest) (task : TaskId)
    (card : Card) (rows : List LoopJob) : Prop :=
  let work := buildWork tenant workspace board uuidV5 rows
  let items := work.repairItems lane (some prs)
  let heads := buildRunHeads tenant workspace board rows
  ∀ now, HoldPassed heads (-card.number) now →
    ∀ ceiling, liveHeads heads + items.length ≤ ceiling →
      ∃ item ∈ (owed items heads ceiling now).1,
        item.targetTaskId = some task ∧ item.key = -card.number

/-- No live run is filed at the card's repair key, and its last repair there
does not speak for it: the head had not been rejected when the conflict was
found, or the conflict is the newest verdict still, or the repair answered
another rejection, or a person has ruled since. -/
def Answerable (card : Card) (number : Nat) (head : String)
    (before rows : List LoopJob) : Prop :=
  let work := buildWork tenant workspace board uuidV5 rows
  let heads := buildRunHeads tenant workspace board rows
  (-card.number ∉ liveKeys heads) ∧
    (before.any (rejectsAt tenant workspace (asI64 number) head) = false ∨
      work.conflictedHead (asI64 number) = some head ∨
      ∀ entry ∈ Table.find RunHeads.itemKey heads (-card.number),
        ∀ rejected ∈ work.rejectedHead (asI64 number),
          entry.doneHead = some (repairFingerprint rejected.reviewHeadSha) →
            ∃ unblocked ∈ card.unblockedAt, ∃ done ∈ entry.doneAt,
              done < unblocked)

end Setting

section Healed

variable {tenant : TenantId} {workspace : WorkspaceId} {requestedBy : UserId}
  {now : Instant} {forge : Forge} {healing : Healing} {number : Nat}
  {head : String}

theorem announce_store (pr : Nat) (repair : Repair) (healing : Healing) :
    (announce forge pr repair healing).store = healing.store := by
  unfold announce
  split
  · rfl
  · dsimp only
    split
    · rfl
    · split <;> rfl

/-- Where the forge reports a conflict, an inspection records a conflict
rejection, or finds the head rejected. -/
theorem healAction_conflict (conflicts : forge.mergeable number = some (some false)) :
    (healAction tenant workspace requestedBy now forge healing
      (.inspect number head)).store =
        (healing.store.recordControlPlaneRejection tenant now requestedBy
          ⟨workspace, asI64 number, head⟩ (.conflict number head)).1 := by
  simp [healAction, conflicts, diagnose, announce_store]

/-- No index refuses a rejection at a head that nothing rejects: whatever stands
there without a run is a rejection. -/
theorem insert_rejection_isSome {store : JobStore}
    (kept : JobStore.Kept tenant store) {target : PrHead} {id : JobId}
    {seed : String} {source : VerdictSource}
    (unrejected : store.ledger.rows.any
      (rejectsAt tenant target.workspace target.pr target.head) = false) :
    ∃ ledger, store.ledger.insert
      (rejectionRow now id tenant target requestedBy seed source) = some ledger := by
  apply Option.isSome_iff_exists.mp
  apply Option.isSome_iff_ne_none.mpr
  intro refused
  obtain ⟨other, inRows, clashes⟩ := Ledger.insert_none refused
  have silent := List.any_eq_false.mp unrejected other inRows
  obtain ⟨entry, member, rfl⟩ := List.mem_map.mp inRows
  simp only [clash, sameLivePr, sameLiveBuild, rejectionRow, isLive,
    Option.isSome_some, Option.isSome_none, Bool.and_false, Bool.false_and,
    Bool.true_and, Bool.false_or, sameSourcedHead, Bool.and_eq_true,
    reduceCtorEq, decide_false] at clashes
  obtain ⟨⟨⟨hasSource, workspaceSame⟩, prSame⟩, headSame⟩ := clashes
  obtain ⟨_, verdict, kind, _⟩ := kept.sourced.finished entry member
    (Option.isSome_iff_ne_none.mp hasSource.1.1.1)
  apply silent
  simp only [rejectsAt, Bool.and_eq_true, decide_eq_true_eq]
  exact ⟨⟨⟨⟨⟨kept.tenanted inRows, (of_decide_eq_true workspaceSame).symm⟩, kind⟩,
    (of_decide_eq_true prSame).symm⟩, (of_decide_eq_true headSame).symm⟩, verdict⟩

/-- What an inspection of a conflicting pull request leaves: a rejection at its
head, and where it made that itself, a conflict that is the last row. -/
theorem healed (kept : JobStore.Kept tenant healing.store)
    (onward : healing.store.clock ≤ now)
    (conflicts : forge.mergeable number = some (some false)) {after : JobStore}
    (isAfter : (healAction tenant workspace requestedBy now forge healing
      (.inspect number head)).store = after) :
    JobStore.Kept tenant after ∧
      (∃ row ∈ after.ledger.rows,
        rejectsAt tenant workspace (asI64 number) head row = true) ∧
      (healing.store.ledger.rows.any
          (rejectsAt tenant workspace (asI64 number) head) = false →
        ∃ row ∈ after.ledger.rows, row.reviewVerdictSource = some .conflict ∧
          rejectsAt tenant workspace (asI64 number) head row = true ∧
          ∀ other ∈ after.ledger.rows, other.id ≤ row.id) := by
  rw [healAction_conflict conflicts] at isAfter
  unfold JobStore.recordControlPlaneRejection at isAfter
  split at isAfter
  · rename_i rejected
    subst isAfter
    refine ⟨kept, List.any_eq_true.mp rejected, fun unrejected => ?_⟩
    rw [rejected] at unrejected
    contradiction
  · rename_i unrejected
    let recorded := rejectionRow now healing.store.nextId tenant
      ⟨workspace, asI64 number, head⟩ requestedBy (Repair.conflict number head).seed
      .conflict
    have accepted : ∃ ledger,
        healing.store.ledger.insert recorded = some ledger :=
      insert_rejection_isSome kept (Bool.not_eq_true _ ▸ unrejected)
    obtain ⟨ledger, stored⟩ := accepted
    let target : PrHead := ⟨workspace, asI64 number, head⟩
    have inserted : healing.store.insert now (fun id => rejectionRow now id tenant
        target requestedBy (Repair.conflict number head).seed .conflict) =
        some ⟨ledger, now, healing.store.nextId + 1⟩ := by
      simp only [JobStore.insert, Option.map_eq_some_iff]
      exact ⟨ledger, stored, rfl⟩
    rw [show (Repair.conflict number head).source = .conflict from rfl,
      inserted] at isAfter
    subst isAfter
    have keptAfter := kept.insert onward
      ⟨rfl, rfl, rfl, rfl, fun _ => ⟨rfl, rfl, rfl⟩⟩ inserted
    have appended := (Ledger.insert_some stored).1
    have isLast : recorded ∈ Ledger.rows ledger := by
      rw [appended]
      simp [Ledger.rows, Lifecycle.idle]
    have rejects : rejectsAt tenant workspace (asI64 number) head recorded = true := by
      simp [rejectsAt, recorded, rejectionRow]
    refine ⟨keptAfter, ⟨recorded, isLast, rejects⟩, fun _ => ?_⟩
    refine ⟨recorded, isLast, rfl, rejects, ?_⟩
    intro other member
    obtain ⟨entry, inLedger, rfl⟩ := List.mem_map.mp member
    exact Nat.le_of_lt_succ (keptAfter.ordered.issued entry.row.fixed
      (Ledger.mem_fixed.mpr ⟨entry, inLedger, rfl⟩)).1

end Healed

section Later

variable {tenant : TenantId} {workspace : WorkspaceId} {store : JobStore}
  {board : Board} {uuidV5 : String → String} {pr : Int} {head : String}

/-- Rows that agree on their fixed columns and their verdict reject the same
heads. -/
theorem rejectsAt_congr {first second : LoopJob}
    (sameFixed : first.fixed = second.fixed)
    (sameVerdict : first.reviewVerdict = second.reviewVerdict) :
    rejectsAt tenant workspace pr head first =
      rejectsAt tenant workspace pr head second := by
  simp only [LoopJob.fixed, LoopJob.mk.injEq] at sameFixed
  simp only [rejectsAt, sameFixed, sameVerdict]

/-- A rejection stays for as long as nothing newer is said. -/
theorem rejection_stays {before : JobStore} (kept : JobStore.Kept tenant before)
    (persists : JobStore.Persists before.ledger.rows store.ledger.rows)
    (quiet : Quiet workspace pr before.ledger.rows store.ledger.rows)
    {row : LoopJob} (member : row ∈ before.ledger.rows)
    (rejects : rejectsAt tenant workspace pr head row = true) :
    ∃ later ∈ store.ledger.rows, later.fixed = row.fixed ∧
      rejectsAt tenant workspace pr head later = true := by
  have parts := rejects
  simp only [rejectsAt, Bool.and_eq_true, decide_eq_true_eq] at parts
  obtain ⟨⟨⟨⟨⟨_, atWorkspace⟩, isReview⟩, ofPr⟩, _⟩, verdict⟩ := parts
  obtain ⟨later, laterIn, sameFixed, keeps⟩ := persists row member
  have recorded : later.reviewVerdict ≠ none := keeps (by simp [verdict])
  have speaks : speaksOf workspace pr later = true := by
    have columns := sameFixed
    simp only [LoopJob.fixed, LoopJob.mk.injEq] at columns
    simp [speaksOf, columns, atWorkspace, isReview, ofPr,
      Option.isSome_iff_ne_none.mpr recorded]
  obtain ⟨earlier, earlierIn, _, sameEarlier, sameVerdict⟩ :=
    quiet later laterIn speaks
  have sameId := congrArg LoopJob.id (sameEarlier.trans sameFixed)
  have one := kept.eq_of_id earlierIn member sameId
  subst one
  refine ⟨later, laterIn, sameFixed, ?_⟩
  rw [rejectsAt_congr sameFixed sameVerdict.symm]
  exact rejects

/-- A pull request that has been rejected at some head has a rejected head. -/
theorem rejectedHead_isSome (kept : JobStore.Kept tenant store) {row : LoopJob}
    (member : row ∈ store.ledger.rows)
    (rejects : rejectsAt tenant workspace pr head row = true) :
    ∃ rejected, (buildWork tenant workspace board uuidV5
      store.ledger.rows).rejectedHead pr = some rejected := by
  simp only [rejectsAt, Bool.and_eq_true, decide_eq_true_eq] at rejects
  obtain ⟨⟨⟨⟨⟨_, atWorkspace⟩, isReview⟩, ofPr⟩, _⟩, verdict⟩ := rejects
  let rejections := store.ledger.rows.filter fun other =>
    other.workspaceId = some workspace && other.kind = .review &&
      other.reviewPrNumber = some pr &&
      other.reviewVerdict = some .changesRequested
  have among : row ∈ rejections := List.mem_filter.mpr
    ⟨member, by simp [atWorkspace, isReview, ofPr, verdict]⟩
  obtain ⟨latest, isNewest⟩ := newest_isSome_of_mem among
  obtain ⟨latestIn, latestRejects⟩ := List.mem_filter.mp (newest_some isNewest).1
  simp only [Bool.and_eq_true, decide_eq_true_eq] at latestRejects
  obtain ⟨⟨⟨latestAt, latestReview⟩, latestPr⟩, latestVerdict⟩ := latestRejects
  have headed : latest.reviewHeadSha.isSome = true := by
    rw [← kept.directed_row latestIn, latestPr]
    rfl
  obtain ⟨latestHead, isHead⟩ := Option.isSome_iff_exists.mp headed
  apply Option.isSome_iff_exists.mp
  simp only [BuildWork.rejectedHead, buildWork, List.find?_isSome,
    List.mem_reverse, decide_eq_true_eq]
  refine ⟨⟨pr, latestHead, latest.reviewVerdictSource⟩,
    List.mem_filterMap.mpr ⟨latest, latestIn, ?_⟩, rfl⟩
  simp only [latestPr, isHead]
  exact if_pos ⟨kept.tenanted latestIn, latestAt, latestReview, latestVerdict,
    congrArg (Option.map (·.id)) isNewest⟩

/-- A conflict nothing has been said after stands at its head. -/
theorem conflictedHead_of_last (kept : JobStore.Kept tenant store) {row : LoopJob}
    (member : row ∈ store.ledger.rows)
    (isConflict : row.reviewVerdictSource = some .conflict)
    (rejects : rejectsAt tenant workspace pr head row = true)
    (last : ∀ other ∈ store.ledger.rows, speaksOf workspace pr other →
      other.id ≤ row.id) :
    (buildWork tenant workspace board uuidV5
      store.ledger.rows).conflictedHead pr = some head := by
  simp only [rejectsAt, Bool.and_eq_true, decide_eq_true_eq] at rejects
  obtain ⟨⟨⟨⟨⟨tenanted, atWorkspace⟩, isReview⟩, ofPr⟩, atHead⟩, verdict⟩ := rejects
  have isNewest : newest (store.ledger.rows.filter (speaksOf workspace pr)) =
      some row := by
    apply kept.newest_eq fun _ inFiltered => List.mem_of_mem_filter inFiltered
    · exact List.mem_filter.mpr
        ⟨member, by simp [speaksOf, atWorkspace, isReview, ofPr, verdict]⟩
    · intro other inFiltered
      obtain ⟨inRows, speaks⟩ := List.mem_filter.mp inFiltered
      exact last other inRows speaks
  have only : ∀ entry ∈ outstandingConflicts tenant workspace store.ledger.rows,
      entry.reviewPrNumber = pr → entry = ⟨pr, head⟩ := by
    intro entry isEntry samePr
    obtain ⟨other, otherIn, isOther⟩ := List.mem_filterMap.mp isEntry
    split at isOther
    · rename_i otherPr otherHead hasPr hasHead
      obtain ⟨⟨_, _, _, _, isLatest⟩, same⟩ :=
        Option.ite_none_right_eq_some.mp isOther
      cases same
      subst samePr
      have sameId : row.id = other.id := by
        have latest : (newest (store.ledger.rows.filter
            (speaksOf workspace otherPr))).map (·.id) = some other.id := isLatest
        rw [isNewest, Option.map_some, Option.some.injEq] at latest
        exact latest
      have one := kept.eq_of_id member otherIn sameId
      subst one
      rw [atHead, Option.some.injEq] at hasHead
      rw [hasHead]
    · contradiction
  have present : ⟨pr, head⟩ ∈
      outstandingConflicts tenant workspace store.ledger.rows := by
    refine List.mem_filterMap.mpr ⟨row, member, ?_⟩
    simp only [ofPr, atHead]
    exact if_pos ⟨tenanted, atWorkspace, isReview, isConflict,
      congrArg (Option.map (·.id)) isNewest⟩
  have found : ((outstandingConflicts tenant workspace
      store.ledger.rows).reverse.find? (·.reviewPrNumber = pr)).isSome = true := by
    rw [List.find?_isSome]
    exact ⟨⟨pr, head⟩, List.mem_reverse.mpr present, by simp⟩
  obtain ⟨entry, isFound⟩ := Option.isSome_iff_exists.mp found
  have same := only entry
    (List.mem_reverse.mp (List.mem_of_find?_eq_some isFound))
    (by simpa using List.find?_some isFound)
  simp only [BuildWork.conflictedHead, buildWork, isFound, Option.map_some, same]

end Later

section Wakeup

variable {heads : List RunHeads} {item : WorkItem} {now : Instant}

/-- Every hold passes. -/
theorem exists_holdPassed (heads : List RunHeads) (key : Int) :
    ∃ now, HoldPassed heads key now := by
  cases found : Table.find RunHeads.itemKey heads key with
  | none => exact ⟨0, by simp [HoldPassed, found]⟩
  | some head =>
      let hold := backoffFor head.failureStreak
      refine ⟨max (head.doneAt.getD 0 + hold) (head.attemptedAt.getD 0 + hold), ?_⟩
      intro other isFound
      cases found.symm.trans isFound
      constructor
      · intro done isDone
        rw [Option.mem_def.mp isDone]
        exact Int.le_max_left _ _
      · intro attempted isAttempted
        rw [Option.mem_def.mp isAttempted]
        exact Int.le_max_right _ _

/-- A ruling overrules a conclusion that came before it. -/
theorem overruled_iff {head : RunHeads} :
    overruled item head = true ↔
      ∃ unblocked ∈ item.unblockedAt, ∃ done ∈ head.doneAt, done < unblocked := by
  unfold overruled
  cases item.unblockedAt <;> cases head.doneAt <;> simp

/-- Once its hold has passed, an item is owed a run when none is in flight at its
key and the last one there does not speak for it. -/
theorem owes_iff_of_holdPassed (unique : Table.Keyed RunHeads.itemKey heads)
    (passed : HoldPassed heads item.key now) :
    owes heads now item = true ↔
      item.key ∉ liveKeys heads ∧
        (item.conflictBase.isSome = true ∨
          ∀ entry ∈ Table.find RunHeads.itemKey heads item.key,
            entry.doneHead = some item.fingerprint →
              overruled item entry = true) := by
  by_cases live : item.key ∈ liveKeys heads
  · simp [owes_of_mem_liveKeys unique live, live]
  · rw [owes_iff_of_notMem unique live]
    simp only [live, not_false_eq_true, true_and]
    cases found : Table.find RunHeads.itemKey heads item.key with
    | none => simp [AtRest, found]
    | some entry =>
        have unheld : held item entry now = false := by
          cases isAttempted : entry.attemptedAt with
          | none => simp [held, isAttempted]
          | some attempted =>
              have elapsed := (passed entry found).2 attempted isAttempted
              have late : ¬ now - attempted < backoffFor entry.failureStreak :=
                Int.not_lt.mpr (Int.le_sub_left_of_add_le elapsed)
              simp [held, isAttempted, late]
        have rebased : rebaseOwed item entry now = item.conflictBase.isSome := by
          cases isDone : entry.doneAt with
          | none => simp [rebaseOwed, isDone]
          | some done =>
              have elapsed := (passed entry found).1 done isDone
              have late : backoffFor entry.failureStreak ≤ now - done :=
                Int.le_sub_left_of_add_le elapsed
              simp [rebaseOwed, isDone, late]
        simp only [AtRest, found, Option.mem_def, Option.some.injEq,
          exists_eq_left', forall_eq', unheld, spent, rebased,
          Bool.false_eq_true, or_false, Bool.and_eq_true, decide_eq_true_eq,
          Bool.not_eq_true', not_and, Bool.not_eq_false]
        constructor
        · intro restless
          cases conflicts : item.conflictBase.isSome with
          | true => exact .inl rfl
          | false =>
              right
              intro isDone
              by_contra kept
              have rests := restless ⟨isDone, Bool.eq_false_iff.mpr kept⟩
              rw [conflicts] at rests
              contradiction
        · rintro (conflicts | answered) ⟨isDone, kept⟩
          · exact conflicts
          · rw [answered isDone] at kept
            contradiction

end Wakeup

section Exactness

variable {work : BuildWork} {prs : List PullRequest} {task : TaskId}
  {card : Card} {number : Nat} {pr : PullRequest} {head : String}

/-- The item of a card that waits in the lane. -/
theorem repairItem_of_waiting
    (waiting : Waiting work.board prs task card number pr head)
    {rejected : RejectedHead}
    (isRejected : work.rejectedHead (asI64 number) = some rejected) :
    ∃ item, work.repairItem prs task = some item ∧
      item.key = -card.number ∧ item.targetTaskId = some task ∧
      item.fingerprint = repairFingerprint rejected.reviewHeadSha ∧
      item.unblockedAt = card.unblockedAt ∧
      (item.conflictBase.isSome = true ↔
        work.conflictedHead (asI64 number) = some head) := by
  obtain ⟨prUrl, hasUrl, isNumber⟩ := Option.bind_eq_some_iff.mp waiting.joined
  simp only [BuildWork.repairItem, waiting.onBoard, hasUrl, isNumber,
    waiting.listed, isRejected, Option.bind_eq_bind, Option.bind_some,
    waiting.labelled, not_true_eq_false, if_false, waiting.unmoved]
  refine ⟨_, rfl, rfl, rfl, rfl, rfl, ?_⟩
  cases work.conflictedHead (asI64 number) with
  | none => simp
  | some other =>
      by_cases same : other = head <;> simp [same]

/-- An item of the lane that targets a card is the card's. -/
theorem eq_of_mem_repairItems {lane : List TaskId} {item other : WorkItem}
    (isItem : work.repairItem prs task = some item)
    (member : other ∈ work.repairItems lane (some prs))
    (target : other.targetTaskId = some task) : other = item := by
  obtain ⟨otherTask, _, isOther⟩ := List.mem_filterMap.mp member
  have sameTask : otherTask = task := by
    have targets := isOther
    simp only [BuildWork.repairItem, Option.bind_eq_bind,
      Option.bind_eq_some_iff, Option.ite_none_left_eq_some,
      Option.some.injEq] at targets
    obtain ⟨_, _, _, _, _, _, _, _, _, _, _, rfl⟩ := targets
    exact Option.some.inj target
  subst sameTask
  exact Option.some.inj (isOther.symm.trans isItem)

end Exactness

/-- A conflicting pull request's repair is owed once its hold has passed, at any
later moment at which its head has not moved and nothing newer has been said
about it, exactly when its card is answerable. -/
theorem repair_owed_iff (tenant : TenantId) (workspace : WorkspaceId)
    (requestedBy : UserId) (board : Board) (uuidV5 : String → String)
    (forge : Forge) (now : Instant) (steps more : List JobStore.Step)
    (healing : Healing) (later : JobStore) (lane : List TaskId)
    (prs : List PullRequest) (task : TaskId) (card : Card) (number : Nat)
    (pr : PullRequest) (head : String)
    (ran : run (JobStore.step tenant) JobStore.empty steps = some healing.store)
    (onward : healing.store.clock ≤ now)
    (conflicts : forge.mergeable number = some (some false))
    (ranOn : run (JobStore.step tenant)
      (healAction tenant workspace requestedBy now forge healing
        (.inspect number head)).store more = some later)
    (quiet : Quiet workspace (asI64 number)
      (healAction tenant workspace requestedBy now forge healing
        (.inspect number head)).store.ledger.rows later.ledger.rows)
    (inLane : task ∈ lane)
    (waiting : Waiting board prs task card number pr head) :
    RepairOwed tenant workspace board uuidV5 lane prs task card
        later.ledger.rows ↔
      Answerable tenant workspace board uuidV5 card number head
        healing.store.ledger.rows later.ledger.rows := by
  obtain ⟨keptHealed, ⟨rejection, rejectionIn, rejects⟩, fresh⟩ :=
    healed (JobStore.kept_run ran) onward conflicts rfl
  obtain ⟨kept, persists⟩ := JobStore.persists_run keptHealed ranOn
  let work := buildWork tenant workspace board uuidV5 later.ledger.rows
  let heads := buildRunHeads tenant workspace board later.ledger.rows
  -- the rejection the pass left is still there, so the card has an item
  obtain ⟨standing, standingIn, _, stillRejects⟩ :=
    rejection_stays keptHealed persists quiet rejectionIn rejects
  have hasRejected : ∃ rejected,
      work.rejectedHead (asI64 number) = some rejected :=
    rejectedHead_isSome kept standingIn stillRejects
  obtain ⟨rejected, isRejected⟩ := hasRejected
  have waits : Waiting work.board prs task card number pr head := waiting
  obtain ⟨item, isItem, itemKey, itemTarget, fingerprint, unblocked, conflicted⟩ :=
    repairItem_of_waiting waits isRejected
  have member : item ∈ work.repairItems lane (some prs) :=
    List.mem_filterMap.mpr ⟨task, inLane, isItem⟩
  have unique : Table.Keyed RunHeads.itemKey heads :=
    (buildRunHeads_live tenant workspace board later.ledger.rows).1
  -- a conflict the pass recorded itself is the newest verdict still
  have outstanding : healing.store.ledger.rows.any
      (rejectsAt tenant workspace (asI64 number) head) = false →
        work.conflictedHead (asI64 number) = some head := by
    intro unrejected
    obtain ⟨conflict, conflictIn, isConflict, conflictRejects, last⟩ :=
      fresh unrejected
    obtain ⟨now, nowIn, sameFixed, nowRejects⟩ :=
      rejection_stays keptHealed persists quiet conflictIn conflictRejects
    have sameSource := congrArg LoopJob.reviewVerdictSource sameFixed
    have sameId := congrArg LoopJob.id sameFixed
    apply conflictedHead_of_last kept nowIn (sameSource.trans isConflict) nowRejects
    intro other otherIn speaks
    obtain ⟨earlier, earlierIn, _, sameEarlier, _⟩ := quiet other otherIn speaks
    have earlierId := congrArg LoopJob.id sameEarlier
    exact Nat.le_trans (Nat.le_of_eq earlierId.symm)
      (Nat.le_trans (last earlier earlierIn) (Nat.le_of_eq sameId.symm))
  have owesIff : ∀ at_, HoldPassed heads (-card.number) at_ →
      (owes heads at_ item = true ↔
        Answerable tenant workspace board uuidV5 card number head
          healing.store.ledger.rows later.ledger.rows) := by
    intro instant passed
    rw [owes_iff_of_holdPassed unique (itemKey ▸ passed), itemKey, conflicted]
    refine and_congr_right fun _ => ?_
    constructor
    · rintro (stands | answered)
      · exact .inr (.inl stands)
      · refine .inr (.inr ?_)
        intro entry found other isOther isDone
        cases isRejected.symm.trans isOther
        rw [← unblocked]
        exact overruled_iff.mp (answered entry found (fingerprint ▸ isDone))
    · rintro (unrejected | stands | answered)
      · exact .inl (outstanding unrejected)
      · exact .inl stands
      · right
        intro entry found isDone
        rw [overruled_iff, unblocked]
        exact answered entry found rejected isRejected (fingerprint ▸ isDone)
  constructor
  · intro isOwed
    obtain ⟨instant, passed⟩ := exists_holdPassed heads (-card.number)
    obtain ⟨other, otherOwed, target, _⟩ := isOwed instant passed _ (Nat.le_refl _)
    obtain ⟨otherIn, owesOther⟩ := mem_owed_iff.mp ⟨_, otherOwed⟩
    rw [eq_of_mem_repairItems isItem otherIn target] at owesOther
    exact (owesIff instant passed).mp owesOther
  · intro answerable instant passed ceiling room
    refine ⟨item, ?_, itemTarget, itemKey⟩
    have owesItem := (owesIff instant passed).mpr answerable
    have inOwed : item ∈ ((work.repairItems lane (some prs)).filter
        (owes heads instant)).insertionSort (·.key ≤ ·.key) :=
      (List.mem_insertionSort _).mpr (List.mem_filter.mpr ⟨member, owesItem⟩)
    rw [owed, List.take_of_length_le]
    · exact inOwed
    · rw [List.length_insertionSort]
      exact Nat.le_trans (List.length_filter_le _ _) (Nat.le_sub_of_add_le' room)

section Runs

/-- A forge that reports the pull request conflicting and takes every write. -/
def conflictForge : Forge :=
  { mergeable := fun _ => some (some false)
    queueEjection := fun _ => some none
    issueCommentBodies := fun _ => some []
    comment := fun _ _ => true
    setVerdictLabel := fun _ _ => true }

/-- A card in review whose pull request is number 12. -/
def parkedCard : Card :=
  { number := 7, key := some "MAIN-7", title := "Add a thing", description := none
    workspaceId := some 3
    prUrl := some "https://github.com/nook-os/nook-os/pull/12"
    unblockedAt := none, buildLadderClearedAt := none }

/-- Its board. -/
def parkedBoard : Board := fun task => if task = 7 then some parkedCard else none

/-- The pull request as the repair lane lists it. -/
def labelledPr : PullRequest := ⟨12, "abc", "main", ["loop-changes-requested"]⟩

theorem parked_waiting :
    Waiting parkedBoard [labelledPr] 7 parkedCard 12 labelledPr "abc" := by
  constructor <;> decide

/-- Nothing was ever said about the pull request: the pass records the conflict
itself, and the card is owed its repair. -/
theorem repair_owed_iff_recorded :
    RepairOwed 1 3 parkedBoard oneCard.uuidV5 [7] [labelledPr] 7 parkedCard
      (healAction 1 3 2 5 conflictForge ⟨JobStore.empty, 0, 0, 0, []⟩
        (.inspect 12 "abc")).store.ledger.rows :=
  (repair_owed_iff 1 3 2 parkedBoard oneCard.uuidV5 conflictForge 5 [] []
    ⟨JobStore.empty, 0, 0, 0, []⟩ _ [7] [labelledPr] 7 parkedCard 12 labelledPr "abc"
    rfl (by decide) rfl rfl
    (fun row member speaks => ⟨row, member, speaks, rfl, rfl⟩) (by decide)
    parked_waiting).mpr ⟨by decide, .inl (by decide)⟩

/-- The lifecycle of a run that is placed and started, says something, and
completes. -/
def concludes (id : JobId) (now : Instant) (said : LifecycleStep) :
    List JobStore.Step :=
  [.lifecycle id (.claimForExecutor now 5), .lifecycle id (.load .running),
    .lifecycle id (.update 0 now), .lifecycle id said,
    .lifecycle id (.load .completed), .lifecycle id (.update 0 now)]

/-- A review of the pull request at its head. -/
def reviewItem : WorkItem :=
  ⟨12, "abc", "PR #12", none, false, none, none⟩

/-- The repair of that head. -/
def repairOfHead : WorkItem :=
  ⟨-7, "repair:abc", "repair PR #12", some 7, false, none, none⟩

/-- An agent rejects the head, the repair run is blocked and leaves the head
where it is, and a forced review of the same head approves it. -/
def approvedAfterRepair : List JobStore.Step :=
  .raiseRun 1 2 3 .review reviewItem false ::
    concludes 0 2 (.setReviewVerdict 2 .changesRequested) ++
  .raiseRun 3 2 3 .build repairOfHead false ::
    concludes 1 4 (.setBuildOutcome 4 .blocked) ++
  .raiseRun 5 2 3 .review reviewItem true ::
    concludes 2 6 (.setReviewVerdict 6 .approved)

/-- Then the base moves.  The approved pull request is inspected and found
conflicting, its head is rejected already, and the old repair answers for a
conflict it never saw: the card is owed nothing, however long the hold has
passed. -/
theorem conflict_never_owed :
    ∃ store,
      run (JobStore.step 1) JobStore.empty approvedAfterRepair = some store ∧
      .inspect 12 "abc" ∈ plan [⟨12, "abc", "main", ["loop-approved"]⟩]
        (recordedReviewVerdicts 1 3 store.ledger.rows) ∧
      ¬ RepairOwed 1 3 parkedBoard oneCard.uuidV5 [7] [labelledPr] 7 parkedCard
        (healAction 1 3 2 7 conflictForge ⟨store, 0, 0, 0, []⟩
          (.inspect 12 "abc")).store.ledger.rows := by
  refine ⟨_, rfl, by decide, fun isOwed => ?_⟩
  have found := isOwed 4000000000 (by decide) 9 (by decide)
  revert found
  decide

end Runs

end NookOs.Jobs
