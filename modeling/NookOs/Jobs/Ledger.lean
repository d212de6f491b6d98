/-
Module: NookOs.Jobs.Ledger
Purpose: The `loop_jobs` table as a whole: its unique indexes, inserts, the
  writers of one row among the others, and the queries over review verdicts.
Trusted boundary: none
Main exports: Ledger, Ledger.insert, Ledger.lifecycle, rejectedReviewHeads, outstandingConflicts
-/
import Mathlib.Data.Int.Order.Basic
import Mathlib.Data.List.MinMax
import Mathlib.Data.Prod.Lex
import NookOs.Jobs.Lifecycle
import NookOs.Lib.Table

namespace NookOs.Jobs

open Lib

/-!
The table is the list of its rows in the order they were inserted, each with the
calls in flight on it.  A statement that would break a unique index fails and
writes nothing.

The queries take rows.  `ORDER BY created_at DESC, id DESC LIMIT 1` is the row
of greatest recency, and ids are time-ordered, so two rows never tie.
-/

/-- The order of `ORDER BY created_at DESC, id DESC`, newest greatest. -/
def recency (row : LoopJob) : Int ×ₗ Nat := toLex (row.createdAt, row.id)

/-- The newest of some rows. -/
def newest (rows : List LoopJob) : Option LoopJob :=
  @List.argmax _ (Int ×ₗ Nat)
    (@Prod.Lex.instPreorder Int Nat Int.instLinearOrder.toPreorder Nat.instPreorder) _
    recency rows

variable {row : LoopJob}

theorem newest_some {rows : List LoopJob} (found : newest rows = some row) :
    row ∈ rows ∧ ∀ other ∈ rows, recency other ≤ recency row :=
  ⟨List.argmax_mem found, fun _ member => List.le_of_mem_argmax member found⟩

theorem newest_isSome_of_mem {rows : List LoopJob}
    (member : row ∈ rows) : ∃ latest, newest rows = some latest := by
  cases found : newest rows with
  | some latest => exact ⟨latest, rfl⟩
  | none =>
      rw [List.argmax_eq_none.mp found] at member
      contradiction

section Indexes

/-- `loop_jobs_one_live_run_per_pr`. -/
def sameLivePr (first second : LoopJob) : Bool :=
  first.workspaceId.isSome && first.reviewPrNumber.isSome &&
    isLive first.state && isLive second.state &&
    first.workspaceId = second.workspaceId &&
    first.reviewPrNumber = second.reviewPrNumber

/-- `loop_jobs_one_live_build_per_task`. -/
def sameLiveBuild (first second : LoopJob) : Bool :=
  first.targetTaskId.isSome && first.kind = .build && second.kind = .build &&
    isLive first.state && isLive second.state &&
    first.targetTaskId = second.targetTaskId

/-- `loop_jobs_one_control_plane_verdict_per_head`, which does not name the
source among its columns. -/
def sameSourcedHead (first second : LoopJob) : Bool :=
  first.reviewVerdictSource.isSome && second.reviewVerdictSource.isSome &&
    first.workspaceId.isSome && first.reviewPrNumber.isSome &&
    first.reviewHeadSha.isSome &&
    first.workspaceId = second.workspaceId &&
    first.reviewPrNumber = second.reviewPrNumber &&
    first.reviewHeadSha = second.reviewHeadSha

/-- Two rows that some unique index does not let stand beside each other. -/
def clash (first second : LoopJob) : Bool :=
  sameLivePr first second || sameLiveBuild first second ||
    sameSourcedHead first second

/-- An index does not care which of two rows came first. -/
theorem clash_comm (first second : LoopJob) :
    clash first second = clash second first := by
  have live : sameLivePr first second = sameLivePr second first := by
    unfold sameLivePr
    grind
  have build : sameLiveBuild first second = sameLiveBuild second first := by
    unfold sameLiveBuild
    grind
  have sourced : sameSourcedHead first second = sameSourcedHead second first := by
    unfold sameSourcedHead
    grind
  rw [clash, clash, live, build, sourced]

end Indexes

/-- A row nobody has a call on. -/
def Lifecycle.idle (row : LoopJob) : Lifecycle :=
  { row, lastEntryAt := none, inFlight := [], candidates := [] }

/-- The primary key of an entry. -/
def Lifecycle.id (entry : Lifecycle) : JobId := entry.row.id

/-- The table, with the calls in flight on each row. -/
abbrev Ledger := List Lifecycle

namespace Ledger

/-- The rows of the table. -/
def rows (ledger : Ledger) : List LoopJob := ledger.map (·.row)

/-- An INSERT; `none` is a unique violation. -/
def insert (row : LoopJob) (ledger : Ledger) : Option Ledger :=
  if ledger.rows.any (clash row) then none
  else some (ledger ++ [Lifecycle.idle row])

/-- A step of a party on one row of the table.  A write that an index refuses
fails: the call is over and the row is as it was. -/
def lifecycle (id : JobId) (label : LifecycleStep) (ledger : Ledger) :
    Option Ledger :=
  match Table.find Lifecycle.id ledger id with
  | none => none
  | some entry =>
      (entry.step label).map fun after =>
        let others := rows (Table.delete Lifecycle.id id ledger)
        let row := if others.any (clash after.row) then entry.row else after.row
        Table.update Lifecycle.id id (fun _ => { after with row }) ledger

end Ledger

namespace Ledger

/-- The fixed columns of the rows: what an insert adds to and nothing else
changes. -/
def fixed (ledger : Ledger) : List LoopJob := ledger.map (·.row.fixed)

theorem mem_fixed {ledger : Ledger} :
    row ∈ ledger.fixed ↔ ∃ entry ∈ ledger, entry.row.fixed = row := by
  simp [fixed]

/-- What the table keeps whoever writes it: ids are unique and grow with time,
so that the newest row is the last one inserted. -/
structure Ordered (ledger : Ledger) (clock : Instant) (nextId : JobId) :
    Prop where
  increasing : ledger.fixed.Pairwise fun older newer =>
    older.id < newer.id ∧ older.createdAt ≤ newer.createdAt
  issued : ∀ row ∈ ledger.fixed, row.id < nextId ∧ row.createdAt ≤ clock

section Ordered

variable {ledger after : Ledger} {clock now : Instant} {nextId : JobId}

theorem Ordered.keyed (ordered : ledger.Ordered clock nextId) :
    Table.Keyed Lifecycle.id ledger := by
  have ids : ledger.map Lifecycle.id = ledger.fixed.map (·.id) := by
    simp [fixed, Lifecycle.id, LoopJob.fixed, Function.comp_def]
  unfold Table.Keyed
  rw [ids]
  exact (List.pairwise_map.mpr
    (ordered.increasing.imp fun grows => Nat.ne_of_lt grows.1))

theorem Ordered.later (ordered : ledger.Ordered clock nextId)
    (onward : clock ≤ now) : ledger.Ordered now nextId :=
  ⟨ordered.increasing, fun row member =>
    ⟨(ordered.issued row member).1,
      Int.le_trans (ordered.issued row member).2 onward⟩⟩

theorem Ordered.of_fixed (ordered : ledger.Ordered clock nextId)
    (same : after.fixed = ledger.fixed) : after.Ordered clock nextId :=
  ⟨same ▸ ordered.increasing, same ▸ ordered.issued⟩

/-- Of two rows, the one with the smaller id is the less recent. -/
theorem Ordered.recency_lt (ordered : ledger.Ordered clock nextId)
    {first second : LoopJob} (firstIn : first.fixed ∈ ledger.fixed)
    (secondIn : second.fixed ∈ ledger.fixed) (smaller : first.id < second.id) :
    recency first < recency second := by
  have apart : ∀ older newer : LoopJob, older ∈ ledger.fixed →
      newer ∈ ledger.fixed → older.id < newer.id →
        older.createdAt ≤ newer.createdAt := by
    intro older newer olderIn newerIn less
    obtain ⟨i, iBound, rfl⟩ := List.getElem_of_mem olderIn
    obtain ⟨j, jBound, rfl⟩ := List.getElem_of_mem newerIn
    rcases Nat.lt_trichotomy i j with before | same | behind
    · exact (List.pairwise_iff_getElem.mp ordered.increasing i j iBound
          jBound before).2
    · subst same
      exact absurd less (Nat.lt_irrefl _)
    · have grows :=
        (List.pairwise_iff_getElem.mp ordered.increasing j i jBound
            iBound behind).1
      exact absurd (Nat.lt_trans less grows) (Nat.lt_irrefl _)
  have since := apart _ _ firstIn secondIn smaller
  rw [recency, recency, Prod.Lex.toLex_lt_toLex]
  rcases Int.lt_or_eq_of_le since with earlier | same
  · exact .inl earlier
  · exact .inr ⟨same, smaller⟩

/-- Two entries of one id are one entry. -/
theorem Ordered.eq_of_id (ordered : ledger.Ordered clock nextId) {first second : Lifecycle}
    (firstIn : first ∈ ledger) (secondIn : second ∈ ledger) (same : first.row.id = second.row.id) :
    first = second := by
  have found := ordered.keyed.find_of_mem firstIn
  rw [show Lifecycle.id first = Lifecycle.id second from same,
    ordered.keyed.find_of_mem secondIn] at found
  exact (Option.some.inj found).symm

/-- An insert adds a row that clashes with none. -/
theorem insert_some (inserted : ledger.insert row = some after) :
    after = ledger ++ [Lifecycle.idle row] ∧
      ∀ other ∈ ledger.rows, clash row other = false := by
  simp only [insert, Option.ite_none_left_eq_some, Option.some.injEq,
    List.any_eq_true, not_exists, not_and, Bool.not_eq_true] at inserted
  exact ⟨inserted.2.symm, inserted.1⟩

/-- A refused insert met a row it clashes with. -/
theorem insert_none (refused : ledger.insert row = none) :
    ∃ other ∈ ledger.rows, clash row other = true := by
  simpa [insert] using refused

theorem Ordered.append (ordered : ledger.Ordered clock nextId)
    (fresh : row.id = nextId) (stamped : row.createdAt = clock) :
    Ledger.Ordered (ledger ++ [Lifecycle.idle row]) clock (nextId + 1) := by
  have split : fixed (ledger ++ [Lifecycle.idle row]) =
      ledger.fixed ++ [row.fixed] := by
    simp [fixed, Lifecycle.idle]
  constructor
  · rw [split, List.pairwise_append]
    refine ⟨ordered.increasing, List.pairwise_singleton _ _, ?_⟩
    intro older olderIn newer newerIn
    obtain ⟨issued, stampedBefore⟩ := ordered.issued older olderIn
    rw [List.mem_singleton.mp newerIn]
    exact ⟨Nat.lt_of_lt_of_eq issued fresh.symm,
      Int.le_trans stampedBefore (Int.le_of_eq stamped.symm)⟩
  · intro other member
    rw [split, List.mem_append, List.mem_singleton] at member
    rcases member with earlier | rfl
    · obtain ⟨issued, stampedBefore⟩ := ordered.issued other earlier
      exact ⟨Nat.lt_succ_of_lt issued, stampedBefore⟩
    · exact ⟨Nat.lt_succ_of_le (Nat.le_of_eq fresh), Int.le_of_eq stamped⟩

/-- What a step on one row does to the table: one entry takes the step, and a
refused write leaves its row as it was. -/
theorem Ordered.lifecycle_some (ordered : ledger.Ordered clock nextId) {id : JobId}
    {label : LifecycleStep} (stepped : ledger.lifecycle id label = some after) :
    after.fixed = ledger.fixed ∧
      ∃ entry ∈ ledger, entry.id = id ∧
        ∃ moved, entry.step label = some moved ∧
        ∃ row, (row = moved.row ∨ row = entry.row) ∧
          ∀ other ∈ after, other = { moved with row } ∨ other ∈ ledger := by
  unfold lifecycle at stepped
  cases found : Table.find Lifecycle.id ledger id with
  | none => simp [found] at stepped
  | some entry =>
      obtain ⟨member, sameId⟩ := Table.find_some found
      simp only [found, Option.map_eq_some_iff] at stepped
      obtain ⟨moved, taken, rfl⟩ := stepped
      have frame := (step_frame taken).1
      refine ⟨?_, entry, member, sameId, moved, taken,
        if (rows (Table.delete Lifecycle.id id ledger)).any (clash moved.row) then
          entry.row else moved.row, (ite_eq_or_eq _ _ _).symm, ?_⟩
      rotate_left
      · intro other inAfter
        obtain ⟨stored, inLedger, rfl⟩ := List.mem_map.mp inAfter
        by_cases hit : stored.id = id
        · exact .inl (if_pos hit)
        · rw [if_neg hit]
          exact .inr inLedger
      · simp only [fixed, Table.update, List.map_map]
        refine List.map_congr_left fun stored inLedger => ?_
        by_cases hit : stored.id = id
        · have same : stored = entry :=
            Option.some.inj ((hit ▸ ordered.keyed.find_of_mem inLedger).symm.trans
              found)
          subst same
          simp only [Function.comp_apply, hit, if_true]
          split
          · rfl
          · exact frame
        · simp only [Function.comp_apply, hit, if_false]

/-- No step on one row loses a row, or a verdict one has recorded. -/
theorem Ordered.lifecycle_persists (ordered : ledger.Ordered clock nextId) {id : JobId}
    {label : LifecycleStep} (stepped : ledger.lifecycle id label = some after) :
    ∀ entry ∈ ledger, ∃ later ∈ after, later.row.fixed = entry.row.fixed ∧
      (entry.row.reviewVerdict ≠ none → later.row.reviewVerdict ≠ none) := by
  unfold lifecycle at stepped
  cases found : Table.find Lifecycle.id ledger id with
  | none => simp [found] at stepped
  | some stepping =>
      simp only [found, Option.map_eq_some_iff] at stepped
      obtain ⟨moved, taken, rfl⟩ := stepped
      intro entry member
      refine ⟨_, List.mem_map_of_mem member, ?_⟩
      by_cases hit : entry.id = id
      · have same : entry = stepping := Option.some.inj
          ((hit ▸ ordered.keyed.find_of_mem member).symm.trans found)
        subst same
        simp only [hit, if_true]
        split
        · exact ⟨rfl, fun recorded => recorded⟩
        · exact ⟨(step_frame taken).1, step_keeps_verdict taken⟩
      · simp only [hit, if_false]
        exact ⟨trivial, fun recorded => recorded⟩

/-- No two rows break a unique index together. -/
def Unclashing (ledger : Ledger) : Prop :=
  ∀ first ∈ ledger, ∀ second ∈ ledger, first.row.id ≠ second.row.id →
    clash first.row second.row = false

theorem Unclashing.insert (unclashing : ledger.Unclashing)
    (inserted : ledger.insert row = some after) : after.Unclashing := by
  obtain ⟨rfl, clear⟩ := insert_some inserted
  intro first firstIn second secondIn apart
  rw [List.mem_append, List.mem_singleton] at firstIn secondIn
  rcases firstIn with firstIn | rfl <;> rcases secondIn with secondIn | rfl
  · exact unclashing first firstIn second secondIn apart
  · rw [clash_comm]
    exact clear first.row (List.mem_map_of_mem firstIn)
  · exact clear second.row (List.mem_map_of_mem secondIn)
  · exact absurd rfl apart

/-- A step on one row keeps the indexes: a write that would break one is
refused. -/
theorem Unclashing.lifecycle (unclashing : ledger.Unclashing) {id : JobId} {label : LifecycleStep}
    (stepped : ledger.lifecycle id label = some after) : after.Unclashing := by
  unfold Ledger.lifecycle at stepped
  cases found : Table.find Lifecycle.id ledger id with
  | none => simp [found] at stepped
  | some entry =>
      obtain ⟨member, sameId⟩ := Table.find_some found
      simp only [found, Option.map_eq_some_iff] at stepped
      obtain ⟨moved, taken, rfl⟩ := stepped
      have stillId : moved.row.id = entry.row.id := by
        have frame := congrArg LoopJob.id (step_frame taken).1
        exact frame
      let others := rows (Table.delete Lifecycle.id id ledger)
      let row := if others.any (clash moved.row) then entry.row else moved.row
      have rowId : row.id = id := by
        have isOne : row = entry.row ∨ row = moved.row := ite_eq_or_eq _ _ _
        rcases isOne with one | one
        · rw [one]
          exact sameId
        · rw [one, stillId]
          exact sameId
      -- the written row stands beside every other one
      have clear : ∀ other ∈ ledger, other.id ≠ id →
          clash row other.row = false := by
        intro other inLedger apart
        have among : other.row ∈ others :=
          List.mem_map_of_mem (List.mem_filter.mpr ⟨inLedger, by simpa using apart⟩)
        cases clashes : others.any (clash moved.row) with
        | true =>
            simp only [row, clashes, if_true]
            exact unclashing entry member other inLedger fun same =>
              apart (same.symm.trans sameId)
        | false =>
            simp only [row, clashes, Bool.false_eq_true, if_false]
            simpa using List.any_eq_false.mp clashes other.row among
      intro first firstIn second secondIn apart
      obtain ⟨one, oneIn, rfl⟩ := List.mem_map.mp firstIn
      obtain ⟨two, twoIn, rfl⟩ := List.mem_map.mp secondIn
      by_cases oneHit : one.id = id <;> by_cases twoHit : two.id = id <;>
        simp only [oneHit, twoHit, if_true, if_false] at apart ⊢
      · exact absurd rfl apart
      · exact clear two twoIn twoHit
      · rw [clash_comm]
        exact clear one oneIn oneHit
      · exact unclashing one oneIn two twoIn apart

end Ordered

end Ledger

section Queries

variable (tenant : TenantId) (workspace : WorkspaceId)

/-- A verdict some run recorded, at the head it recorded it at. -/
structure RecordedVerdict where
  reviewPrNumber : Int
  reviewHeadSha : String
  reviewVerdict : ReviewVerdict
deriving DecidableEq

/-- A pull request's newest rejection, and who concluded it if not an agent. -/
structure RejectedHead where
  reviewPrNumber : Int
  reviewHeadSha : String
  reviewVerdictSource : Option VerdictSource
deriving DecidableEq

/-- The head an outstanding conflict rejection sits at. -/
structure ConflictedPr where
  reviewPrNumber : Int
  reviewHeadSha : String
deriving DecidableEq

/-- The rows of one pull request's review at one head that request changes. -/
def rejectsAt (pr : Int) (head : String) (row : LoopJob) : Bool :=
  row.tenantId = tenant && row.workspaceId = some workspace &&
    row.kind = .review && row.reviewPrNumber = some pr &&
    row.reviewHeadSha = some head && row.reviewVerdict = some .changesRequested

/-- `human_rejection_at`: when a person last ruled at this head. -/
def humanRejectionAt (pr : Int) (head : String) (rows : List LoopJob) :
    Option Instant :=
  (newest (rows.filter fun row =>
    rejectsAt tenant workspace pr head row &&
      row.reviewVerdictSource = some .human)).map (·.createdAt)

/-- A completed review of a pull request with a verdict other than a skip. -/
def concludedReview (pr : Option Int) (row : LoopJob) : Bool :=
  row.tenantId = tenant && row.workspaceId = some workspace &&
    row.kind = .review && row.reviewPrNumber = pr &&
    row.state = .completed && row.reviewVerdict.isSome &&
    row.reviewVerdict ≠ some .skipped

/-- `recorded_review_verdicts`: per pull request, the newest completed run that
recorded a real verdict. -/
def recordedReviewVerdicts (rows : List LoopJob) : List RecordedVerdict :=
  rows.filterMap fun row =>
    match row.reviewPrNumber, row.reviewHeadSha, row.reviewVerdict with
    | some pr, some head, some verdict =>
        if concludedReview tenant workspace (some pr) row ∧
            (newest (rows.filter
              (concludedReview tenant workspace (some pr)))).map (·.id) =
                some row.id then
          some ⟨pr, head, verdict⟩
        else none
    | _, _, _ => none

/-- A reported verdict is the newest real one of its pull request. -/
theorem mem_recordedReviewVerdicts {tenant : TenantId} {workspace : WorkspaceId}
    {rows : List LoopJob} {report : RecordedVerdict}
    (reported : report ∈ recordedReviewVerdicts tenant workspace rows) :
    ∃ row ∈ rows, row.reviewHeadSha = some report.reviewHeadSha ∧
      row.reviewVerdict = some report.reviewVerdict ∧
      concludedReview tenant workspace (some report.reviewPrNumber) row = true ∧
      ∃ latest ∈ rows, latest.id = row.id ∧ ∀ other ∈ rows,
        concludedReview tenant workspace (some report.reviewPrNumber) other = true →
          recency other ≤ recency latest := by
  obtain ⟨row, inRows, isReported⟩ := List.mem_filterMap.mp reported
  split at isReported
  · rename_i pr head verdict samePr sameHead sameVerdict
    obtain ⟨⟨concluded, isNewest⟩, same⟩ :=
      Option.ite_none_right_eq_some.mp isReported
    cases same
    obtain ⟨latest, found, sameId⟩ := Option.map_eq_some_iff.mp isNewest
    obtain ⟨latestIn, greatest⟩ := newest_some found
    refine ⟨row, inRows, sameHead, sameVerdict, concluded, latest,
      List.mem_of_mem_filter latestIn, sameId, ?_⟩
    intro other member isConcluded
    exact greatest other (List.mem_filter.mpr ⟨member, isConcluded⟩)
  · contradiction

/-- `rejected_review_heads`: per pull request, the newest `changes_requested`,
whatever has been concluded since. -/
def rejectedReviewHeads (rows : List LoopJob) : List RejectedHead :=
  rows.filterMap fun row =>
    match row.reviewPrNumber, row.reviewHeadSha with
    | some pr, some head =>
        if row.tenantId = tenant ∧ row.workspaceId = some workspace ∧
            row.kind = .review ∧ row.reviewVerdict = some .changesRequested ∧
            (newest (rows.filter fun other =>
              other.workspaceId = some workspace && other.kind = .review &&
                other.reviewPrNumber = some pr &&
                other.reviewVerdict = some .changesRequested)).map (·.id) =
                  some row.id then
          some ⟨pr, head, row.reviewVerdictSource⟩
        else none
    | _, _ => none

/-- `outstanding_conflicts`: per pull request, the conflict rejection that is
the newest verdict of any kind. -/
def outstandingConflicts (rows : List LoopJob) : List ConflictedPr :=
  rows.filterMap fun row =>
    match row.reviewPrNumber, row.reviewHeadSha with
    | some pr, some head =>
        if row.tenantId = tenant ∧ row.workspaceId = some workspace ∧
            row.kind = .review ∧ row.reviewVerdictSource = some .conflict ∧
            (newest (rows.filter fun other =>
              other.workspaceId = some workspace && other.kind = .review &&
                other.reviewPrNumber = some pr &&
                other.reviewVerdict.isSome)).map (·.id) = some row.id then
          some ⟨pr, head⟩
        else none
    | _, _ => none

end Queries

end NookOs.Jobs
