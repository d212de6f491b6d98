/-
Module: NookOs.Jobs.Rejection
Purpose: Review verdicts that nobody ran: the row a person's ruling or the
  control plane's own rejection inserts, and what the table keeps of it.
Trusted boundary: none
Main exports: PrHead, rejectionRow, Sourced, IsRuling
-/
import NookOs.Jobs.Ledger

namespace NookOs.Jobs

open Lib

/-!
Such a row is finished when it is inserted, so no step of a run's lifecycle ever
touches it, and the index lets a head have one.
-/

/-- A pull request at a head, in a workspace. -/
structure PrHead where
  workspace : WorkspaceId
  pr : Int
  head : String
deriving DecidableEq

/-- The row is about this pull request at this head. -/
def PrHead.IsOf (target : PrHead) (row : LoopJob) : Prop :=
  row.workspaceId = some target.workspace ∧ row.reviewPrNumber = some target.pr ∧
    row.reviewHeadSha = some target.head

instance (target : PrHead) (row : LoopJob) : Decidable (target.IsOf row) :=
  inferInstanceAs (Decidable (_ ∧ _ ∧ _))

/-- The row of a conclusion nobody ran. -/
def rejectionRow (now : Instant) (id : JobId) (tenant : TenantId)
    (target : PrHead) (requestedBy : UserId) (seed : String)
    (source : VerdictSource) : LoopJob :=
  { id
    tenantId := tenant
    kind := .review
    targetTaskId := none
    workspaceId := some target.workspace
    requestedBy
    state := .completed
    executorNodeId := none
    predecessorJobId := none
    queuedReason := none
    queuedReasonKind := none
    seed := some seed
    reviewPrNumber := some target.pr
    reviewHeadSha := some target.head
    reviewVerdict := some .changesRequested
    reviewForced := false
    reviewVerdictSource := some source
    buildOutcome := none
    buildFingerprint := none
    createdAt := now
    updatedAt := now }

section Sourced

variable (tenant : TenantId)

/-- What the ledger keeps about the verdicts nobody ran: each is finished from
its insert on, and a head has at most one. -/
structure Sourced (ledger : Ledger) : Prop where
  tenanted : ∀ row ∈ ledger.fixed, row.tenantId = tenant
  finished : ∀ entry ∈ ledger, entry.row.reviewVerdictSource ≠ none →
    entry.row.state = .completed ∧
      entry.row.reviewVerdict = some .changesRequested ∧
      entry.row.kind = .review ∧ entry.Quiescent
  unique : ∀ first ∈ ledger.fixed, ∀ second ∈ ledger.fixed,
    first.reviewVerdictSource ≠ none → second.reviewVerdictSource ≠ none →
      ∀ target : PrHead, target.IsOf first → target.IsOf second → first = second

variable {tenant} {ledger after : Ledger}

/-- A row in the ledger is a ruling at a head. -/
def IsRuling (target : PrHead) (row : LoopJob) : Prop :=
  row.reviewVerdictSource = some .human ∧ target.IsOf row

/-- `human_rejection_at` reads the one ruling of the head, if there is one. -/
theorem Sourced.humanRejectionAt_iff (sourced : Sourced tenant ledger)
    (target : PrHead) (instant : Instant) :
    humanRejectionAt tenant target.workspace target.pr target.head ledger.rows =
        some instant ↔
      ∃ row ∈ ledger.fixed, IsRuling target row ∧ row.createdAt = instant := by
  let Reads (row : LoopJob) : Bool :=
    rejectsAt tenant target.workspace target.pr target.head row &&
      row.reviewVerdictSource = some .human
  have reads : ∀ entry ∈ ledger,
      Reads entry.row = true ↔ IsRuling target entry.row := by
    intro entry member
    simp only [Reads, rejectsAt, Bool.and_eq_true, decide_eq_true_eq]
    constructor
    · rintro ⟨⟨⟨⟨⟨⟨_, workspace⟩, _⟩, pr⟩, head⟩, _⟩, human⟩
      exact ⟨human, workspace, pr, head⟩
    · rintro ⟨human, workspace, pr, head⟩
      obtain ⟨_, verdict, kind, _⟩ :=
        sourced.finished entry member (by simp [human])
      have tenanted := sourced.tenanted _ (Ledger.mem_fixed.mpr ⟨entry, member, rfl⟩)
      exact ⟨⟨⟨⟨⟨⟨tenanted, workspace⟩, kind⟩, pr⟩, head⟩, verdict⟩, human⟩
  change (newest (ledger.rows.filter Reads)).map (·.createdAt) = some instant ↔ _
  constructor
  · intro found
    obtain ⟨row, latest, rfl⟩ := Option.map_eq_some_iff.mp found
    obtain ⟨inRows, isRead⟩ := List.mem_filter.mp (newest_some latest).1
    obtain ⟨entry, member, rfl⟩ := List.mem_map.mp inRows
    exact ⟨_, Ledger.mem_fixed.mpr ⟨entry, member, rfl⟩,
      (reads entry member).mp isRead, rfl⟩
  · rintro ⟨row, member, ruling, rfl⟩
    obtain ⟨entry, inLedger, rfl⟩ := Ledger.mem_fixed.mp member
    have inFiltered : entry.row ∈ ledger.rows.filter Reads :=
      List.mem_filter.mpr ⟨List.mem_map_of_mem inLedger,
        (reads entry inLedger).mpr ruling⟩
    obtain ⟨latest, found⟩ := newest_isSome_of_mem inFiltered
    obtain ⟨inRows, isRead⟩ := List.mem_filter.mp (newest_some found).1
    obtain ⟨other, otherIn, rfl⟩ := List.mem_map.mp inRows
    have otherRuling := (reads other otherIn).mp isRead
    have same := sourced.unique other.row.fixed
      (Ledger.mem_fixed.mpr ⟨other, otherIn, rfl⟩) entry.row.fixed member
      (by simp [LoopJob.fixed, otherRuling.1])
      (by simp [LoopJob.fixed, show entry.row.reviewVerdictSource = _ from ruling.1])
      target otherRuling.2 ruling.2
    rw [found, Option.map_some, Option.some.injEq]
    have sameInstant := congrArg LoopJob.createdAt same
    exact sameInstant

/-- Ledgers with the same rulings at a head answer the same about it. -/
theorem Sourced.humanRejectionAt_congr (sourced : Sourced tenant ledger)
    (sourcedAfter : Sourced tenant after) {target : PrHead}
    (same : ∀ row, IsRuling target row →
      (row ∈ after.fixed ↔ row ∈ ledger.fixed)) :
    humanRejectionAt tenant target.workspace target.pr target.head after.rows =
      humanRejectionAt tenant target.workspace target.pr target.head
        ledger.rows := by
  apply Option.ext
  intro instant
  rw [sourcedAfter.humanRejectionAt_iff, sourced.humanRejectionAt_iff]
  constructor
  · rintro ⟨row, member, ruling, stamped⟩
    exact ⟨row, (same row ruling).mp member, ruling, stamped⟩
  · rintro ⟨row, member, ruling, stamped⟩
    exact ⟨row, (same row ruling).mpr member, ruling, stamped⟩

/-- A step on one row leaves the verdicts nobody ran alone. -/
theorem Sourced.lifecycle {clock : Instant} {nextId : JobId}
    (sourced : Sourced tenant ledger) (ordered : ledger.Ordered clock nextId)
    {id : JobId} {label : LifecycleStep}
    (stepped : ledger.lifecycle id label = some after) :
    Sourced tenant after := by
  obtain ⟨sameFixed, entry, member, _, moved, taken, row, isRow, others⟩ :=
    ordered.lifecycle_some stepped
  refine ⟨sameFixed ▸ sourced.tenanted, ?_, sameFixed ▸ sourced.unique⟩
  intro other inAfter hasSource
  rcases others other inAfter with rfl | earlier
  · have frame := (step_frame taken).1
    have sameSource : row.reviewVerdictSource = entry.row.reviewVerdictSource := by
      rcases isRow with rfl | rfl
      · have sameColumn := congrArg LoopJob.reviewVerdictSource frame
        exact sameColumn
      · rfl
    obtain ⟨state, verdict, kind, quiescent⟩ :=
      sourced.finished entry member (sameSource ▸ hasSource)
    obtain ⟨sameRow, stillQuiescent⟩ :=
      step_of_finished (by rw [state]; rfl) quiescent taken
    have unmoved : row = entry.row := by
      rcases isRow with rfl | rfl
      · exact sameRow
      · rfl
    subst unmoved
    exact ⟨state, verdict, kind, stillQuiescent⟩
  · exact sourced.finished other earlier hasSource

/-- An inserted row that has a source is a finished rejection, and the index
keeps it the only one at its head. -/
theorem Sourced.insert (sourced : Sourced tenant ledger) {row : LoopJob}
    (tenanted : row.tenantId = tenant)
    (finished : row.reviewVerdictSource ≠ none → row.state = .completed ∧
      row.reviewVerdict = some .changesRequested ∧ row.kind = .review)
    (inserted : ledger.insert row = some after) : Sourced tenant after := by
  obtain ⟨rfl, noClash⟩ := Ledger.insert_some inserted
  have split : Ledger.fixed (ledger ++ [Lifecycle.idle row]) =
      ledger.fixed ++ [row.fixed] := by
    simp [Ledger.fixed, Lifecycle.idle]
  have alone : ∀ other ∈ ledger.fixed, other.reviewVerdictSource ≠ none →
      row.reviewVerdictSource ≠ none → ∀ target : PrHead,
        target.IsOf other → ¬ target.IsOf row := by
    intro other member otherSourced rowSourced target ofOther ofRow
    obtain ⟨entry, inLedger, rfl⟩ := Ledger.mem_fixed.mp member
    have clear := noClash entry.row (List.mem_map_of_mem inLedger)
    obtain ⟨workspace, pr, head⟩ := ofRow
    obtain ⟨otherWorkspace, otherPr, otherHead⟩ := ofOther
    have clashes : sameSourcedHead row entry.row = true := by
      simp only [LoopJob.fixed] at otherWorkspace otherPr otherHead otherSourced
      simp [sameSourcedHead, workspace, pr, head, otherWorkspace, otherPr,
        otherHead, Option.isSome_iff_ne_none.mpr otherSourced,
        Option.isSome_iff_ne_none.mpr rowSourced]
    simp [clash, clashes] at clear
  refine ⟨?_, ?_, ?_⟩
  · intro other member
    rw [split, List.mem_append, List.mem_singleton] at member
    rcases member with earlier | rfl
    · exact sourced.tenanted other earlier
    · exact tenanted
  · intro entry member hasSource
    rw [List.mem_append, List.mem_singleton] at member
    rcases member with earlier | rfl
    · exact sourced.finished entry earlier hasSource
    · obtain ⟨state, verdict, kind⟩ := finished hasSource
      exact ⟨state, verdict, kind, rfl, rfl⟩
  · intro first firstIn second secondIn firstSourced secondSourced target ofFirst
      ofSecond
    rw [split, List.mem_append, List.mem_singleton] at firstIn secondIn
    rcases firstIn with firstIn | rfl <;> rcases secondIn with secondIn | rfl
    · exact sourced.unique first firstIn second secondIn firstSourced
        secondSourced target ofFirst ofSecond
    · exact absurd ofSecond
        (alone first firstIn firstSourced secondSourced target ofFirst)
    · exact absurd ofFirst
        (alone second secondIn secondSourced firstSourced target ofSecond)
    · rfl

end Sourced

/-- A row is about one pull request at one head. -/
theorem PrHead.IsOf.unique {first second : PrHead} {row : LoopJob}
    (ofFirst : first.IsOf row) (ofSecond : second.IsOf row) : first = second := by
  obtain ⟨workspace, pr, head⟩ := ofFirst
  obtain ⟨otherWorkspace, otherPr, otherHead⟩ := ofSecond
  rw [workspace, Option.some.injEq] at otherWorkspace
  rw [pr, Option.some.injEq] at otherPr
  rw [head, Option.some.injEq] at otherHead
  cases first
  cases second
  simp only [PrHead.mk.injEq]
  exact ⟨otherWorkspace, otherPr, otherHead⟩

end NookOs.Jobs
