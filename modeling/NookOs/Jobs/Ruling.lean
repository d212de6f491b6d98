/-
Module: NookOs.Jobs.Ruling
Purpose: A person's `changes_requested` against the verdicts of live review runs
  and the control plane's own rejections, in any interleaving, and exactly when
  the ruling holds.
Trusted boundary: none
Main exports: humanHoldRefuses, Reviews, Reviews.step, RulingHolds, Undisturbed, ruling_holds_iff
-/
import NookOs.Jobs.Rejection

namespace NookOs.Jobs

open Lib

/-!
`record_verdict` checks the hold, posts to the forge, and stores the verdict
last, so a call is in flight between its check and its store.  The two recorders
of a rejection each read before they insert, with predicates of their own, and
are in flight in between.  A forge that fails drops the call.

`request_changes` has nothing left that can fail once its INSERT has answered,
so it has returned `Ok` from there on.
-/

/-- The verdict carries a label, which a skip does not. -/
def ReviewVerdict.posts : ReviewVerdict → Bool
  | .approved | .changesRequested | .needsHuman => true
  | .skipped => false

/-- Whether a human's ruling stands this agent verdict down. -/
def humanHoldRefuses (job : LoopJob) (ruledAt : Option Instant) : Bool :=
  match ruledAt with
  | none => false
  | some ruled => !(job.reviewForced && ruled < job.createdAt)

/-- A rejection the control plane concluded itself. -/
structure ControlPlaneRejection where
  target : PrHead
  requestedBy : UserId
  seed : String
  source : VerdictSource
  notHuman : source ≠ .human
deriving DecidableEq

/-- A person's ruling. -/
structure HumanRejection where
  target : PrHead
  requestedBy : UserId
  seed : String
deriving DecidableEq

/-- A `record_verdict` past its hold check: the run it loaded, what it is about,
and when a person had ruled there as far as the check could see. -/
structure VerdictCall where
  job : LoopJob
  target : PrHead
  verdict : ReviewVerdict
  ruledAt : Option Instant
  directed : target.IsOf job
deriving DecidableEq

/-- The ledger of one tenant, the calls in flight on it, and the rulings whose
`request_changes` has returned `Ok`. -/
structure Reviews where
  ledger : Ledger
  clock : Instant
  nextId : JobId
  verdicts : List VerdictCall
  rejections : List ControlPlaneRejection
  rulings : List HumanRejection
  ruled : List PrHead

/-- No row and no call. -/
def Reviews.empty : Reviews := ⟨[], 0, 0, [], [], [], []⟩

/-- One step of one party. -/
inductive ReviewsStep where
  | create (now : Instant) (new : NewLoopJob)
  | lifecycle (id : JobId) (label : LifecycleStep)
  | checkVerdict (id : JobId) (verdict : ReviewVerdict)
  | abandonVerdict (call : Nat)
  | storeVerdict (call : Nat) (now : Instant)
  | selectRejection (rejection : ControlPlaneRejection)
  | insertRejection (call : Nat) (now : Instant)
  | selectRuling (ruling : HumanRejection)
  | insertRuling (call : Nat) (now : Instant)

namespace Reviews

variable (tenant : TenantId)

/-- `human_rejection_at`, for a pull request's head. -/
def ruledAt (system : Reviews) (target : PrHead) : Option Instant :=
  humanRejectionAt tenant target.workspace target.pr target.head
    system.ledger.rows

/-- An INSERT by a recorder or a creation path, under a fresh id. -/
def insertRow (row : LoopJob) (system : Reviews) : Reviews :=
  { system with
    ledger := (system.ledger.insert row).getD system.ledger
    nextId := system.nextId + 1 }

/-- The load and the hold check of `record_verdict`. -/
def checkVerdict (id : JobId) (verdict : ReviewVerdict) (system : Reviews) :
    Reviews :=
  match Table.find Lifecycle.id system.ledger id with
  | none => system
  | some entry =>
      match workspace : entry.row.workspaceId, pr : entry.row.reviewPrNumber,
        head : entry.row.reviewHeadSha with
      | some workspaceId, some prNumber, some headSha =>
          let target : PrHead := ⟨workspaceId, prNumber, headSha⟩
          let ruled := if verdict.posts then system.ruledAt tenant target else none
          if verdict.posts && humanHoldRefuses entry.row ruled then system
          else
            { system with
              verdicts := system.verdicts ++
                [⟨entry.row, target, verdict, ruled, workspace, pr, head⟩] }
      | _, _, _ => system

/-- The store of a verdict matches its row. -/
def Stores (system : Reviews) (call : VerdictCall) (now : Instant) : Bool :=
  (Table.find Lifecycle.id system.ledger call.job.id).any fun entry =>
    (Repo.setReviewVerdict now call.verdict entry.row).isSome

/-- The interleaving semantics. -/
def step (system : Reviews) : ReviewsStep → Option Reviews
  | .create now new =>
      if system.clock ≤ now then
        some (insertRow
          (Repo.create now { new with id := system.nextId, tenant })
          { system with clock := now })
      else none
  | .lifecycle id label =>
      if label.recordsVerdict then none
      else
        (system.ledger.lifecycle id label).map fun ledger =>
          { system with ledger }
  | .checkVerdict id verdict => some (system.checkVerdict tenant id verdict)
  | .abandonVerdict call =>
      (system.verdicts[call]?).map fun _ =>
        { system with verdicts := system.verdicts.eraseIdx call }
  | .storeVerdict call now =>
      (system.verdicts[call]?).map fun stored =>
        { system with
          ledger := (system.ledger.lifecycle stored.job.id
            (.setReviewVerdict now stored.verdict)).getD system.ledger
          verdicts := system.verdicts.eraseIdx call }
  | .selectRejection rejection =>
      if system.ledger.rows.any (rejectsAt tenant rejection.target.workspace
          rejection.target.pr rejection.target.head) then
        some system
      else some { system with rejections := system.rejections ++ [rejection] }
  | .insertRejection call now =>
      if system.clock ≤ now then
        (system.rejections[call]?).map fun rejection =>
          insertRow
            (rejectionRow now system.nextId tenant rejection.target
              rejection.requestedBy rejection.seed rejection.source)
            { system with
              clock := now
              rejections := system.rejections.eraseIdx call }
      else none
  | .selectRuling ruling =>
      if (system.ruledAt tenant ruling.target).isSome then
        some { system with ruled := system.ruled ++ [ruling.target] }
      else some { system with rulings := system.rulings ++ [ruling] }
  | .insertRuling call now =>
      if system.clock ≤ now then
        (system.rulings[call]?).map fun ruling =>
          insertRow
            (rejectionRow now system.nextId tenant ruling.target
              ruling.requestedBy ruling.seed .human)
            { system with
              clock := now
              rulings := system.rulings.eraseIdx call
              ruled := system.ruled ++ [ruling.target] }
      else none

end Reviews

section Statement

variable (tenant : TenantId)

/-- A run that may still speak at a head a person ruled at. -/
def MayOverrule (ruled : Option Instant) (row : LoopJob) : Prop :=
  row.reviewForced = true ∧ ∀ instant ∈ ruled, instant < row.createdAt

/-- What a ruling promises of one step: every ruling acknowledged so far is on
the ledger; a posting verdict stored at a ruled head is of a run forced and
created after the ruling; and `approved` is reported at a ruled head only for
such a run. -/
def RulingHolds (before : Reviews) (label : ReviewsStep) (after : Reviews) :
    Prop :=
  (∀ target ∈ after.ruled, (after.ruledAt tenant target).isSome) ∧
  (match label with
    | .storeVerdict call now =>
        ∀ stored ∈ before.verdicts[call]?, stored.verdict.posts →
          before.Stores stored now → stored.target ∈ before.ruled →
            MayOverrule (before.ruledAt tenant stored.target) stored.job
    | _ => True) ∧
  ∀ target ∈ after.ruled,
    ⟨target.pr, target.head, .approved⟩ ∈
      recordedReviewVerdicts tenant target.workspace after.ledger.rows →
      ∃ row ∈ after.ledger.rows, target.IsOf row ∧
        row.state = .completed ∧ row.reviewVerdict = some .approved ∧
        MayOverrule (after.ruledAt tenant target) row

/-- The condition on one step, read off the state before it: when a ruling is
inserted, no conflict or queue ejection stands at its head; and when a posting
verdict is stored, nobody has ruled at its head since its hold check. -/
def Undisturbed (before : Reviews) (label : ReviewsStep) (_ : Reviews) : Prop :=
  match label with
  | .insertRuling call _ =>
      ∀ ruling ∈ before.rulings[call]?, ∀ row ∈ before.ledger.rows,
        ruling.target.IsOf row →
          row.reviewVerdictSource = none ∨ row.reviewVerdictSource = some .human
  | .storeVerdict call now =>
      ∀ stored ∈ before.verdicts[call]?, stored.verdict.posts →
        before.Stores stored now →
          stored.ruledAt = before.ruledAt tenant stored.target
  | _ => True

end Statement

namespace Reviews

variable (tenant : TenantId)

/-- What a run keeps while nothing disturbs a ruling. -/
structure Sound (system : Reviews) : Prop where
  ordered : system.ledger.Ordered system.clock system.nextId
  sourced : Sourced tenant system.ledger
  /-- The rulings on the ledger are the acknowledged ones. -/
  acknowledged : ∀ target, target ∈ system.ruled ↔
    ∃ row ∈ system.ledger.fixed, IsRuling target row
  /-- A posting verdict in flight was let through by its hold check, and a
  ruling its check did not see was made after its run was created. -/
  checked : ∀ call ∈ system.verdicts, call.verdict.posts →
    humanHoldRefuses call.job call.ruledAt = false ∧
      call.job.fixed ∈ system.ledger.fixed ∧
      (call.ruledAt = system.ruledAt tenant call.target ∨
        (call.ruledAt = none ∧ ∀ instant ∈ system.ruledAt tenant call.target,
          call.job.createdAt ≤ instant))
  /-- A run newer than a ruling that has spoken at its head was forced after
  it. -/
  answered : ∀ entry ∈ system.ledger, ∀ ruling ∈ system.ledger.fixed,
    ∀ target, IsRuling target ruling → target.IsOf entry.row →
      ruling.id < entry.row.id →
      ∀ verdict ∈ entry.row.reviewVerdict, verdict.posts →
        entry.row.reviewForced = true ∧ ruling.createdAt < entry.row.createdAt

variable {tenant} {before after : Reviews}

theorem empty_sound : Sound tenant empty := by
  refine ⟨⟨by simp [empty, Ledger.fixed], by simp [empty, Ledger.fixed]⟩,
    ⟨by simp [empty, Ledger.fixed], by simp [empty], by simp [empty, Ledger.fixed]⟩,
    by simp [empty, Ledger.fixed], by simp [empty], by simp [empty]⟩

theorem Sound.ruledAt_iff (sound : Sound tenant before) (target : PrHead)
    (instant : Instant) :
    before.ruledAt tenant target = some instant ↔
      ∃ row ∈ before.ledger.fixed, IsRuling target row ∧
        row.createdAt = instant :=
  sound.sourced.humanRejectionAt_iff target instant

/-- A ruling is reported at its head exactly when it was acknowledged. -/
theorem Sound.ruled_iff (sound : Sound tenant before) (target : PrHead) :
    target ∈ before.ruled ↔ (before.ruledAt tenant target).isSome := by
  rw [sound.acknowledged target, Option.isSome_iff_exists]
  constructor
  · rintro ⟨row, member, ruling⟩
    exact ⟨row.createdAt, (sound.ruledAt_iff ..).mpr ⟨row, member, ruling, rfl⟩⟩
  · rintro ⟨instant, found⟩
    obtain ⟨row, member, ruling, _⟩ := (sound.ruledAt_iff ..).mp found
    exact ⟨row, member, ruling⟩

/-- In a sound state `approved` is reported at a ruled head only for a run that
was forced after the ruling. -/
theorem Sound.approved_reported (sound : Sound tenant before) {target : PrHead}
    (ruled : target ∈ before.ruled)
    (reported : ⟨target.pr, target.head, .approved⟩ ∈
      recordedReviewVerdicts tenant target.workspace before.ledger.rows) :
    ∃ row ∈ before.ledger.rows, target.IsOf row ∧ row.state = .completed ∧
      row.reviewVerdict = some .approved ∧
      MayOverrule (before.ruledAt tenant target) row := by
  obtain ⟨row, inRows, sameHead, sameVerdict, concluded, latest, latestIn,
    sameId, greatest⟩ := mem_recordedReviewVerdicts reported
  obtain ⟨entry, member, rfl⟩ := List.mem_map.mp inRows
  obtain ⟨other, otherIn, rfl⟩ := List.mem_map.mp latestIn
  have sameEntry := sound.ordered.eq_of_id otherIn member sameId
  subst sameEntry
  simp only [concludedReview, Bool.and_eq_true, decide_eq_true_eq] at concluded
  obtain ⟨⟨⟨⟨⟨⟨_, workspace⟩, _⟩, pr⟩, completed⟩, _⟩, _⟩ := concluded
  have ofRow : target.IsOf other.row := ⟨workspace, pr, sameHead⟩
  obtain ⟨_, rulingIn, ruling⟩ := (sound.acknowledged target).mp ruled
  obtain ⟨ruler, rulerIn, rfl⟩ := Ledger.mem_fixed.mp rulingIn
  have human : ruler.row.reviewVerdictSource = some .human := ruling.1
  obtain ⟨state, verdict, kind, _⟩ :=
    sound.sourced.finished ruler rulerIn (by simp [human])
  have tenanted : ruler.row.tenantId = tenant :=
    sound.sourced.tenanted ruler.row.fixed rulingIn
  have rulerConcluded :
      concludedReview tenant target.workspace (some target.pr) ruler.row = true := by
    obtain ⟨rulerWorkspace, rulerPr, _⟩ := ruling.2
    simp only [LoopJob.fixed] at rulerWorkspace rulerPr
    simp [concludedReview, tenanted, rulerWorkspace, kind, rulerPr, state, verdict]
  have notNewer := greatest ruler.row (List.mem_map_of_mem rulerIn) rulerConcluded
  -- the reported row is newer than the ruling, so it has answered it
  have newer : ruler.row.id < other.row.id := by
    rcases Nat.lt_trichotomy ruler.row.id other.row.id with less | same | greater
    · exact less
    · have one := sound.ordered.eq_of_id rulerIn otherIn same
      rw [← one, verdict] at sameVerdict
      cases sameVerdict
    · have less := sound.ordered.recency_lt
        (Ledger.mem_fixed.mpr ⟨other, otherIn, rfl⟩) rulingIn greater
      exact absurd (lt_of_lt_of_le less notNewer) (lt_irrefl _)
  obtain ⟨forced, since⟩ := sound.answered other otherIn ruler.row.fixed rulingIn
    target ruling ofRow newer .approved sameVerdict rfl
  refine ⟨other.row, inRows, ofRow, completed, sameVerdict, forced, ?_⟩
  intro instant isRuled
  obtain ⟨same, sameIn, sameRuling, rfl⟩ := (sound.ruledAt_iff ..).mp isRuled
  have one := sound.sourced.unique same sameIn ruler.row.fixed rulingIn
    (by simp [sameRuling.1]) (by simp [ruling.1]) target sameRuling.2 ruling.2
  subst one
  exact since

/-- A step on one row keeps the state sound when the verdict it leaves there, if
it is a new one, has been forced past every ruling at its head. -/
theorem Sound.lifecycle (sound : Sound tenant before) {id : JobId}
    {label : LifecycleStep} {ledger : Ledger}
    (stepped : before.ledger.lifecycle id label = some ledger)
    (answers : ∀ entry ∈ before.ledger, entry.id = id →
      ∀ moved, entry.step label = some moved →
        moved.row.reviewVerdict = entry.row.reviewVerdict ∨
          ∀ ruling ∈ before.ledger.fixed, ∀ target, IsRuling target ruling →
            target.IsOf entry.row →
            ∀ verdict ∈ moved.row.reviewVerdict, verdict.posts →
              entry.row.reviewForced = true ∧
                ruling.createdAt < entry.row.createdAt) :
    Sound tenant { before with ledger } := by
  obtain ⟨sameFixed, entry, member, sameId, moved, taken, row, isRow, others⟩ :=
    sound.ordered.lifecycle_some stepped
  have frame : row.fixed = entry.row.fixed := by
    rcases isRow with rfl | rfl
    · exact (step_frame taken).1
    · rfl
  have sourced := sound.sourced.lifecycle sound.ordered stepped
  have sameRuled : ∀ target,
      ruledAt tenant { before with ledger } target =
        before.ruledAt tenant target :=
    fun target => sound.sourced.humanRejectionAt_congr sourced
      fun row _ => by rw [sameFixed]
  refine
    { ordered := sound.ordered.of_fixed sameFixed
      sourced
      acknowledged := by
        simp only [sameFixed]
        exact sound.acknowledged
      checked := by
        simp only [sameFixed, sameRuled]
        exact sound.checked
      answered := ?_ }
  simp only [sameFixed]
  intro other inAfter ruling rulingIn target isRuling ofOther newer verdict
    isVerdict posts
  rcases others other inAfter with rfl | earlier
  · have ofEntry : target.IsOf entry.row := by
      have ofFixed : target.IsOf row.fixed := ofOther
      rw [frame] at ofFixed
      exact ofFixed
    have sameForced := congrArg LoopJob.reviewForced frame
    have sameCreated := congrArg LoopJob.createdAt frame
    have sameJob := congrArg LoopJob.id frame
    simp only [LoopJob.fixed] at sameForced sameCreated sameJob
    have old : entry.row.reviewVerdict = some verdict →
        row.reviewForced = true ∧ ruling.createdAt < row.createdAt := by
      intro had
      rw [sameForced, sameCreated]
      exact sound.answered entry member ruling rulingIn target isRuling ofEntry
        (Nat.lt_of_lt_of_eq newer sameJob) verdict had posts
    rcases isRow with rfl | rfl
    · rcases answers entry member sameId moved taken with kept | forced
      · exact old (kept ▸ isVerdict)
      · simp only
        rw [sameForced, sameCreated]
        exact forced ruling rulingIn target isRuling ofEntry verdict isVerdict posts
    · exact old isVerdict
  · exact sound.answered other earlier ruling rulingIn target isRuling ofOther
      newer verdict isVerdict posts

/-- What an insert may add: a run with nothing to say yet, or a conclusion
nobody ran. -/
def Insertable (row : LoopJob) : Prop :=
  (row.reviewVerdictSource = none ∧ row.reviewVerdict = none) ∨
    (row.reviewVerdictSource ≠ none ∧ row.state = .completed ∧
      row.reviewVerdict = some .changesRequested ∧ row.kind = .review)

section Inserting

variable {row : LoopJob}

/-- Where a ruling can be inserted, its head has none so far. -/
theorem Sound.unruled_before (sound : Sound tenant before)
    (fresh : row.id = before.nextId) (sourced : Sourced tenant after.ledger)
    (split : after.ledger.fixed = before.ledger.fixed ++ [row.fixed])
    {target : PrHead} (isRuling : IsRuling target row.fixed) :
    before.ruledAt tenant target = none := by
  by_contra ruledBefore
  obtain ⟨instant, found⟩ := Option.ne_none_iff_exists'.mp ruledBefore
  obtain ⟨earlier, member, earlierRuling, _⟩ := (sound.ruledAt_iff ..).mp found
  have one := sourced.unique earlier (by simp [split, member]) row.fixed
    (by simp [split]) (by simp [earlierRuling.1]) (by simp [isRuling.1])
    target earlierRuling.2 isRuling.2
  have issued := (sound.ordered.issued earlier member).1
  rw [one] at issued
  exact Nat.lt_irrefl _ (Nat.lt_of_lt_of_eq issued fresh.symm)

/-- A call in flight past its hold check stays past it when a row is inserted. -/
theorem Sound.checked_insert (sound : Sound tenant before)
    (onward : before.clock ≤ row.createdAt) (fresh : row.id = before.nextId)
    (sourced : Sourced tenant after.ledger)
    (split : after.ledger.fixed = before.ledger.fixed ++ [row.fixed])
    {call : VerdictCall} (inFlight : call ∈ before.verdicts)
    (posts : call.verdict.posts) :
    humanHoldRefuses call.job call.ruledAt = false ∧
      call.job.fixed ∈ after.ledger.fixed ∧
      (call.ruledAt = after.ruledAt tenant call.target ∨
        (call.ruledAt = none ∧ ∀ instant ∈ after.ruledAt tenant call.target,
          call.job.createdAt ≤ instant)) := by
  obtain ⟨passed, known, reads⟩ := sound.checked call inFlight posts
  refine ⟨passed, by simp [split, known], ?_⟩
  by_cases isRuling : IsRuling call.target row.fixed
  · -- the call checked the hold before this ruling was made
    have unruled := sound.unruled_before fresh sourced split isRuling
    rw [unruled] at reads
    have unseen : call.ruledAt = none := by
      rcases reads with none | ⟨none, _⟩ <;> exact none
    refine .inr ⟨unseen, ?_⟩
    intro instant isRuled
    obtain ⟨ruling, member, sameRuling, rfl⟩ :=
      (sourced.humanRejectionAt_iff ..).mp isRuled
    have one := sourced.unique ruling member row.fixed (by simp [split])
      (by simp [sameRuling.1]) (by simp [isRuling.1]) call.target
      sameRuling.2 isRuling.2
    rw [one]
    exact Int.le_trans (sound.ordered.issued _ known).2 onward
  · have same : after.ruledAt tenant call.target =
        before.ruledAt tenant call.target := by
      refine sound.sourced.humanRejectionAt_congr sourced
        fun other otherRuling => ?_
      rw [split, List.mem_append, List.mem_singleton]
      refine or_iff_left ?_
      rintro rfl
      exact isRuling otherRuling
    rw [same]
    exact reads

/-- The runs newer than a ruling are the same after an insert: the new row is
older than no ruling, and a conclusion nobody ran stands beside none. -/
theorem Sound.answered_insert (sound : Sound tenant before)
    (fresh : row.id = before.nextId) (insertable : Insertable row)
    (sourced : Sourced tenant after.ledger)
    (split : after.ledger.fixed = before.ledger.fixed ++ [row.fixed])
    {entry : Lifecycle} (member : entry ∈ before.ledger ∨ entry = .idle row)
    {ruling : LoopJob} (rulingIn : ruling ∈ after.ledger.fixed) {target : PrHead}
    (isRuling : IsRuling target ruling) (ofEntry : target.IsOf entry.row)
    (newer : ruling.id < entry.row.id) {verdict : ReviewVerdict}
    (isVerdict : verdict ∈ entry.row.reviewVerdict) (posts : verdict.posts) :
    entry.row.reviewForced = true ∧ ruling.createdAt < entry.row.createdAt := by
  rw [split, List.mem_append, List.mem_singleton] at rulingIn
  rcases member with earlier | rfl
  · rcases rulingIn with rulingEarlier | rfl
    · exact sound.answered entry earlier ruling rulingEarlier target isRuling
        ofEntry newer verdict isVerdict posts
    · have issued := (sound.ordered.issued _
        (Ledger.mem_fixed.mpr ⟨entry, earlier, rfl⟩)).1
      exact absurd (Nat.lt_trans newer issued)
        (Nat.not_lt.mpr (Nat.le_of_eq fresh.symm))
  · rcases insertable with ⟨_, silent⟩ | ⟨hasSource, _⟩
    · simp [Lifecycle.idle, silent] at isVerdict
    · rcases rulingIn with rulingEarlier | rfl
      · have one := sourced.unique ruling (by simp [split, rulingEarlier])
          row.fixed (by simp [split]) (by simp [isRuling.1]) hasSource
          target isRuling.2 ofEntry
        rw [one] at newer
        exact absurd newer (Nat.lt_irrefl _)
      · exact absurd newer (Nat.lt_irrefl _)

end Inserting

/-- An insert keeps the state sound when the acknowledged rulings grow by the
ruling that is inserted, and by nothing when the insert is refused. -/
theorem Sound.insertRow (sound : Sound tenant before) {row : LoopJob}
    {now : Instant} {rejections : List ControlPlaneRejection}
    {rulings : List HumanRejection} {ruled : List PrHead}
    (onward : before.clock ≤ now) (fresh : row.id = before.nextId)
    (stamped : row.createdAt = now) (tenanted : row.tenantId = tenant)
    (insertable : Insertable row)
    (acknowledged : ∀ target,
      target ∈ ruled ↔ target ∈ before.ruled ∨ IsRuling target row)
    (refused : before.ledger.insert row = none →
      ∀ target, IsRuling target row → target ∈ before.ruled) :
    Sound tenant
      (Reviews.insertRow row
        { before with clock := now, rejections, rulings, ruled }) := by
  have laterOrdered := sound.ordered.later onward
  cases attempt : before.ledger.insert row with
  | none =>
      have same : ∀ target, target ∈ ruled ↔ target ∈ before.ruled := by
        intro target
        rw [acknowledged]
        exact or_iff_left_of_imp (refused attempt target)
      simp only [Reviews.insertRow, attempt, Option.getD_none]
      exact
        { ordered := ⟨laterOrdered.increasing, fun row member =>
            ⟨Nat.lt_succ_of_lt (laterOrdered.issued row member).1,
              (laterOrdered.issued row member).2⟩⟩
          sourced := sound.sourced
          acknowledged := fun target =>
            (same target).trans (sound.acknowledged target)
          checked := sound.checked
          answered := sound.answered }
  | some ledger =>
      have appended := (Ledger.insert_some attempt).1
      have sourced := sound.sourced.insert tenanted (fun hasSource =>
        (insertable.resolve_left fun silent => hasSource silent.1).2) attempt
      have split : ledger.fixed = before.ledger.fixed ++ [row.fixed] := by
        simp [appended, Ledger.fixed, Lifecycle.idle]
      simp only [Reviews.insertRow, attempt, Option.getD_some]
      refine
        { ordered := appended ▸ laterOrdered.append fresh stamped
          sourced
          acknowledged := ?_
          checked := ?_
          answered := ?_ }
      · intro target
        simp only [split, List.mem_append, List.mem_singleton]
        rw [acknowledged, sound.acknowledged]
        constructor
        · rintro (⟨ruling, member, isRuling⟩ | isRuling)
          · exact ⟨ruling, .inl member, isRuling⟩
          · exact ⟨row.fixed, .inr rfl, isRuling⟩
        · rintro ⟨ruling, member | rfl, isRuling⟩
          · exact .inl ⟨ruling, member, isRuling⟩
          · exact .inr isRuling
      · intro call inFlight posts
        exact sound.checked_insert (Int.le_trans onward (Int.le_of_eq stamped.symm))
          fresh sourced split inFlight posts
      · intro entry member ruling rulingIn target isRuling ofEntry newer verdict
          isVerdict posts
        rw [appended, List.mem_append, List.mem_singleton] at member
        exact sound.answered_insert fresh insertable sourced split member rulingIn
          isRuling ofEntry newer isVerdict posts

/-- A row with no source is nobody's ruling. -/
theorem not_isRuling_of_source {row : LoopJob} {target : PrHead}
    (notHuman : row.reviewVerdictSource ≠ some .human) :
    ¬ IsRuling target row :=
  fun ruling => notHuman ruling.1

/-- The check of a verdict puts a call in flight only past the hold. -/
theorem Sound.checkVerdict (sound : Sound tenant before) (id : JobId)
    (verdict : ReviewVerdict) :
    Sound tenant (before.checkVerdict tenant id verdict) := by
  unfold Reviews.checkVerdict
  cases found : Table.find Lifecycle.id before.ledger id with
  | none => exact sound
  | some entry =>
      obtain ⟨member, _⟩ := Table.find_some found
      dsimp only
      split
      · rename_i workspace pr head ofWorkspace ofPr ofHead
        by_cases refused : (verdict.posts && humanHoldRefuses entry.row
            (if verdict.posts then before.ruledAt tenant ⟨workspace, pr, head⟩
              else none)) = true
        · rw [if_pos refused]
          exact sound
        · rw [if_neg refused]
          refine ⟨sound.ordered, sound.sourced, sound.acknowledged, ?_,
            sound.answered⟩
          intro call inFlight posts
          rw [List.mem_append, List.mem_singleton] at inFlight
          rcases inFlight with earlier | rfl
          · exact sound.checked call earlier posts
          · simp only at posts
            simp only [posts, if_true, Bool.true_and, Bool.not_eq_true] at refused ⊢
            exact ⟨refused, Ledger.mem_fixed.mpr ⟨entry, member, rfl⟩, .inl rfl⟩
      · exact sound

/-- A posting verdict that is stored while its hold check still stands has been
forced past every ruling at its head. -/
theorem Sound.storeVerdict (sound : Sound tenant before) {call : VerdictCall}
    {now : Instant} (inFlight : call ∈ before.verdicts)
    (current : call.verdict.posts → before.Stores call now →
      call.ruledAt = before.ruledAt tenant call.target) {ledger : Ledger}
    (stepped : before.ledger.lifecycle call.job.id
      (.setReviewVerdict now call.verdict) = some ledger) :
    Sound tenant { before with ledger } := by
  refine sound.lifecycle stepped ?_
  intro entry member sameId moved taken
  cases taken
  cases written : Repo.setReviewVerdict now call.verdict entry.row with
  | none =>
      rw [write_of_unmatched written]
      exact .inl rfl
  | some row =>
      right
      intro ruling rulingIn target isRuling ofEntry verdict isVerdict posts
      have isCalled : verdict = call.verdict := by
        simp only [Lifecycle.write, written, Option.getD_some] at isVerdict
        simp only [Repo.setReviewVerdict, Option.ite_none_right_eq_some,
          Option.some.injEq] at written
        rw [← written.2] at isVerdict
        exact (Option.some.inj isVerdict).symm
      subst isCalled
      have stores : before.Stores call now = true := by
        have found := sound.ordered.keyed.find_of_mem member
        rw [sameId] at found
        simp [Stores, found, written]
      obtain ⟨passed, known, _⟩ := sound.checked call inFlight posts
      obtain ⟨loaded, loadedIn, sameFixed⟩ := Ledger.mem_fixed.mp known
      have sameJob := congrArg LoopJob.id sameFixed
      have one := sound.ordered.eq_of_id loadedIn member (sameJob.trans sameId.symm)
      subst one
      have ofCall : target.IsOf call.job := by
        have ofFixed : target.IsOf loaded.row.fixed := ofEntry
        rw [sameFixed] at ofFixed
        exact ofFixed
      have sameTarget := ofCall.unique call.directed
      subst sameTarget
      rw [current posts stores, (sound.ruledAt_iff ..).mpr
        ⟨ruling, rulingIn, isRuling, rfl⟩] at passed
      simp only [humanHoldRefuses, Bool.not_eq_false', Bool.and_eq_true,
        decide_eq_true_eq] at passed
      have sameForced := congrArg LoopJob.reviewForced sameFixed
      have sameCreated := congrArg LoopJob.createdAt sameFixed
      simp only [LoopJob.fixed] at sameForced sameCreated
      rw [sameForced, sameCreated]
      exact passed

/-- A step that disturbs no ruling keeps the state sound. -/
theorem step_sound {label : ReviewsStep} (sound : Sound tenant before)
    (taken : step tenant before label = some after)
    (undisturbed : Undisturbed tenant before label after) :
    Sound tenant after := by
  cases label with
  | create now new =>
      obtain ⟨onward, made⟩ := Option.ite_none_right_eq_some.mp taken
      cases made
      exact sound.insertRow onward rfl rfl rfl (.inl ⟨rfl, rfl⟩)
        (fun target => (or_iff_left (not_isRuling_of_source (by simp [Repo.create]))).symm)
        fun _ target ruling => absurd ruling.1 (by simp [Repo.create])
  | lifecycle id label =>
      obtain ⟨silent, stepped⟩ := Option.ite_none_left_eq_some.mp taken
      obtain ⟨ledger, moved, rfl⟩ := Option.map_eq_some_iff.mp stepped
      refine sound.lifecycle moved ?_
      intro entry member sameId moved taken
      exact .inl ((step_frame taken).2 (Bool.not_eq_true _ ▸ silent))
  | checkVerdict id verdict =>
      cases taken
      exact sound.checkVerdict id verdict
  | abandonVerdict index =>
      obtain ⟨call, _, rfl⟩ := Option.map_eq_some_iff.mp taken
      exact ⟨sound.ordered, sound.sourced, sound.acknowledged,
        fun call inFlight => sound.checked call (List.mem_of_mem_eraseIdx inFlight),
        sound.answered⟩
  | storeVerdict index now =>
      obtain ⟨call, inFlight, rfl⟩ := Option.map_eq_some_iff.mp taken
      have stored : Sound tenant
          { before with
            ledger := (before.ledger.lifecycle call.job.id
              (.setReviewVerdict now call.verdict)).getD before.ledger } := by
        cases stepped : before.ledger.lifecycle call.job.id
            (.setReviewVerdict now call.verdict) with
        | none => exact sound
        | some ledger =>
            exact sound.storeVerdict (List.mem_of_getElem? inFlight)
              (undisturbed call inFlight) stepped
      exact ⟨stored.ordered, stored.sourced, stored.acknowledged,
        fun call inFlight => stored.checked call (List.mem_of_mem_eraseIdx inFlight),
        stored.answered⟩
  | selectRejection rejection =>
      simp only [step] at taken
      split at taken
      · cases taken
        exact sound
      · cases taken
        exact ⟨sound.ordered, sound.sourced, sound.acknowledged, sound.checked,
          sound.answered⟩
  | insertRejection index now =>
      obtain ⟨onward, made⟩ := Option.ite_none_right_eq_some.mp taken
      obtain ⟨rejection, _, rfl⟩ := Option.map_eq_some_iff.mp made
      have notHuman : (rejectionRow now before.nextId tenant rejection.target
          rejection.requestedBy rejection.seed
          rejection.source).reviewVerdictSource ≠ some .human :=
        fun human => rejection.notHuman (Option.some.inj human)
      exact sound.insertRow onward rfl rfl rfl
        (.inr ⟨by simp [rejectionRow], rfl, rfl, rfl⟩)
        (fun target => (or_iff_left (not_isRuling_of_source notHuman)).symm)
        fun _ target ruling => absurd ruling.1 notHuman
  | selectRuling ruling =>
      simp only [step] at taken
      split at taken
      · rename_i already
        cases taken
        have ruled := (sound.ruled_iff ruling.target).mpr already
        refine ⟨sound.ordered, sound.sourced, ?_, sound.checked, sound.answered⟩
        intro target
        rw [List.mem_append, List.mem_singleton, ← sound.acknowledged]
        refine or_iff_left_of_imp ?_
        rintro rfl
        exact ruled
      · cases taken
        exact ⟨sound.ordered, sound.sourced, sound.acknowledged, sound.checked,
          sound.answered⟩
  | insertRuling index now =>
      obtain ⟨onward, made⟩ := Option.ite_none_right_eq_some.mp taken
      obtain ⟨ruling, inFlight, rfl⟩ := Option.map_eq_some_iff.mp made
      refine sound.insertRow onward rfl rfl rfl
        (.inr ⟨by simp [rejectionRow], rfl, rfl, rfl⟩) ?_ ?_
      · intro target
        rw [List.mem_append, List.mem_singleton]
        refine or_congr_right ⟨?_, ?_⟩
        · rintro rfl
          exact ⟨rfl, rfl, rfl, rfl⟩
        · intro isRuling
          exact isRuling.2.unique ⟨rfl, rfl, rfl⟩
      · intro refused target isRuling
        have sameTarget : target = ruling.target :=
          isRuling.2.unique ⟨rfl, rfl, rfl⟩
        subst sameTarget
        obtain ⟨other, inRows, clashes⟩ := Ledger.insert_none refused
        obtain ⟨entry, member, rfl⟩ := List.mem_map.mp inRows
        simp only [clash, sameLivePr, sameLiveBuild, rejectionRow, isLive,
          Option.isSome_some, Option.isSome_none, Bool.and_false, Bool.false_and,
          Bool.true_and, Bool.and_true, Bool.false_or, sameSourcedHead,
          Bool.and_eq_true, reduceCtorEq, decide_false] at clashes
        obtain ⟨⟨⟨hasSource, workspace⟩, pr⟩, head⟩ := clashes
        have ofEntry : ruling.target.IsOf entry.row :=
          ⟨(of_decide_eq_true workspace).symm, (of_decide_eq_true pr).symm,
            (of_decide_eq_true head).symm⟩
        have human : entry.row.reviewVerdictSource = some .human :=
          (undisturbed ruling inFlight entry.row (List.mem_map_of_mem member)
            ofEntry).resolve_left (Option.isSome_iff_ne_none.mp hasSource)
        exact (sound.acknowledged _).mpr ⟨_,
          Ledger.mem_fixed.mpr ⟨entry, member, rfl⟩, human, ofEntry⟩

/-- A refused ruling has met a conclusion nobody ran at its own head. -/
theorem insert_ruling_refused {now : Instant} {ruling : HumanRejection}
    {row : LoopJob} (inRows : row ∈ before.ledger.rows)
    (ofRow : ruling.target.IsOf row) (hasSource : row.reviewVerdictSource ≠ none) :
    before.ledger.insert
      (rejectionRow now before.nextId tenant ruling.target ruling.requestedBy
        ruling.seed .human) = none := by
  obtain ⟨workspace, pr, head⟩ := ofRow
  refine if_pos (List.any_eq_true.mpr ⟨row, inRows, ?_⟩)
  simp [clash, sameSourcedHead, rejectionRow, workspace, pr, head,
    Option.isSome_iff_ne_none.mpr hasSource]

/-- On a sound state, a step upholds every ruling exactly when it disturbs
none. -/
theorem rulingHolds_iff_undisturbed {label : ReviewsStep}
    (sound : Sound tenant before)
    (taken : step tenant before label = some after) :
    Undisturbed tenant before label after ↔
      RulingHolds tenant before label after := by
  constructor
  · intro undisturbed
    have soundAfter := step_sound sound taken undisturbed
    refine ⟨fun target ruled => (soundAfter.ruled_iff target).mp ruled, ?_,
      fun target ruled reported => soundAfter.approved_reported ruled reported⟩
    cases label with
    | storeVerdict index now =>
        intro call inFlight posts stores ruled
        obtain ⟨passed, _, _⟩ :=
          sound.checked call (List.mem_of_getElem? inFlight) posts
        rw [undisturbed call inFlight posts stores] at passed
        obtain ⟨instant, isRuled⟩ :=
          Option.isSome_iff_exists.mp ((sound.ruled_iff _).mp ruled)
        simp only [isRuled, humanHoldRefuses, Bool.not_eq_false',
          Bool.and_eq_true, decide_eq_true_eq] at passed
        refine ⟨passed.1, fun other isOther => ?_⟩
        rw [isRuled] at isOther
        cases isOther
        exact passed.2
    | _ => trivial
  · rintro ⟨reported, refused, _⟩
    cases label with
    | storeVerdict index now =>
        intro call inFlight posts stores
        obtain ⟨_, _, current | ⟨unseen, since⟩⟩ :=
          sound.checked call (List.mem_of_getElem? inFlight) posts
        · exact current
        · rw [unseen]
          cases ruled : before.ruledAt tenant call.target with
          | none => rfl
          | some instant =>
              have acknowledged := (sound.ruled_iff call.target).mpr (by simp [ruled])
              have after := (refused call inFlight posts stores acknowledged).2
                instant ruled
              exact absurd after (Int.not_lt.mpr (since instant ruled))
    | insertRuling index now =>
        intro ruling inFlight row inRows ofRow
        by_contra conflicted
        simp only [not_or] at conflicted
        obtain ⟨hasSource, notHuman⟩ := conflicted
        obtain ⟨onward, made⟩ := Option.ite_none_right_eq_some.mp taken
        obtain ⟨other, isOther, rfl⟩ := Option.map_eq_some_iff.mp made
        cases isOther.symm.trans inFlight
        have onLedger := reported ruling.target (by simp [Reviews.insertRow])
        simp only [Reviews.insertRow,
          insert_ruling_refused inRows ofRow hasSource, Option.getD_none] at onLedger
        obtain ⟨instant, isRuled⟩ := Option.isSome_iff_exists.mp onLedger
        obtain ⟨human, humanIn, isRuling, _⟩ := (sound.ruledAt_iff ..).mp isRuled
        obtain ⟨entry, member, rfl⟩ := List.mem_map.mp inRows
        have one := sound.sourced.unique human humanIn entry.row.fixed
          (Ledger.mem_fixed.mpr ⟨entry, member, rfl⟩) (by simp [isRuling.1])
          hasSource ruling.target isRuling.2 ofRow
        have sameSource := congrArg LoopJob.reviewVerdictSource one
        exact notHuman (sameSource.symm.trans isRuling.1)
    | _ => trivial

end Reviews

/-- A person's ruling holds along a run exactly when nothing disturbs one: no
ruling is inserted at a head where the control plane's own rejection stands, and
no posting verdict is stored after a ruling its hold check did not see. -/
theorem ruling_holds_iff (tenant : TenantId) (steps : List ReviewsStep) :
    Along (Reviews.step tenant) (RulingHolds tenant) Reviews.empty steps ↔
      Along (Reviews.step tenant) (Undisturbed tenant) Reviews.empty steps :=
  (along_iff_of_invariant (Reviews.Sound tenant)
    (fun _ _ _ sound taken undisturbed =>
      Reviews.step_sound sound taken undisturbed)
    (fun _ _ _ sound taken => Reviews.rulingHolds_iff_undisturbed sound taken)
    Reviews.empty_sound).symm

section Runs

instance (ruled : Option Instant) (row : LoopJob) :
    Decidable (MayOverrule ruled row) :=
  inferInstanceAs (Decidable (_ ∧ _))

instance RulingHolds.decidable (tenant : TenantId) (before : Reviews)
    (label : ReviewsStep) (after : Reviews) :
    Decidable (RulingHolds tenant before label after) :=
  match label with
  | .storeVerdict _ _ => inferInstanceAs (Decidable (_ ∧ (∀ _ ∈ _, _) ∧ _))
  | .create _ _ | .lifecycle _ _ | .checkVerdict _ _ | .abandonVerdict _
  | .selectRejection _ | .insertRejection _ _ | .selectRuling _
  | .insertRuling _ _ => inferInstanceAs (Decidable (_ ∧ True ∧ _))

/-- A person asks for changes at a head the control plane has already rejected
for a conflict.  The INSERT meets the index, nothing is written, and
`request_changes` returns `Ok` all the same. -/
theorem ruling_lost_to_conflict :
    ¬ Along (Reviews.step 1) (RulingHolds 1) Reviews.empty
      [.selectRejection ⟨⟨3, 12, "abc"⟩, 2, "conflicts with main", .conflict,
          by decide⟩,
        .insertRejection 0 1, .selectRuling ⟨⟨3, 12, "abc"⟩, 4, "rename it"⟩,
        .insertRuling 0 2] := by
  decide

/-- A review run that nobody forced. -/
def reviewRun : NewLoopJob :=
  { id := 0, tenant := 1, kind := .review, targetTaskId := none
    workspaceId := some 3, requestedBy := 2, seed := none
    predecessorJobId := none, reviewPrNumber := some 12
    reviewHeadSha := some "abc", reviewForced := false
    buildFingerprint := none }

/-- The other way to lose one: the person rules while an approval that has
passed its hold check waits for the forge. -/
example :
    ¬ Along (Reviews.step 1) (RulingHolds 1) Reviews.empty
      [.create 0 reviewRun, .lifecycle 0 (.claimForExecutor 1 5),
        .checkVerdict 0 .approved,
        .selectRuling ⟨⟨3, 12, "abc"⟩, 4, "rename it"⟩, .insertRuling 0 2,
        .storeVerdict 0 3] := by
  decide

end Runs

end NookOs.Jobs
