/-
Module: NookOs.Forge.Reads
Purpose: The forge's list reads: what each asks for, how much of the repository
  an answer covers, and which requests may fail under it.
Trusted boundary: none
Main exports: Repository, Api, needingReview, mergedSince, mergedPrsSince, issueCommentBodies
-/
import NookOs.Lib.Paging
import NookOs.Jobs.WorkSource

namespace NookOs.Forge

open Lib
open Jobs (PullRequest Instant)

/-! ### What the API serves -/

/-- A read that failed: the API refused it, or it did not come to an answer. -/
inductive ForgeError where
  | http (status : Nat) (body : String)
  | other (detail : String)
deriving DecidableEq

inductive PullState where
  | opened
  | closed
deriving DecidableEq

inductive PullSort where
  | created
  | updated
deriving DecidableEq

/-- A request for a page of a repository's pull requests, newest first. -/
structure ListPulls where
  state : PullState
  sort : PullSort := .created
  perPage : Nat := 30
  page : Nat := 1
deriving DecidableEq

/-- A request of one of the list reads. -/
inductive Request where
  | pulls (query : ListPulls)
  | comments (number perPage page : Nat)
deriving DecidableEq

/-- A pull request of the repository.  `head` is absent where the repository it
came from cannot be read. -/
structure Pull where
  number : Nat
  state : PullState
  draft : Bool
  head : Option String
  labels : List String
  baseRef : String
  body : Option String
  createdAt : Instant
  updatedAt : Instant
  mergedAt : Option Instant
deriving DecidableEq

/-- What a pull request is sorted by. -/
def PullSort.key : PullSort → Pull → Instant
  | .created => Pull.createdAt
  | .updated => Pull.updatedAt

/-- A repository as the API documents it: each list holds the pull requests in
the state asked for, in the order asked for, and a merge closes and updates. -/
structure Repository where
  pulls : List Pull
  listing : PullState → PullSort → List Pull
  comments : Nat → List (Option String)
  numbered : (pulls.map Pull.number).Nodup
  listed : ∀ state sort, (listing state sort).Perm (pulls.filter (·.state = state))
  newestFirst : ∀ state sort, (listing state sort).Pairwise fun first second =>
    sort.key second ≤ sort.key first
  mergeCloses : ∀ pull ∈ pulls, pull.mergedAt ≠ none → pull.state = .closed
  mergeUpdates : ∀ pull ∈ pulls, ∀ merged ∈ pull.mergedAt, merged ≤ pull.updatedAt

/-- The API during a read: a repository, and which of its requests fail. -/
structure Api where
  repository : Repository
  failing : Request → Option ForgeError

/-- An entry of a list of pull requests, as the fields that are read of it. -/
structure PullDocument where
  number : Option Nat
  draft : Option Bool
  headSha : Option String
  labels : Option (List (Option String))
  baseRef : Option String
  body : Option String
  mergedAt : Option Instant
deriving DecidableEq

def Pull.document (pull : Pull) : PullDocument :=
  { number := some pull.number
    draft := some pull.draft
    headSha := pull.head
    labels := some (pull.labels.map some)
    baseRef := some pull.baseRef
    body := pull.body
    mergedAt := pull.mergedAt }

namespace Api

variable (api : Api)

/-- A page of pull requests, or the failure of its request. -/
def pulls (query : ListPulls) : Except ForgeError (List PullDocument) :=
  match api.failing (.pulls query) with
  | some failure => .error failure
  | none =>
      .ok ((Paging.page query.perPage
        (api.repository.listing query.state query.sort) query.page).map Pull.document)

/-- A page of a thread's comments, oldest first. -/
def comments (number perPage page : Nat) : Except ForgeError (List (Option String)) :=
  match api.failing (.comments number perPage page) with
  | some failure => .error failure
  | none => .ok (Paging.page perPage (api.repository.comments number) page)

end Api

/-! ### The reads -/

/-- One page is all that is read of a list of pull requests. -/
def pageSize : Nat := 100

/-- Past this, the comments are not read. -/
def maxCommentPages : Nat := 20

/-- The pull request a reviewer would pick up: not a draft, and at a head that
can be compared with that of its last run. -/
def reviewable (document : PullDocument) : Option PullRequest :=
  if document.draft = some true then none
  else do
    let number ← document.number
    let headSha ← document.headSha
    return {
      number := number
      headSha := headSha
      labels := (document.labels.getD []).filterMap id
      baseRef := document.baseRef.getD "" }

def needingReview (documents : List PullDocument) : List PullRequest :=
  documents.filterMap reviewable

/-- One merged pull request. -/
structure MergedPr where
  number : Nat
  body : String
  mergedAt : Instant
deriving DecidableEq

/-- The pull request, where it was merged from an instant on. -/
def mergedFrom (since : Instant) (document : PullDocument) : Option MergedPr := do
  let mergedAt ← document.mergedAt
  if mergedAt < since then none
  else
    let number ← document.number
    return { number := number, body := document.body.getD "", mergedAt := mergedAt }

/-- The merged pull requests of a list, newest merge first. -/
def mergedSince (since : Instant) (documents : List PullDocument) : List MergedPr :=
  Paging.byRecency MergedPr.mergedAt (documents.filterMap (mergedFrom since))

def prsNeedingReview (api : Api) : Except ForgeError (List PullRequest) := do
  let documents ← api.pulls { state := .opened, perPage := pageSize }
  return needingReview documents

def mergedPrsSince (api : Api) (since : Instant) : Except ForgeError (List MergedPr) := do
  let documents ← api.pulls { state := .closed, sort := .updated, perPage := pageSize }
  return mergedSince since documents

/-- More comments than are read. -/
def tooManyComments : ForgeError :=
  .other ("more than " ++ toString (maxCommentPages * pageSize) ++
    " comments — cannot prove a marker absent")

/-- All pages, from the oldest comment on. -/
def issueCommentBodies (api : Api) (number : Nat) : Except ForgeError (List String) :=
  Paging.walk pageSize (api.comments number pageSize) id tooManyComments maxCommentPages 1 []

/-! ### What an answer covers -/

section Cover

variable {api : Api} {number : Nat} {since : Instant}

/-- The pull requests a list read sees: the first page in the order it asks for. -/
def Repository.seen (repository : Repository) (state : PullState) (sort : PullSort) :
    List Pull :=
  (repository.listing state sort).take pageSize

/-- What a reviewer is told of a pull request. -/
def Pull.request (pull : Pull) : Option PullRequest :=
  if pull.draft then none
  else pull.head.map fun headSha =>
    { number := pull.number
      headSha := headSha
      labels := pull.labels
      baseRef := pull.baseRef }

/-- What is told of a pull request merged from an instant on. -/
def Pull.mergedPr (since : Instant) (pull : Pull) : Option MergedPr :=
  (pull.mergedAt.filter (since ≤ ·)).map fun mergedAt =>
    { number := pull.number, body := pull.body.getD "", mergedAt := mergedAt }

@[simp] theorem reviewable_document (pull : Pull) :
    reviewable pull.document = pull.request := by
  cases isDraft : pull.draft with
  | true => simp [reviewable, Pull.document, Pull.request, isDraft]
  | false =>
      cases readable : pull.head with
      | none => simp [reviewable, Pull.document, Pull.request, isDraft, readable]
      | some headSha => simp [reviewable, Pull.document, Pull.request, isDraft, readable]

@[simp] theorem mergedFrom_document (pull : Pull) :
    mergedFrom since pull.document = pull.mergedPr since := by
  cases merged : pull.mergedAt with
  | none => simp [mergedFrom, Pull.document, Pull.mergedPr, merged]
  | some mergedAt =>
      by_cases early : mergedAt < since
      · simp [mergedFrom, Pull.document, Pull.mergedPr, merged, Option.filter, early]
      · simp [mergedFrom, Pull.document, Pull.mergedPr, merged, Option.filter, early,
          Int.not_lt.mp early]

theorem pulls_ok {query : ListPulls} {documents : List PullDocument} (first : query.page = 1)
    (size : query.perPage = pageSize) (answered : api.pulls query = .ok documents) :
    documents = (api.repository.seen query.state query.sort).map Pull.document := by
  unfold Api.pulls at answered
  split at answered
  · cases answered
  · rw [← Except.ok.inj answered, Repository.seen, first, size, Paging.page]
    simp

theorem prsNeedingReview_ok {prs : List PullRequest} (answered : prsNeedingReview api = .ok prs) :
    prs = (api.repository.seen .opened .created).filterMap Pull.request := by
  obtain ⟨documents, read, told⟩ := Fallible.bind_ok answered
  rw [← Except.ok.inj told, pulls_ok rfl rfl read, needingReview, List.filterMap_map]
  exact List.filterMap_congr fun pull _ => reviewable_document pull

theorem mergedPrsSince_ok {merged : List MergedPr}
    (answered : mergedPrsSince api since = .ok merged) :
    merged = Paging.byRecency MergedPr.mergedAt
      ((api.repository.seen .closed .updated).filterMap (Pull.mergedPr since)) := by
  obtain ⟨documents, read, told⟩ := Fallible.bind_ok answered
  rw [← Except.ok.inj told, pulls_ok rfl rfl read, mergedSince, List.filterMap_map]
  exact congrArg _ (List.filterMap_congr fun pull _ => mergedFrom_document pull)

/-- A read of comments that succeeds has read every one of them. -/
theorem issueCommentBodies_ok {bodies : List String}
    (answered : issueCommentBodies api number = .ok bodies) :
    bodies = (api.repository.comments number).filterMap id := by
  refine Paging.walk_ok ?_ 0 (by simp) answered
  intro page given fetched
  unfold Api.comments at fetched
  split at fetched
  · cases fetched
  · exact (Except.ok.inj fetched).symm

theorem Repository.mem_seen {repository : Repository} {state : PullState} {sort : PullSort}
    {pull : Pull} (member : pull ∈ repository.seen state sort) :
    pull ∈ repository.pulls ∧ pull.state = state := by
  have listed := (repository.listed state sort).mem_iff.mp (List.mem_of_mem_take member)
  simpa using List.mem_filter.mp listed

/-- Where those that may be asked about fit on a page, all of them are seen. -/
theorem Repository.mem_seen_of_fits {repository : Repository} {state : PullState}
    (sort : PullSort) {pull : Pull} {bound : Instant}
    (fits : (repository.pulls.filter fun other =>
      other.state = state ∧ bound ≤ sort.key other).length ≤ pageSize)
    (member : pull ∈ repository.pulls) (inState : pull.state = state)
    (recent : bound ≤ sort.key pull) : pull ∈ repository.seen state sort := by
  refine Paging.mem_take_of_recent bound (repository.newestFirst state sort) ?_ ?_
    recent
  · have same :=
      ((repository.listed state sort).filter fun other => bound ≤ sort.key other).length_eq
    rw [same, List.filter_filter]
    simpa [Bool.and_comm] using fits
  · exact (repository.listed state sort).mem_iff.mpr
      (List.mem_filter.mpr ⟨member, by simpa using inState⟩)

theorem Repository.seen_numbered (repository : Repository) (state : PullState)
    (sort : PullSort) : ((repository.seen state sort).map Pull.number).Nodup := by
  have filtered : ((repository.pulls.filter (·.state = state)).map Pull.number).Nodup :=
    repository.numbered.sublist (List.filter_sublist.map _)
  have whole : ((repository.listing state sort).map Pull.number).Nodup :=
    ((repository.listed state sort).map Pull.number).nodup_iff.mpr filtered
  exact whole.sublist ((List.take_sublist _ _).map _)

/-- What keeps the number of what it reads reads each number once. -/
theorem filterMap_numbered {Told : Type} {tell : Pull → Option Told} {number : Told → Nat}
    (keeps : ∀ pull, ∀ told ∈ tell pull, number told = pull.number) {pulls : List Pull}
    (numbered : (pulls.map Pull.number).Nodup) :
    ((pulls.filterMap tell).map number).Nodup := by
  refine numbered.sublist ?_
  induction pulls with
  | nil => exact List.Sublist.slnil
  | cons pull rest ih =>
      have below := ih (List.nodup_cons.mp numbered).2
      cases told : tell pull with
      | none =>
          rw [List.filterMap_cons_none told]
          exact below.cons _
      | some read =>
          rw [List.filterMap_cons_some told, List.map_cons, List.map_cons,
            keeps pull read told]
          exact below.cons_cons _

end Cover

end NookOs.Forge
