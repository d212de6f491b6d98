/-
Module: NookOs.Jobs.WorkSource
Purpose: What managed work exists in a workspace: one item per open pull
  request, one per card the board offers, and one per rejected pull request.
Trusted boundary: none
Main exports: PullRequest, ReviewWork.items, BuildWork, BuildWork.repairItems, BuildWork.items
-/
import NookOs.Jobs.RunHeads

namespace NookOs.Jobs

/-!
The board's two queries decide which cards are offered, by labels, columns and
claims that nothing below reads; a source is handed their answer.  The columns
those queries return are read from the board itself.
-/

/-- An open pull request, as the forge lists it. -/
structure PullRequest where
  number : Nat
  headSha : String
  baseRef : String
  labels : List String
deriving DecidableEq

/-- A `u64` cast to `i64`. -/
def asI64 (number : Nat) : Int :=
  if number < 2 ^ 63 then number else number - 2 ^ 64

/-- Review work: the open pull requests, or nothing known. -/
def ReviewWork.items (prs : Option (List PullRequest)) :
    Option (List WorkItem) :=
  prs.map fun listed => listed.map fun pr =>
    { key := asI64 pr.number
      fingerprint := pr.headSha
      label := "PR #" ++ toString pr.number
      targetTaskId := none
      claimFirst := false
      unblockedAt := none
      conflictBase := none }

/-- A decimal `u64`, with an optional plus sign. -/
def parseU64 (text : List Char) : Option Nat :=
  let digits := match text with
    | '+' :: rest => rest
    | _ => text
  if digits ≠ [] ∧ digits.all Char.isDigit then
    let value := digits.foldl (fun sum digit => sum * 10 + (digit.toNat - 48)) 0
    if value < 2 ^ 64 then some value else none
  else none

/-- The number at the end of a pull request's URL. -/
def prNumberOf (url : String) : Option Nat :=
  parseU64 (url.toList.reverse.takeWhile (· ≠ '/')).reverse

/-- A stable fingerprint of a card's contract.  `uuidV5` is the name-based
UUID in the OID namespace, as text. -/
def cardFingerprint (uuidV5 : String → String) (title : String)
    (description : Option String) : String :=
  uuidV5 ("nook-build-card:" ++ title ++ "\n" ++ description.getD "")

/-- A repair item's fingerprint: the rejected head. -/
def repairFingerprint (headSha : String) : String := "repair:" ++ headSha

/-- A repair's fingerprint is of the repair lane. -/
@[simp] theorem isRepair_repairFingerprint (headSha : String) :
    isRepair (repairFingerprint headSha) = true := by
  simp [isRepair, repairFingerprint, String.toList_append]

/-- What the builder is told a repair is for. -/
def repairLabel (pr : Nat) (source : Option VerdictSource)
    (conflictBase : Option String) : String :=
  let named := "repair PR #" ++ toString pr
  match conflictBase with
  | some base =>
      named ++ " — it CONFLICTS with its base branch `" ++ base ++
        "` and cannot be merged. The contract is a REBASE, not a rewrite: " ++
        "rebase the branch onto `" ++ base ++
        "`, resolve the conflicts, re-verify, and force-push with lease. " ++
        "There are no review findings to work through — nothing is wrong " ++
        "with the change itself, the base moved underneath it."
  | none =>
      match source with
      | some .human =>
          named ++ " — a PERSON requested the changes, not the review agent. " ++
            "Their ruling is an ordinary comment on the pull request, NOT " ++
            "under a `Loop review of <sha>` marker: read the newest human " ++
            "comment there and treat it as the must-fix list."
      | some .queueEjection =>
          named ++ " — the merge queue EJECTED it. Its own checks passed " ++
            "against the base it was branched from; the build the queue ran " ++
            "against the CURRENT base branch failed, and that build runs " ++
            "nowhere else. Rebase onto the current base branch and make the " ++
            "checks pass THERE — re-running this branch's own checks will " ++
            "show nothing wrong."
      | _ => named

/-- What a source of build work holds: the board, the hash a card's contract is
named by, what has been rejected, and which conflicts stand. -/
structure BuildWork where
  board : Board
  uuidV5 : String → String
  rejectedHeads : List RejectedHead
  conflicts : List ConflictedPr

namespace BuildWork

variable (work : BuildWork)

/-- `rejected_heads.get(&pr)`: of two entries of a key the later was collected
last. -/
def rejectedHead (pr : Int) : Option RejectedHead :=
  work.rejectedHeads.reverse.find? (·.reviewPrNumber = pr)

/-- `conflicts.get(&pr)`. -/
def conflictedHead (pr : Int) : Option String :=
  (work.conflicts.reverse.find? (·.reviewPrNumber = pr)).map (·.reviewHeadSha)

/-- The item of a card the board offers. -/
def freshItem (task : TaskId) : Option WorkItem :=
  (work.board task).map fun card =>
    { key := card.number
      fingerprint := cardFingerprint work.uuidV5 card.title card.description
      label := card.key.getD (toString task)
      targetTaskId := some task
      claimFirst := true
      unblockedAt := card.unblockedAt
      conflictBase := none }

/-- The cards the pick query offers, or nothing known. -/
def freshItems (picked : Option (List TaskId)) : Option (List WorkItem) :=
  picked.map fun tasks => tasks.filterMap work.freshItem

/-- The repair a card's pull request is owed. -/
def repairItem (prs : List PullRequest) (task : TaskId) : Option WorkItem := do
  let card ← work.board task
  let prUrl ← card.prUrl
  let prNumber ← prNumberOf prUrl
  let pr ← prs.find? (·.number = prNumber)
  if "loop-changes-requested" ∉ pr.labels then none
  else
    let rejected ← work.rejectedHead (asI64 prNumber)
    let conflictBase :=
      ((work.conflictedHead (asI64 prNumber)).filter (· = pr.headSha)).map
        fun _ => pr.baseRef
    some
      { key := -card.number
        fingerprint := repairFingerprint rejected.reviewHeadSha
        label := repairLabel prNumber rejected.reviewVerdictSource conflictBase
        targetTaskId := some task
        claimFirst := false
        unblockedAt := card.unblockedAt
        conflictBase }

/-- The repairs of the cards in the lane; a forge that does not answer owes
none. -/
def repairItems (lane : List TaskId) (prs : Option (List PullRequest)) :
    List WorkItem :=
  match prs with
  | none => []
  | some listed => lane.filterMap (work.repairItem listed)

/-- Both halves; an unreadable board is nothing known. -/
def items (picked : Option (List TaskId)) (lane : List TaskId)
    (prs : Option (List PullRequest)) : Option (List WorkItem) :=
  (work.freshItems picked).map (· ++ work.repairItems lane prs)

end BuildWork

end NookOs.Jobs
