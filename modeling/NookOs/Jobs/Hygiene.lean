/-
Module: NookOs.Jobs.Hygiene
Purpose: The hygiene pass over a workspace's open pull requests: what it decides
  for each, and the rejection it records before it labels one.
Trusted boundary: none
Main exports: plan, Repair, JobStore.recordControlPlaneRejection, healAction, heal
-/
import NookOs.Jobs.History

namespace NookOs.Jobs

open Lib

/-!
The forge is what it answers during the pass: `none` is a read that failed, and
`false` a write that did.  The mirror onto the card is left out: it writes
nothing that the pass or the repair queue reads.
-/

/-- The labels a verdict can put on a pull request. -/
def verdictLabels : List String :=
  ["loop-approved", "loop-changes-requested", "needs-human-review"]

/-- The label of a recorded verdict. -/
def verdictLabel : ReviewVerdict → Option String
  | .approved => some "loop-approved"
  | .changesRequested => some "loop-changes-requested"
  | .needsHuman => some "needs-human-review"
  | .skipped => none

/-- What one pass decided for one pull request, before any IO. -/
inductive Action where
  | restore (pr : Nat) (label : String)
  | inspect (pr : Nat) (head : String)
deriving DecidableEq

/-- The label a pull request has lost, from the verdict recorded at its head. -/
def restoredLabel (recorded : List RecordedVerdict) (pr : PullRequest) :
    Option String :=
  if verdictLabels.any (· ∈ pr.labels) then none
  else
    (recorded.find? fun verdict =>
      verdict.reviewPrNumber = asI64 pr.number &&
        verdict.reviewHeadSha = pr.headSha).bind
      fun verdict => verdictLabel verdict.reviewVerdict

/-- What a pass decides for one pull request. -/
def planOne (recorded : List RecordedVerdict) (pr : PullRequest) : List Action :=
  if "needs-human-review" ∈ pr.labels then []
  else
    let restored := restoredLabel recorded pr
    let routed := "loop-changes-requested" ∈ pr.labels ∨
      restored = some "loop-changes-requested" ∨
      restored = some "needs-human-review"
    (restored.map (.restore pr.number)).toList ++
      if routed then [] else [.inspect pr.number pr.headSha]

/-- The decision rule. -/
def plan (prs : List PullRequest) (recorded : List RecordedVerdict) :
    List Action :=
  prs.flatMap (planOne recorded)

/-- One reason to return a pull request to the repair queue. -/
structure Repair where
  source : VerdictSource
  marker : String
  seed : String
  comment : String
  summary : String
deriving DecidableEq

namespace Repair

/-- It conflicts with its base branch. -/
def conflict (pr : Nat) (head : String) : Repair :=
  { source := .conflict
    marker := "Loop conflict check of " ++ head
    seed := "PR #" ++ toString pr ++
      " conflicts with its base branch — rebase required. Recorded by the " ++
      "control plane's pull-request hygiene pass: no review run was raised, " ++
      "no agent read this head, and there are no findings behind this verdict."
    comment := "This pull request conflicts with the base branch — rebase " ++
      "required. It is back in the loop's repair queue; the builder's next " ++
      "repair pass rebases it."
    summary := "conflicts with the base branch, rebase required" }

/-- The merge queue threw it out. -/
def ejected (pr : Nat) (head reason : String) : Repair :=
  { source := .queueEjection
    marker := "Loop queue ejection of " ++ head
    seed := "PR #" ++ toString pr ++
      " was ejected from the merge queue — GitHub's reason: " ++ reason ++
      ". Its own checks passed against the base it was branched from; the " ++
      "build the queue ran against the CURRENT base branch failed. The fix is " ++
      "a rebase onto the current base branch and a green build THERE. " ++
      "Recorded by the control plane's pull-request hygiene pass: no review " ++
      "run was raised, no agent read this head, and there are no findings " ++
      "behind this verdict."
    comment := "The merge queue ejected this pull request — GitHub's reason: " ++
      reason ++ ".\n\nIts own checks passed against the base it was branched " ++
      "from. What failed is the build of this pull request merged into the " ++
      "CURRENT base branch, which runs nowhere else — so re-running the checks " ++
      "on this branch will show nothing wrong. It is back in the loop's repair " ++
      "queue: rebase onto the current base branch and make the checks pass " ++
      "THERE."
    summary := "ejected from the merge queue (" ++ reason ++
      ") — the post-merge build failed; rebase onto the current base branch " ++
      "and make it pass there" }

/-- The comment as posted: the marker is the first line. -/
def body (repair : Repair) : String :=
  repair.marker ++ "\n\n" ++ repair.comment

end Repair

/-- A pull request the merge queue ejected. -/
structure QueueEjection where
  headSha : String
  reason : String
deriving DecidableEq

/-- What the forge answers during a pass. -/
structure Forge where
  mergeable : Nat → Option (Option Bool)
  queueEjection : Nat → Option (Option QueueEjection)
  issueCommentBodies : Nat → Option (List String)
  comment : Nat → String → Bool
  setVerdictLabel : Nat → String → Bool

/-- A rejection of the control plane's own: nothing where the head is rejected
already, whoever rejected it. -/
def JobStore.recordControlPlaneRejection (tenant : TenantId) (now : Instant)
    (requestedBy : UserId) (target : PrHead) (repair : Repair)
    (store : JobStore) : JobStore × Bool :=
  if store.ledger.rows.any
      (rejectsAt tenant target.workspace target.pr target.head) then
    (store, false)
  else
    match store.insert now fun id =>
        rejectionRow now id tenant target requestedBy repair.seed
          repair.source with
    | some recorded => (recorded, true)
    | none => (store, false)

/-- What a pass has done so far: the ledger, its counters, and the labels the
forge has taken. -/
structure Healing where
  store : JobStore
  restored : Nat
  marked : Nat
  recorded : Nat
  labelled : List (Nat × String)

section Heal

variable (tenant : TenantId) (workspace : WorkspaceId) (requestedBy : UserId)
  (now : Instant) (forge : Forge)

/-- What is wrong with a pull request, if anything: a conflict before a queue
ejection, and an ejection only at the head the pass is looking at. -/
def diagnose (pr : Nat) (head : String) (mergeable : Option Bool) :
    Option Repair :=
  if mergeable = some false then some (.conflict pr head)
  else
    match forge.queueEjection pr with
    | some (some ejection) =>
        if ejection.headSha = head then some (.ejected pr head ejection.reason)
        else none
    | _ => none

/-- The comment and the label of a recorded rejection.  Neither is tried when
the comments cannot be read, and no label where the comment fails. -/
def announce (pr : Nat) (repair : Repair) (healing : Healing) : Healing :=
  match forge.issueCommentBodies pr with
  | none => healing
  | some bodies =>
      let announced := bodies.any fun posted =>
        posted.toList.tails.any (repair.marker.toList.isPrefixOf ·)
      if !announced && !forge.comment pr repair.body then healing
      else if forge.setVerdictLabel pr "loop-changes-requested" then
        { healing with
          marked := healing.marked + 1
          labelled := healing.labelled ++ [(pr, "loop-changes-requested")] }
      else healing

/-- One action of a pass.  The rejection is recorded before either write to the
forge. -/
def healAction (healing : Healing) : Action → Healing
  | .restore pr label =>
      if forge.setVerdictLabel pr label then
        { healing with
          restored := healing.restored + 1
          labelled := healing.labelled ++ [(pr, label)] }
      else healing
  | .inspect pr head =>
      match forge.mergeable pr with
      | none => healing
      | some mergeable =>
          match diagnose forge pr head mergeable with
          | none => healing
          | some repair =>
              let (store, isNew) := healing.store.recordControlPlaneRejection
                tenant now requestedBy ⟨workspace, asI64 pr, head⟩ repair
              announce forge pr repair
                { healing with
                  store
                  recorded := healing.recorded + if isNew then 1 else 0 }

/-- A whole pass. -/
def heal (prs : List PullRequest) (store : JobStore) : Healing :=
  (plan prs (recordedReviewVerdicts tenant workspace store.ledger.rows)).foldl
    (healAction tenant workspace requestedBy now forge) ⟨store, 0, 0, 0, []⟩

end Heal

end NookOs.Jobs
