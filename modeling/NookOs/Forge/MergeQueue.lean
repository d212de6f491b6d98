/-
Module: NookOs.Forge.MergeQueue
Purpose: The history of one pull request, the two documents the forge makes of
  it, and when the ejection read from one is of the head it names.
Trusted boundary: none
Main exports: Event, PrDetails, prDetails, queueEjection, queueEjection_of_log, ejectedAt_iff
-/
import NookOs.Jobs.Hygiene
import Mathlib.Data.List.TakeDrop

namespace NookOs.Forge

open Jobs (Instant QueueEjection)

/-! ### The documents, and what is read of them -/

/-- Where a pull request ended up. -/
inductive MergeState where
  | opened
  | merged
  | closedUnmerged
deriving DecidableEq

/-- The document of one pull request, as the fields that are read of it. -/
structure DetailsDocument where
  mergeable : Option Bool
  merged : Option Bool
  state : Option String
  body : Option String
  headSha : Option String
deriving DecidableEq

structure PrDetails where
  mergeable : Option Bool
  body : String
  mergeState : MergeState
  headSha : String
deriving DecidableEq

/-- A merged pull request is closed too, so the merge is looked at first. -/
def mergeState (document : DetailsDocument) : MergeState :=
  if document.merged = some true then .merged
  else if document.state = some "closed" then .closedUnmerged
  else .opened

def prDetails (document : DetailsDocument) : PrDetails :=
  { mergeable := document.mergeable
    body := document.body.getD ""
    mergeState := mergeState document
    headSha := document.headSha.getD "" }

/-- One removal from the merge queue, as the timeline has it. -/
structure RemovalNode where
  createdAt : Option Instant
  reason : Option String
deriving DecidableEq

/-- What one query of the merge queue returns: `mergeQueueEntry` says that there
is one, and `committedDate` is of the commit at the head. -/
structure QueueDocument where
  merged : Option Bool
  mergeQueueEntry : Bool
  headRefOid : Option String
  timeline : Option (List RemovalNode)
  committedDate : Option Instant
deriving DecidableEq

/-- What the removal of an entry that merged is called. -/
def mergedRemovalReason : String := "merged"

/-- The reason is that of a merge, in any case of its letters. -/
def isMergeReason (reason : String) : Bool :=
  reason.toList.map Char.toLower = mergedRemovalReason.toList.map Char.toLower

def readRemoval (node : RemovalNode) : Option (Instant × String) := do
  let createdAt ← node.createdAt
  let reason ← node.reason
  return (createdAt, reason)

/-- The newest removal; of several of one instant, the last. -/
def newestRemoval (removals : List (Instant × String)) : Option (Instant × String) :=
  removals.foldl (fun newest removal =>
    match newest with
    | none => some removal
    | some found => if found.1 ≤ removal.1 then some removal else some found) none

/-- The ejection of a pull request at its head: not where it merged or is still
queued, nor where it was removed by merging, nor where its head is of a later
date than the removal. -/
def queueEjection (document : QueueDocument) : Option QueueEjection :=
  if document.merged = some true then none
  else if document.mergeQueueEntry then none
  else do
    let headSha ← document.headRefOid
    let nodes ← document.timeline
    let (removedAt, reason) ← newestRemoval (nodes.filterMap readRemoval)
    if isMergeReason reason then none
    else
      let pushedAt ← document.committedDate
      if pushedAt ≤ removedAt then some { headSha := headSha, reason := reason } else none

/-! ### The history of a pull request -/

/-- What can happen to a pull request.  `computed` is the forge finding out
whether it merges cleanly. -/
inductive Happening where
  | push (commit : String)
  | enter
  | remove (reason : String)
  | merge
  | computed (mergeable : Option Bool)
deriving DecidableEq

structure Event where
  time : Instant
  what : Happening
deriving DecidableEq

section Log

/-!
A log lists what happened to a pull request, the latest event first.  `opened`
is the commit it was opened at.
-/

variable (opened : String) (committedDate : String → Instant)

/-- The commit at the head. -/
def headOf : List Event → String
  | [] => opened
  | event :: earlier =>
      match event.what with
      | .push commit => commit
      | _ => headOf earlier

def isMerged (log : List Event) : Bool := log.any (·.what = .merge)

/-- It stands in the merge queue. -/
def isQueued : List Event → Bool
  | [] => false
  | event :: earlier =>
      match event.what with
      | .enter => true
      | .remove _ => false
      | .merge => false
      | _ => isQueued earlier

/-- Whether it merges cleanly, which a push makes unknown. -/
def mergeableOf : List Event → Option Bool
  | [] => none
  | event :: earlier =>
      match event.what with
      | .push _ => none
      | .computed mergeable => mergeable
      | _ => mergeableOf earlier

def removal (event : Event) : Option (Instant × String) :=
  match event.what with
  | .remove reason => some (event.time, reason)
  | _ => none

/-- The removals from the queue, the latest first. -/
def removals (log : List Event) : List (Instant × String) := log.filterMap removal

/-- The head has moved since the latest removal. -/
def movedSince : List Event → Bool
  | [] => false
  | event :: earlier =>
      match event.what with
      | .remove _ => false
      | .push commit => decide (commit ≠ headOf opened earlier) || movedSince earlier
      | _ => movedSince earlier

def detailsDocument (body : Option String) (log : List Event) : DetailsDocument :=
  { mergeable := mergeableOf log
    merged := some (isMerged log)
    state := some (if isMerged log then "closed" else "open")
    body := body
    headSha := some (headOf opened log) }

/-- The timeline holds the last twenty removals, in the order they were made. -/
def queueDocument (log : List Event) : QueueDocument :=
  { merged := some (isMerged log)
    mergeQueueEntry := isQueued log
    headRefOid := some (headOf opened log)
    timeline := some (((removals log).take 20).reverse.map fun removed =>
      { createdAt := some removed.1, reason := some removed.2 })
    committedDate := some (committedDate (headOf opened log)) }

/-- The queue removed the pull request at this head, for a reason other than
merging, and neither was the head moved nor the queue entered since. -/
inductive EjectedAt (head : String) : List Event → Prop where
  | removed {event : Event} {earlier : List Event} {reason : String}
      (what : event.what = .remove reason) (rejected : isMergeReason reason = false)
      (atHead : headOf opened earlier = head) : EjectedAt head (event :: earlier)
  | onward {event : Event} {earlier : List Event} (ejected : EjectedAt head earlier)
      (outside : event.what ≠ .enter) (unmoved : ∀ commit, event.what = .push commit →
        commit = head) : EjectedAt head (event :: earlier)

end Log

section Reading

variable {opened : String} {committedDate : String → Instant} {log : List Event}

/-- Removals in the order they were made end in the newest. -/
theorem newestRemoval_reverse {latest : Instant × String} {earlier : List (Instant × String)}
    (ordered : (latest :: earlier).Pairwise fun later before => before.1 ≤ later.1) :
    newestRemoval (latest :: earlier).reverse = some latest := by
  have below := (List.pairwise_cons.mp ordered).1
  have found : ∀ removals : List (Instant × String),
      (∀ removed ∈ removals, removed.1 ≤ latest.1) →
        ∀ newest, newestRemoval removals = some newest → newest.1 ≤ latest.1 := by
    intro removals
    induction removals using List.reverseRecOn with
    | nil => simp [newestRemoval]
    | append_singleton removals last ih =>
        intro all newest isNewest
        have lastBelow := all last (by simp)
        have before := ih fun removed member => all removed (by simp [member])
        simp only [newestRemoval, List.foldl_append, List.foldl_cons, List.foldl_nil] at isNewest
        split at isNewest
        · cases isNewest
          exact lastBelow
        · rename_i earlierNewest isEarlier
          split at isNewest
          · cases isNewest
            exact lastBelow
          · cases isNewest
            exact before _ isEarlier
  rw [List.reverse_cons, newestRemoval, List.foldl_append]
  simp only [List.foldl_cons, List.foldl_nil]
  split
  · rfl
  · rename_i newest isNewest
    rw [if_pos (found earlier.reverse (by simpa using fun at_ reason => below (at_, reason))
      newest isNewest)]

theorem removals_ordered
    (ordered : log.Pairwise fun later earlier => earlier.time ≤ later.time) :
    (removals log).Pairwise fun later earlier => earlier.1 ≤ later.1 := by
  refine List.Pairwise.filterMap removal ?_ ordered
  intro later earlier inOrder first isFirst second isSecond
  unfold removal at isFirst isSecond
  split at isFirst
  · split at isSecond
    · cases isFirst
      cases isSecond
      exact inOrder
    · cases isSecond
  · cases isFirst

/-- The document of a history is read as its latest removal. -/
theorem queueEjection_document
    (ordered : log.Pairwise fun later earlier => earlier.time ≤ later.time) :
    queueEjection (queueDocument opened committedDate log) =
      if isMerged log = true then none
      else if isQueued log = true then none
      else (removals log).head?.bind fun removed =>
        if isMergeReason removed.2 = true then none
        else if committedDate (headOf opened log) ≤ removed.1 then
          some { headSha := headOf opened log, reason := removed.2 }
        else none := by
  have read : (((removals log).take 20).reverse.map fun removed : Instant × String =>
      ({ createdAt := some removed.1, reason := some removed.2 } : RemovalNode)).filterMap
        readRemoval = ((removals log).take 20).reverse := by
    rw [List.filterMap_map]
    exact List.filterMap_some
  have newest : newestRemoval ((removals log).take 20).reverse = (removals log).head? := by
    have inOrder := (removals_ordered ordered).sublist (List.take_sublist 20 (removals log))
    cases listed : removals log with
    | nil => rfl
    | cons latest earlier =>
        rw [listed, List.take_succ_cons] at inOrder
        rw [List.take_succ_cons, newestRemoval_reverse inOrder, List.head?_cons]
  rw [queueEjection]
  simp only [queueDocument, Option.bind_eq_bind, Option.bind_some, Option.some.injEq, read,
    newest]

/-- What is read of a history: an ejection at the present head, by the latest
removal, where that was no merge and the head is of no later date. -/
theorem queueEjection_of_log
    (ordered : log.Pairwise fun later earlier => earlier.time ≤ later.time)
    {ejection : QueueEjection} :
    queueEjection (queueDocument opened committedDate log) = some ejection ↔
      isMerged log = false ∧ isQueued log = false ∧
        ∃ removed, (removals log).head? = some removed ∧ isMergeReason removed.2 = false ∧
          committedDate (headOf opened log) ≤ removed.1 ∧
          { headSha := headOf opened log, reason := removed.2 } = ejection := by
  rw [queueEjection_document ordered]
  simp only [Option.ite_none_left_eq_some, Option.bind_eq_some_iff,
    Option.ite_none_right_eq_some, Option.some.injEq, Bool.not_eq_true]

/-- An ejection at a head is at the present head, which has not moved since the
latest removal. -/
theorem EjectedAt.unmoved {head : String} (ejected : EjectedAt opened head log) :
    head = headOf opened log ∧ movedSince opened log = false := by
  induction ejected with
  | removed what rejected atHead => simp [headOf, movedSince, what, atHead]
  | @onward event earlier ejected outside unmoved ih =>
      obtain ⟨atHead, still⟩ := ih
      cases what : event.what with
      | push commit =>
          have same := unmoved commit what
          subst same
          simp [headOf, movedSince, what, still, ← atHead]
      | enter => exact absurd what outside
      | remove reason => simp [headOf, movedSince, what, atHead]
      | merge | computed => simp [headOf, movedSince, what, atHead, still]

/-- Outside the queue, the latest removal ejected the head that has not moved
since. -/
theorem ejectedAt_of_unmoved (unmerged : isMerged log = false) (outside : isQueued log = false)
    (still : movedSince opened log = false) {removed : Instant × String}
    (latest : (removals log).head? = some removed)
    (rejected : isMergeReason removed.2 = false) :
    EjectedAt opened (headOf opened log) log := by
  induction log with
  | nil => simp [removals] at latest
  | cons event earlier ih =>
      simp only [isMerged, List.any_cons, Bool.or_eq_false_iff] at unmerged
      cases what : event.what with
      | push commit =>
          simp only [isQueued, movedSince, removals, List.filterMap_cons, removal, what,
            Bool.or_eq_false_iff, decide_eq_false_iff_not, ne_eq, not_not] at outside still latest
          have before := ih unmerged.2 outside still.2 latest
          have here : headOf opened (event :: earlier) = headOf opened earlier := by
            simp [headOf, what, still.1]
          rw [here]
          refine .onward before (by simp [what]) ?_
          intro other isPush
          rw [what, Happening.push.injEq] at isPush
          rw [← isPush, still.1]
      | enter => simp [isQueued, what] at outside
      | remove reason =>
          simp only [removals, List.filterMap_cons, removal, what, List.head?_cons,
            Option.some.injEq] at latest
          subst latest
          exact .removed what rejected (by simp [headOf, what])
      | merge => simp [what] at unmerged
      | computed mergeable =>
          simp only [isQueued, movedSince, removals, List.filterMap_cons, removal, what]
            at outside still latest
          have before := ih unmerged.2 outside still latest
          have here : headOf opened (event :: earlier) = headOf opened earlier := by
            simp [headOf, what]
          rw [here]
          exact .onward before (by simp [what]) (by simp [what])

/-- An ejection that is read names an ejected head exactly where that has not
moved since the latest removal. -/
theorem ejectedAt_iff
    (ordered : log.Pairwise fun later earlier => earlier.time ≤ later.time)
    {ejection : QueueEjection}
    (read : queueEjection (queueDocument opened committedDate log) = some ejection) :
    EjectedAt opened ejection.headSha log ↔ movedSince opened log = false := by
  obtain ⟨unmerged, outside, removed, latest, rejected, _, isEjection⟩ :=
    (queueEjection_of_log ordered).mp read
  subst isEjection
  exact ⟨fun ejected => ejected.unmoved.2,
    fun still => ejectedAt_of_unmoved unmerged outside still latest rejected⟩

end Reading

end NookOs.Forge
