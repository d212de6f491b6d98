/-
Module: NookOs.Jobs.RunHeads
Purpose: What the wakeup rule reads of a workspace's runs, for each work item,
  and which items it then owes a run.
Trusted boundary: none
Main exports: Card, RunHeads, reviewRunHeads, buildRunHeads, WorkItem, owed, liveRuns, liveKeys
-/
import Mathlib.Algebra.Group.Int.Defs
import Mathlib.Algebra.GroupWithZero.Nat
import Mathlib.Data.Finset.Card
import Mathlib.Data.List.Sort
import NookOs.Jobs.Ledger

namespace NookOs.Jobs

open Lib

/-!
`review_run_heads` and `build_run_heads` each run a few plain queries and merge
them in a map by item key.  The map is the list of its values in the order their
keys were first met; nothing that reads it depends on that order.
-/

/-- What the loop reads of a card. -/
structure Card where
  number : Int
  key : Option String
  title : String
  description : Option String
  workspaceId : Option WorkspaceId
  prUrl : Option String
  unblockedAt : Option Instant
  buildLadderClearedAt : Option Instant
deriving DecidableEq

/-- The `tasks` table. -/
abbrev Board := TaskId → Option Card

/-- What the wakeup rule knows about one item's runs. -/
structure RunHeads where
  itemKey : Int
  attemptedHead : Option String := none
  attemptedAt : Option Instant := none
  liveHead : Option String := none
  doneHead : Option String := none
  doneAt : Option Instant := none
  failureStreak : Int := 0
deriving DecidableEq

/-- One unit of managed agent work. -/
structure WorkItem where
  key : Int
  fingerprint : String
  label : String
  targetTaskId : Option TaskId
  claimFirst : Bool
  unblockedAt : Option Instant
  conflictBase : Option String
deriving DecidableEq

section Queries

variable (tenant : TenantId) (workspace : WorkspaceId)

/-- The rows of a kind in a workspace. -/
def runsOf (kind : JobKind) (rows : List LoopJob) : List LoopJob :=
  rows.filter fun row =>
    row.tenantId = tenant && row.workspaceId = some workspace && row.kind = kind

/-- The runs of a kind that are in flight in a workspace. -/
def liveRuns (kind : JobKind) (rows : List LoopJob) : List LoopJob :=
  (runsOf tenant workspace kind rows).filter fun row => isLive row.state

/-- `value = (SELECT MAX(value) … WHERE group)`, which no value is when the
group is empty. -/
def isNewestOf (value : LoopJob → Instant) (group : LoopJob → Bool)
    (rows : List LoopJob) (row : LoopJob) : Bool :=
  ((rows.filter group).map value).max? = some (value row)

/-- A row one of the queries returns. -/
structure HeadRow where
  itemKey : Int
  fingerprint : Option String
  updatedAt : Instant
deriving DecidableEq

/-- `m.entry(key).or_insert_with(…)`, then a change of that entry. -/
def RunHeads.entry (key : Int) (change : RunHeads → RunHeads)
    (heads : List RunHeads) : List RunHeads :=
  Table.upsert RunHeads.itemKey { itemKey := key } change heads

/-- One of the loops that fold a query's rows into the map. -/
def RunHeads.merge (change : HeadRow → RunHeads → RunHeads)
    (heads : List RunHeads) (found : List HeadRow) : List RunHeads :=
  found.foldl (fun heads row => entry row.itemKey (change row) heads) heads

/-- The loop over the runs in flight. -/
def RunHeads.setLive (row : HeadRow) (head : RunHeads) : RunHeads :=
  { head with liveHead := row.fingerprint }

/-- The loop over the runs that concluded nothing. -/
def RunHeads.setAttempted (row : HeadRow) (head : RunHeads) : RunHeads :=
  { head with
    attemptedHead := row.fingerprint
    attemptedAt := some row.updatedAt }

/-- The loop over the concluded reviews. -/
def RunHeads.setReviewed (row : HeadRow) (head : RunHeads) : RunHeads :=
  { head with doneHead := row.fingerprint }

/-- The loop over the concluded builds. -/
def RunHeads.setBuilt (row : HeadRow) (head : RunHeads) : RunHeads :=
  { head with doneHead := row.fingerprint, doneAt := some row.updatedAt }

section Reviews

/-- A review run that concluded nothing. -/
def reviewAttempted (row : LoopJob) : Bool :=
  row.state = .failed || (row.state = .completed && row.reviewVerdict.isNone)

/-- A review run that concluded. -/
def reviewDone (row : LoopJob) : Bool :=
  row.state = .completed && row.reviewVerdict.isSome

/-- The reviews of one pull request, whatever its tenant. -/
def sameReview (row other : LoopJob) : Bool :=
  other.workspaceId = row.workspaceId &&
    other.reviewPrNumber = row.reviewPrNumber && other.kind = .review

/-- A row of the review queries, keyed by its pull request. -/
def reviewHead (row : LoopJob) : Option HeadRow :=
  row.reviewPrNumber.map fun pr => ⟨pr, row.reviewHeadSha, row.updatedAt⟩

def reviewRunHeads (rows : List LoopJob) : List RunHeads :=
  let runs := runsOf tenant workspace .review rows
  let live := runs.filter fun row => isLive row.state
  let attempted := runs.filter fun row =>
    reviewAttempted row && isNewestOf (·.updatedAt)
      (fun other => sameReview row other && reviewAttempted other) rows row
  let done := runs.filter fun row =>
    reviewDone row && isNewestOf (·.createdAt)
      (fun other => sameReview row other && reviewDone other) rows row
  let byPr := RunHeads.merge RunHeads.setLive [] (live.filterMap reviewHead)
  let byPr := RunHeads.merge RunHeads.setReviewed byPr (done.filterMap reviewHead)
  RunHeads.merge RunHeads.setAttempted byPr (attempted.filterMap reviewHead)

end Reviews

section Builds

variable (board : Board)

/-- A fingerprint of the repair lane. -/
def isRepair (fingerprint : String) : Bool :=
  "repair:".toList.isPrefixOf fingerprint.toList

/-- The repair lane is keyed by the negated card number. -/
def keyed (number : Int) (fingerprint : Option String) : Int :=
  if fingerprint.any isRepair then -number else number

/-- A build run that concluded nothing. -/
def buildAttempted (row : LoopJob) : Bool :=
  row.state = .failed || row.state = .canceled ||
    (row.state = .completed && row.buildOutcome.isNone)

/-- A build run that concluded. -/
def buildDone (row : LoopJob) : Bool :=
  row.state = .completed && row.buildOutcome.isSome

/-- Two fingerprints of one lane; comparing with NULL gives no match. -/
def sameLane (row other : LoopJob) : Bool :=
  match row.buildFingerprint, other.buildFingerprint with
  | some fingerprint, some otherFingerprint =>
      isRepair otherFingerprint == isRepair fingerprint
  | _, _ => false

/-- The builds of one card in one lane. -/
def sameBuild (row other : LoopJob) : Bool :=
  other.workspaceId = row.workspaceId &&
    (row.targetTaskId.isSome && other.targetTaskId = row.targetTaskId) &&
    other.kind = .build && sameLane row other

/-- The join on `tasks`. -/
def cardOf (row : LoopJob) : Option Card := row.targetTaskId.bind board

/-- The key a build run is filed under. -/
def buildKey (row : LoopJob) : Option Int :=
  (cardOf board row).map fun card => keyed card.number row.buildFingerprint

/-- A row of the build queries, keyed by its card's number and its lane. -/
def buildHead (row : LoopJob) : Option HeadRow :=
  (buildKey board row).map fun key => ⟨key, row.buildFingerprint, row.updatedAt⟩

/-- A `failed` build run that nothing has answered since. -/
def unansweredFailure (rows : List LoopJob) (row : LoopJob) : Bool :=
  row.kind = .build && row.state = .failed && row.buildOutcome.isNone &&
    (cardOf board row).any (fun card =>
      card.buildLadderClearedAt.all (· < row.updatedAt)) &&
    !rows.any fun other =>
      row.targetTaskId.isSome && other.targetTaskId = row.targetTaskId &&
        other.kind = .build && other.buildOutcome.isSome &&
        row.updatedAt < other.updatedAt

/-- The largest `i32`. -/
def i32Max : Nat := 2 ^ 31 - 1

/-- The failures in a row of each card number. -/
def failureStreaks (rows : List LoopJob) : List (Int × Nat) :=
  let numbers := (runsOf tenant workspace .build rows).filterMap fun row =>
    if unansweredFailure board rows row then (cardOf board row).map (·.number)
    else none
  numbers.dedup.map fun number => (number, numbers.count number)

/-- A card's failures count against both of its lanes. -/
def RunHeads.setStreak (heads : List RunHeads) (streak : Int × Nat) :
    List RunHeads :=
  [streak.1, -streak.1].foldl (fun heads key =>
    entry key (fun head => { head with failureStreak := min streak.2 i32Max })
      heads) heads

def buildRunHeads (rows : List LoopJob) : List RunHeads :=
  let runs := runsOf tenant workspace .build rows
  let live := runs.filter fun row => isLive row.state
  let attempted := runs.filter fun row =>
    buildAttempted row && isNewestOf (·.updatedAt)
      (fun other => sameBuild row other && buildAttempted other) rows row
  let done := runs.filter fun row =>
    buildDone row && isNewestOf (·.createdAt)
      (fun other => sameBuild row other && buildDone other) rows row
  let byKey := RunHeads.merge RunHeads.setLive []
    (live.filterMap (buildHead board))
  let byKey := RunHeads.merge RunHeads.setBuilt byKey
    (done.filterMap (buildHead board))
  let byKey := RunHeads.merge RunHeads.setAttempted byKey
    (attempted.filterMap (buildHead board))
  (failureStreaks tenant workspace board rows).foldl RunHeads.setStreak byKey

end Builds

end Queries

section Wakeup

/-- `FIRST_BACKOFF`. -/
def firstBackoff : Int := seconds 300

/-- `MAX_BACKOFF`. -/
def maxBackoff : Int := seconds 3600

/-- The hold after some failures in a row: doubling, up to an hour. -/
def backoffFor (failures : Int) : Int :=
  min (firstBackoff * 2 ^ min (failures - 1).toNat 30) maxBackoff

/-- A human has overruled the run that concluded this item. -/
def overruled (item : WorkItem) (head : RunHeads) : Bool :=
  match item.unblockedAt, head.doneAt with
  | some unblocked, some done => done < unblocked
  | _, _ => false

/-- The item's pull request conflicts with its base, and the hold since the last
conclusion has passed. -/
def rebaseOwed (item : WorkItem) (head : RunHeads) (now : Instant) : Bool :=
  item.conflictBase.isSome &&
    head.doneAt.all fun done => backoffFor head.failureStreak ≤ now - done

/-- The last conclusion still speaks for the item. -/
def spent (item : WorkItem) (head : RunHeads) (now : Instant) : Bool :=
  head.doneHead = some item.fingerprint && !overruled item head &&
    !rebaseOwed item head now

/-- The item was attempted as it stands too recently. -/
def held (item : WorkItem) (head : RunHeads) (now : Instant) : Bool :=
  head.attemptedHead = some item.fingerprint &&
    head.attemptedAt.any fun attempted =>
      now - attempted < backoffFor head.failureStreak

/-- The filter of `owed`. -/
def owes (heads : List RunHeads) (now : Instant) (item : WorkItem) : Bool :=
  match Table.find RunHeads.itemKey heads item.key with
  | none => true
  | some head =>
      if head.liveHead.isSome then false
      else if spent item head now then false
      else !held item head now

/-- The heads with a run in flight. -/
def liveHeads (heads : List RunHeads) : Nat :=
  (heads.filter (·.liveHead.isSome)).length

/-- Which items are owed a run, how many the ceiling withholds, and how many are
being run. -/
def owed (items : List WorkItem) (heads : List RunHeads) (ceiling : Nat)
    (now : Instant) : List WorkItem × Nat × Nat :=
  let live := liveHeads heads
  let owed := (items.filter (owes heads now)).insertionSort (·.key ≤ ·.key)
  let room := ceiling - live
  (owed.take room, owed.length - room, live)

end Wakeup

section Merging

variable {heads : List RunHeads}

/-- The keys that have a run in flight. -/
def liveKeys (heads : List RunHeads) : Finset Int :=
  ((heads.filter (·.liveHead.isSome)).map (·.itemKey)).toFinset

theorem mem_liveKeys (unique : Table.Keyed RunHeads.itemKey heads) {key : Int} :
    key ∈ liveKeys heads ↔
      ∃ head, Table.find RunHeads.itemKey heads key = some head ∧
        head.liveHead.isSome = true := by
  simp only [liveKeys, List.mem_toFinset, List.mem_map, List.mem_filter]
  constructor
  · rintro ⟨head, ⟨member, live⟩, rfl⟩
    exact ⟨head, unique.find_of_mem member, live⟩
  · rintro ⟨head, found, live⟩
    obtain ⟨member, sameKey⟩ := Table.find_some found
    exact ⟨head, ⟨member, live⟩, sameKey⟩

/-- A change of every head that keeps its key and its live head keeps the keys
in flight. -/
theorem map_of_kept (unique : Table.Keyed RunHeads.itemKey heads)
    {change : RunHeads → RunHeads}
    (keeps : ∀ head, (change head).itemKey = head.itemKey)
    (kept : ∀ head, (change head).liveHead = head.liveHead) :
    Table.Keyed RunHeads.itemKey (heads.map change) ∧
      liveHeads (heads.map change) = liveHeads heads ∧
      liveKeys (heads.map change) = liveKeys heads := by
  have filtered : (heads.map change).filter (·.liveHead.isSome) =
      (heads.filter (·.liveHead.isSome)).map change := by
    simp [List.filter_map, Function.comp_def, kept]
  refine ⟨?_, ?_, ?_⟩
  · unfold Table.Keyed at unique ⊢
    simpa [Function.comp_def, keeps] using unique
  · simp only [liveHeads, filtered, List.length_map]
  · simp only [liveKeys, filtered, List.map_map, Function.comp_def, keeps]

/-- With unique keys, the heads in flight are counted by their keys. -/
theorem liveHeads_eq_card (unique : Table.Keyed RunHeads.itemKey heads) :
    liveHeads heads = (liveKeys heads).card := by
  have distinct : ((heads.filter (·.liveHead.isSome)).map
      (·.itemKey)).Nodup := unique.sublist (List.filter_sublist.map _)
  rw [liveKeys, List.toFinset_card_of_nodup distinct, List.length_map, liveHeads]

@[simp] theorem RunHeads.setLive_itemKey (row : HeadRow) (head : RunHeads) :
    (RunHeads.setLive row head).itemKey = head.itemKey := rfl

/-- One more row merged into the map changes what is in flight at its key
only. -/
theorem mem_liveKeys_entry (unique : Table.Keyed RunHeads.itemKey heads)
    {key other : Int} {change : RunHeads → RunHeads}
    (keeps : ∀ head, (change head).itemKey = head.itemKey) :
    other ∈ liveKeys (RunHeads.entry key change heads) ↔
      if other = key then
        (change ((Table.find RunHeads.itemKey heads key).getD
          { itemKey := key })).liveHead.isSome = true
      else other ∈ liveKeys heads := by
  have merged : Table.Keyed RunHeads.itemKey (RunHeads.entry key change heads) :=
    unique.upsert keeps
  rw [mem_liveKeys merged, mem_liveKeys unique, RunHeads.entry,
    Table.find_upsert keeps]
  by_cases same : other = key
  · subst same
    simp
  · simp [same]

/-- A change that leaves the live head alone leaves the keys in flight alone. -/
theorem liveKeys_entry_of_kept (unique : Table.Keyed RunHeads.itemKey heads)
    {key : Int} {change : RunHeads → RunHeads}
    (keeps : ∀ head, (change head).itemKey = head.itemKey)
    (kept : ∀ head, (change head).liveHead = head.liveHead) :
    liveKeys (RunHeads.entry key change heads) = liveKeys heads := by
  ext other
  rw [mem_liveKeys_entry unique keeps, kept]
  split
  · rename_i same
    subst same
    rw [mem_liveKeys unique]
    cases Table.find RunHeads.itemKey heads other <;> simp
  · exact Iff.rfl

/-- A run in flight counts at its key when it has a fingerprint, and hides the
one that counted there when it has none. -/
theorem liveKeys_entry_setLive (unique : Table.Keyed RunHeads.itemKey heads)
    (row : HeadRow) :
    liveKeys (RunHeads.entry row.itemKey (RunHeads.setLive row) heads) =
      if row.fingerprint.isSome then insert row.itemKey (liveKeys heads)
      else (liveKeys heads).erase row.itemKey := by
  ext other
  rw [mem_liveKeys_entry unique (RunHeads.setLive_itemKey row)]
  by_cases same : other = row.itemKey
  · cases fingerprint : row.fingerprint <;>
      simp [same, RunHeads.setLive, fingerprint]
  · cases row.fingerprint <;> simp [same]

theorem merge_keyed {change : HeadRow → RunHeads → RunHeads}
    (keeps : ∀ row head, (change row head).itemKey = head.itemKey)
    (found : List HeadRow) (unique : Table.Keyed RunHeads.itemKey heads) :
    Table.Keyed RunHeads.itemKey (RunHeads.merge change heads found) := by
  induction found generalizing heads with
  | nil => exact unique
  | cons row rest ih =>
      exact ih (unique.upsert (keeps row))

/-- A loop that leaves live heads alone leaves the keys in flight alone. -/
theorem liveKeys_merge_of_kept {change : HeadRow → RunHeads → RunHeads}
    (keeps : ∀ row head, (change row head).itemKey = head.itemKey)
    (kept : ∀ row head, (change row head).liveHead = head.liveHead)
    (found : List HeadRow) (unique : Table.Keyed RunHeads.itemKey heads) :
    liveKeys (RunHeads.merge change heads found) = liveKeys heads := by
  induction found generalizing heads with
  | nil => rfl
  | cons row rest ih =>
      exact (ih (unique.upsert (keeps row))).trans
        (liveKeys_entry_of_kept unique (keeps row) (kept row))

/-- The loop over the streaks does too. -/
theorem liveKeys_streaks (streaks : List (Int × Nat))
    (unique : Table.Keyed RunHeads.itemKey heads) :
    Table.Keyed RunHeads.itemKey (streaks.foldl RunHeads.setStreak heads) ∧
      liveKeys (streaks.foldl RunHeads.setStreak heads) = liveKeys heads := by
  induction streaks generalizing heads with
  | nil => exact ⟨unique, rfl⟩
  | cons streak rest ih =>
      let setTo (head : RunHeads) : RunHeads :=
        { head with failureStreak := min streak.2 i32Max }
      have keeps : ∀ head, (setTo head).itemKey = head.itemKey := fun _ => rfl
      have kept : ∀ head, (setTo head).liveHead = head.liveHead := fun _ => rfl
      have fresh : Table.Keyed RunHeads.itemKey
          (RunHeads.entry streak.1 setTo heads) := unique.upsert keeps
      have both : Table.Keyed RunHeads.itemKey
          (RunHeads.entry (-streak.1) setTo (RunHeads.entry streak.1 setTo heads)) :=
        fresh.upsert keeps
      obtain ⟨rest, same⟩ := ih both
      exact ⟨rest, same.trans ((liveKeys_entry_of_kept fresh keeps kept).trans
        (liveKeys_entry_of_kept unique keeps kept))⟩

/-- What a loop over the runs in flight adds to the keys in flight: at most one
key a run, and one for each exactly when all have fingerprints and no two
meet. -/
theorem card_liveKeys_merge (unique : Table.Keyed RunHeads.itemKey heads)
    (found : List HeadRow) :
    (liveKeys (RunHeads.merge RunHeads.setLive heads found)).card ≤
        (liveKeys heads).card + found.length ∧
      ((liveKeys (RunHeads.merge RunHeads.setLive heads found)).card =
          (liveKeys heads).card + found.length ↔
        (∀ row ∈ found, row.fingerprint.isSome = true) ∧
          (found.map (·.itemKey)).Nodup ∧
          ∀ row ∈ found, row.itemKey ∉ liveKeys heads) := by
  induction found generalizing heads with
  | nil => simp [RunHeads.merge]
  | cons row rest ih =>
      have merged : Table.Keyed RunHeads.itemKey
          (RunHeads.entry row.itemKey (RunHeads.setLive row) heads) :=
        unique.upsert (RunHeads.setLive_itemKey row)
      obtain ⟨bound, exactly⟩ := ih merged
      simp only [liveKeys_entry_setLive unique row] at bound exactly
      change (liveKeys (RunHeads.merge RunHeads.setLive
        (RunHeads.entry row.itemKey (RunHeads.setLive row) heads) rest)).card ≤ _ ∧
        ((liveKeys (RunHeads.merge RunHeads.setLive
        (RunHeads.entry row.itemKey (RunHeads.setLive row) heads) rest)).card = _ ↔ _)
      simp only [List.length_cons, List.map_cons, List.nodup_cons,
        List.forall_mem_cons]
      cases fingerprint : row.fingerprint with
      | none =>
          simp only [fingerprint, Option.isSome_none, Bool.false_eq_true,
            if_false] at bound exactly
          have less := Finset.card_erase_le (s := liveKeys heads) (a := row.itemKey)
          refine ⟨by omega, ⟨fun same => by omega, ?_⟩⟩
          rintro ⟨⟨isSome, _⟩, _⟩
          simp at isSome
      | some value =>
          simp only [fingerprint, Option.isSome_some, if_true] at bound exactly
          have grows := Finset.card_insert_le row.itemKey (liveKeys heads)
          refine ⟨by omega, ?_⟩
          constructor
          · intro same
            have isNew : row.itemKey ∉ liveKeys heads := by
              intro present
              rw [Finset.insert_eq_of_mem present] at bound
              omega
            rw [Finset.card_insert_of_notMem isNew] at exactly bound
            obtain ⟨allSome, distinct, apart⟩ := exactly.mp (by omega)
            refine ⟨⟨rfl, allSome⟩, ⟨?_, distinct⟩, isNew, ?_⟩
            · intro met
              obtain ⟨other, member, sameKey⟩ := List.mem_map.mp met
              exact apart other member
                (sameKey ▸ Finset.mem_insert_self _ _)
            · intro other member present
              exact apart other member (Finset.mem_insert_of_mem present)
          · rintro ⟨⟨_, allSome⟩, ⟨unmet, distinct⟩, isNew, apart⟩
            rw [Finset.card_insert_of_notMem isNew] at exactly
            have all := exactly.mpr ⟨allSome, distinct, ?_⟩
            · omega
            · intro other member present
              rcases Finset.mem_insert.mp present with same | earlier
              · exact unmet (same ▸ List.mem_map_of_mem member)
              · exact apart other member earlier

/-- When every run in flight has a fingerprint, the keys in flight are theirs. -/
theorem mem_liveKeys_merge (unique : Table.Keyed RunHeads.itemKey heads)
    (found : List HeadRow) {key : Int}
    (allSome : ∀ row ∈ found, row.fingerprint.isSome = true) :
    key ∈ liveKeys (RunHeads.merge RunHeads.setLive heads found) ↔
      key ∈ liveKeys heads ∨ ∃ row ∈ found, row.itemKey = key := by
  induction found generalizing heads with
  | nil => simp [RunHeads.merge]
  | cons row rest ih =>
      obtain ⟨isSome, restSome⟩ := List.forall_mem_cons.mp allSome
      have merged : Table.Keyed RunHeads.itemKey
          (RunHeads.entry row.itemKey (RunHeads.setLive row) heads) :=
        unique.upsert (RunHeads.setLive_itemKey row)
      have step := ih merged restSome
      rw [liveKeys_entry_setLive unique, if_pos isSome, Finset.mem_insert] at step
      refine step.trans ?_
      simp only [List.mem_cons, exists_eq_or_imp]
      constructor
      · rintro ((same | earlier) | later)
        · exact .inr (.inl same.symm)
        · exact .inl earlier
        · exact .inr (.inr later)
      · rintro (earlier | same | later)
        · exact .inl (.inr earlier)
        · exact .inl (.inl same.symm)
        · exact .inr later

/-- The runs in flight are counted in full exactly when each has a row with a
fingerprint, and no two rows share their key. -/
theorem card_liveKeys_eq_iff (runs : List LoopJob)
    (head : LoopJob → Option HeadRow) :
    (liveKeys (RunHeads.merge RunHeads.setLive [] (runs.filterMap head))).card =
        runs.length ↔
      (∀ run ∈ runs, ∃ row, head run = some row ∧ row.fingerprint.isSome = true) ∧
        ((runs.filterMap head).map (·.itemKey)).Nodup := by
  obtain ⟨bound, exactly⟩ := card_liveKeys_merge Table.keyed_nil (runs.filterMap head)
  have none : liveKeys [] = ∅ := rfl
  simp only [none, Finset.card_empty, Nat.zero_add, Finset.notMem_empty,
    not_false_eq_true, implies_true, and_true] at bound exactly
  have fewer := List.length_filterMap_le head runs
  constructor
  · intro same
    obtain ⟨allSome, distinct⟩ := exactly.mp (by omega)
    refine ⟨fun run member => ?_, distinct⟩
    have full : ∀ run ∈ runs, (head run).isSome = true := by
      rw [← List.filterMap_length_eq_length]
      omega
    obtain ⟨row, isHead⟩ := Option.isSome_iff_exists.mp (full run member)
    exact ⟨row, isHead, allSome row (List.mem_filterMap.mpr ⟨run, member, isHead⟩)⟩
  · rintro ⟨present, distinct⟩
    have full : (runs.filterMap head).length = runs.length := by
      rw [List.filterMap_length_eq_length]
      intro run member
      obtain ⟨row, isHead, _⟩ := present run member
      exact Option.isSome_iff_exists.mpr ⟨row, isHead⟩
    rw [exactly.mpr ⟨?_, distinct⟩, full]
    intro row found
    obtain ⟨run, member, isHead⟩ := List.mem_filterMap.mp found
    obtain ⟨other, isOther, isSome⟩ := present run member
    cases isHead.symm.trans isOther
    exact isSome

end Merging

section Spec

variable (tenant : TenantId) (workspace : WorkspaceId) (board : Board)
  (rows : List LoopJob)

/-- The keys in flight come from the first review query. -/
theorem reviewRunHeads_live :
    Table.Keyed RunHeads.itemKey (reviewRunHeads tenant workspace rows) ∧
      liveKeys (reviewRunHeads tenant workspace rows) =
        liveKeys (RunHeads.merge RunHeads.setLive []
          ((liveRuns tenant workspace .review rows).filterMap reviewHead)) := by
  have reviewed : ∀ row head,
      (RunHeads.setReviewed row head).itemKey = head.itemKey := fun _ _ => rfl
  have attempted : ∀ row head,
      (RunHeads.setAttempted row head).itemKey = head.itemKey := fun _ _ => rfl
  have afterLive := merge_keyed RunHeads.setLive_itemKey
    ((liveRuns tenant workspace .review rows).filterMap reviewHead)
    Table.keyed_nil
  have afterDone := merge_keyed reviewed
    (((runsOf tenant workspace .review rows).filter fun row =>
      reviewDone row && isNewestOf (·.createdAt)
        (fun other => sameReview row other && reviewDone other) rows
        row).filterMap reviewHead) afterLive
  exact ⟨merge_keyed attempted _ afterDone,
    (liveKeys_merge_of_kept attempted (fun _ _ => rfl) _ afterDone).trans
      (liveKeys_merge_of_kept reviewed (fun _ _ => rfl) _ afterLive)⟩

/-- The keys in flight come from the first build query. -/
theorem buildRunHeads_live :
    Table.Keyed RunHeads.itemKey (buildRunHeads tenant workspace board rows) ∧
      liveKeys (buildRunHeads tenant workspace board rows) =
        liveKeys (RunHeads.merge RunHeads.setLive []
          ((liveRuns tenant workspace .build rows).filterMap
            (buildHead board))) := by
  have built : ∀ row head,
      (RunHeads.setBuilt row head).itemKey = head.itemKey := fun _ _ => rfl
  have attempted : ∀ row head,
      (RunHeads.setAttempted row head).itemKey = head.itemKey := fun _ _ => rfl
  have afterLive := merge_keyed RunHeads.setLive_itemKey
    ((liveRuns tenant workspace .build rows).filterMap (buildHead board))
    Table.keyed_nil
  have afterDone := merge_keyed built
    (((runsOf tenant workspace .build rows).filter fun row =>
      buildDone row && isNewestOf (·.createdAt)
        (fun other => sameBuild row other && buildDone other) rows
        row).filterMap (buildHead board)) afterLive
  have afterAttempted := merge_keyed attempted
    (((runsOf tenant workspace .build rows).filter fun row =>
      buildAttempted row && isNewestOf (·.updatedAt)
        (fun other => sameBuild row other && buildAttempted other) rows
        row).filterMap (buildHead board)) afterDone
  obtain ⟨unique, same⟩ := liveKeys_streaks
    (failureStreaks tenant workspace board rows) afterAttempted
  exact ⟨unique, same.trans
    ((liveKeys_merge_of_kept attempted (fun _ _ => rfl) _ afterDone).trans
      (liveKeys_merge_of_kept built (fun _ _ => rfl) _ afterLive))⟩

end Spec

end NookOs.Jobs
