/-
Module: NookOs.Jobs.Ceiling
Purpose: The convergence of a workspace's runs under its ceiling, and exactly
  when the ceiling counts every live run.
Trusted boundary: none
Main exports: converge, convergeBuilds, ReviewCeilingHolds, BuildsAccounted, ceiling_holds_iff
-/
import Mathlib.Data.List.Pairwise
import NookOs.Jobs.History

namespace NookOs.Jobs

open Lib

/-!
A pass reads the items, then the heads, decides, and raises the runs it decided
on.  The claim a fresh card is taken with is the board's: a pass is handed which
of its claims are won.
-/

section Passes

variable (tenant : TenantId) (requestedBy : UserId) (workspace : WorkspaceId)
  (now : Instant)

/-- What a review pass finds: the open pull requests, if the forge answers. -/
structure ReviewPass where
  prs : Option (List PullRequest)

/-- What a build pass finds: the source it reads, the cards the board offers,
the cards in the repair lane, the open pull requests, which claims it wins, and
the card a person named. -/
structure BuildPass where
  work : BuildWork
  picked : Option (List TaskId)
  lane : List TaskId
  prs : Option (List PullRequest)
  claims : TaskId → Bool
  onlyTask : Option TaskId

/-- The items of a build pass, narrowed to the card a person named. -/
def BuildPass.items (pass : BuildPass) : List WorkItem :=
  ((pass.work.items pass.picked pass.lane pass.prs).getD []).filter fun item =>
    pass.onlyTask.all fun task => item.targetTaskId = some task

/-- A person naming a card stands the hold down, and the dedupe too where its
pull request conflicts. -/
def BuildPass.standDown (pass : BuildPass) (head : RunHeads) : RunHeads :=
  if pass.onlyTask.isSome && pass.items.any (·.key = head.itemKey) then
    let head := { head with attemptedAt := none, failureStreak := 0 }
    if pass.items.any fun item =>
        item.conflictBase.isSome && item.key = head.itemKey then
      { head with doneAt := none, doneHead := none }
    else head
  else head

/-- The heads of a build pass. -/
def BuildPass.heads (pass : BuildPass) (rows : List LoopJob) : List RunHeads :=
  (buildRunHeads tenant workspace pass.work.board rows).map pass.standDown

/-- Raise a run for an item; a lost race raises none. -/
def raise (kind : JobKind) (item : WorkItem) (store : JobStore) : JobStore :=
  (store.raiseRun tenant requestedBy now workspace kind item false).getD store

/-- `converge`: raise the review runs the workspace is owed. -/
def converge (pass : ReviewPass) (ceiling : Nat) (store : JobStore) : JobStore :=
  match ReviewWork.items pass.prs with
  | none => store
  | some items =>
      let heads := reviewRunHeads tenant workspace store.ledger.rows
      (owed items heads ceiling now).1.foldl
        (fun store item =>
          raise tenant requestedBy workspace now .review item store) store

/-- `converge_builds`: claim each fresh card, then raise its run. -/
def convergeBuilds (pass : BuildPass) (ceiling : Nat) (store : JobStore) :
    JobStore :=
  let heads := pass.heads tenant workspace store.ledger.rows
  (owed pass.items heads ceiling now).1.foldl
    (fun store item =>
      if item.claimFirst && !item.targetTaskId.any pass.claims then store
      else raise tenant requestedBy workspace now .build item store) store

end Passes

section Statement

variable (tenant : TenantId) (requestedBy : UserId) (workspace : WorkspaceId)
  (now : Instant)

/-- What the ceiling promises of a pass over the reviews: every live run is
counted, the pass exceeds the ceiling under no declaration of it, and owes no
pull request with a live run. -/
structure ReviewCeilingHolds (store : JobStore) (pass : ReviewPass) : Prop where
  counted : liveHeads (reviewRunHeads tenant workspace store.ledger.rows) =
    (liveRuns tenant workspace .review store.ledger.rows).length
  bounded : ∀ ceiling,
    (liveRuns tenant workspace .review (converge tenant requestedBy workspace now
        pass ceiling store).ledger.rows).length ≤
      max ceiling (liveRuns tenant workspace .review store.ledger.rows).length
  unowed : ∀ ceiling, ∀ items ∈ ReviewWork.items pass.prs,
    ∀ item ∈ (owed items (reviewRunHeads tenant workspace store.ledger.rows)
        ceiling now).1,
      ∀ run ∈ liveRuns tenant workspace .review store.ledger.rows,
        run.reviewPrNumber ≠ some item.key

/-- The same of a pass over the builds, by card. -/
structure BuildCeilingHolds (store : JobStore) (pass : BuildPass) : Prop where
  counted :
    liveHeads (buildRunHeads tenant workspace pass.work.board
        store.ledger.rows) =
      (liveRuns tenant workspace .build store.ledger.rows).length
  bounded : ∀ ceiling,
    (liveRuns tenant workspace .build (convergeBuilds tenant requestedBy workspace
        now pass ceiling store).ledger.rows).length ≤
      max ceiling (liveRuns tenant workspace .build store.ledger.rows).length
  unowed : ∀ ceiling,
    ∀ item ∈ (owed pass.items (pass.heads tenant workspace store.ledger.rows)
        ceiling now).1,
      ∀ run ∈ liveRuns tenant workspace .build store.ledger.rows,
        run.targetTaskId ≠ item.targetTaskId

/-- Every live review run names its pull request and the head it is at. -/
def ReviewsAccounted (store : JobStore) : Prop :=
  ∀ run ∈ liveRuns tenant workspace .review store.ledger.rows,
    run.reviewPrNumber ≠ none ∧ run.reviewHeadSha ≠ none

/-- An item is at rest: its own lane's last conclusion still speaks for it, or
holds it. -/
def AtRest (heads : List RunHeads) (item : WorkItem) : Prop :=
  ∃ head ∈ Table.find RunHeads.itemKey heads item.key,
    spent item head now = true ∨ held item head now = true

/-- Every live build run has its card on the board and a fingerprint; runs of
two cards are filed apart; and an item whose card is being built is filed where
a live run is, or is at rest. -/
structure BuildsAccounted (store : JobStore) (pass : BuildPass) : Prop where
  fingerprinted : ∀ run ∈ liveRuns tenant workspace .build store.ledger.rows,
    cardOf pass.work.board run ≠ none ∧ run.buildFingerprint ≠ none
  apart : ∀ run ∈ liveRuns tenant workspace .build store.ledger.rows,
    ∀ other ∈ liveRuns tenant workspace .build store.ledger.rows,
      run.targetTaskId ≠ other.targetTaskId →
        buildKey pass.work.board run ≠ buildKey pass.work.board other
  inLane : ∀ item ∈ pass.items,
    ∀ run ∈ liveRuns tenant workspace .build store.ledger.rows,
      run.targetTaskId = item.targetTaskId →
        (∃ other ∈ liveRuns tenant workspace .build store.ledger.rows,
          buildKey pass.work.board other = some item.key) ∨
        AtRest now (pass.heads tenant workspace store.ledger.rows) item

end Statement

section Bounds

variable {tenant : TenantId} {requestedBy : UserId} {workspace : WorkspaceId}
  {now : Instant} {kind : JobKind}

/-- An insert adds at most one live run. -/
theorem liveRuns_raise (item : WorkItem) (store : JobStore) :
    (liveRuns tenant workspace kind
        (raise tenant requestedBy workspace now kind item store).ledger.rows).length ≤
      (liveRuns tenant workspace kind store.ledger.rows).length + 1 := by
  unfold raise
  cases raised : store.raiseRun tenant requestedBy now workspace kind item false with
  | none => exact Nat.le_succ _
  | some after =>
      obtain ⟨_, _, stored⟩ := JobStore.insert_some raised
      simp only [Option.getD_some, (Ledger.insert_some stored).1, Ledger.rows,
        List.map_append, liveRuns, runsOf, List.filter_append, List.length_append]
      apply Nat.add_le_add_left
      exact (List.length_filter_le _ _).trans (List.length_filter_le _ _)

/-- A pass adds at most one live run for each item it raises. -/
theorem liveRuns_foldl {raiseOne : JobStore → WorkItem → JobStore}
    (grows : ∀ store item,
      (liveRuns tenant workspace kind (raiseOne store item).ledger.rows).length ≤
        (liveRuns tenant workspace kind store.ledger.rows).length + 1)
    (items : List WorkItem) (store : JobStore) :
    (liveRuns tenant workspace kind
        (items.foldl raiseOne store).ledger.rows).length ≤
      (liveRuns tenant workspace kind store.ledger.rows).length + items.length := by
  induction items generalizing store with
  | nil => exact Nat.le_refl _
  | cons item rest ih =>
      have first := grows store item
      have others := ih (raiseOne store item)
      rw [List.length_cons, List.foldl_cons]
      omega

/-- A pass that counts every live run stays under its ceiling, or where it found
the runs. -/
theorem owed_foldl_bounded {raiseOne : JobStore → WorkItem → JobStore}
    (grows : ∀ store item,
      (liveRuns tenant workspace kind (raiseOne store item).ledger.rows).length ≤
        (liveRuns tenant workspace kind store.ledger.rows).length + 1)
    (items : List WorkItem) (heads : List RunHeads) (ceiling : Nat)
    (store : JobStore)
    (counted : liveHeads heads =
      (liveRuns tenant workspace kind store.ledger.rows).length) :
    (liveRuns tenant workspace kind
        ((owed items heads ceiling now).1.foldl raiseOne store).ledger.rows).length ≤
      max ceiling (liveRuns tenant workspace kind store.ledger.rows).length := by
  have most := liveRuns_foldl grows (owed items heads ceiling now).1 store
  have room : (owed items heads ceiling now).1.length ≤
      ceiling - liveHeads heads := List.length_take_le _ _
  omega

/-- An item is owed a run, under some ceiling, exactly when it passes the
filter. -/
theorem mem_owed_iff {items : List WorkItem} {heads : List RunHeads}
    {item : WorkItem} :
    (∃ ceiling, item ∈ (owed items heads ceiling now).1) ↔
      item ∈ items ∧ owes heads now item = true := by
  rw [← List.mem_filter, ← List.mem_insertionSort (·.key ≤ ·.key)]
  constructor
  · rintro ⟨ceiling, member⟩
    exact List.mem_of_mem_take member
  · intro member
    refine ⟨liveHeads heads + (items.filter (owes heads now)).length, ?_⟩
    rw [owed, List.take_of_length_le]
    · exact member
    · simp [List.length_insertionSort]

/-- An item with a run in flight at its key is owed none. -/
theorem owes_of_mem_liveKeys {heads : List RunHeads}
    (unique : Table.Keyed RunHeads.itemKey heads) {item : WorkItem}
    (live : item.key ∈ liveKeys heads) : owes heads now item = false := by
  obtain ⟨head, found, isLive⟩ := (mem_liveKeys unique).mp live
  simp [owes, found, isLive]

/-- Where none is in flight at its key, it is owed one unless it is at rest. -/
theorem owes_iff_of_notMem {heads : List RunHeads}
    (unique : Table.Keyed RunHeads.itemKey heads) {item : WorkItem}
    (idle : item.key ∉ liveKeys heads) :
    owes heads now item = true ↔ ¬ AtRest now heads item := by
  rw [mem_liveKeys unique] at idle
  unfold owes AtRest
  cases found : Table.find RunHeads.itemKey heads item.key with
  | none => simp
  | some head =>
      have notLive : head.liveHead.isSome = false := by
        apply Bool.eq_false_iff.mpr
        intro live
        exact idle ⟨head, found, live⟩
      simp [notLive]

end Bounds

section Exactness

variable {tenant : TenantId} {requestedBy : UserId} {workspace : WorkspaceId}
  {now : Instant} {store : JobStore}

/-- Two runs a query does not file under one key. -/
def FiledApart (head : LoopJob → Option HeadRow) (first second : LoopJob) : Prop :=
  ∀ firstHead ∈ head first, ∀ secondHead ∈ head second,
    firstHead.itemKey ≠ secondHead.itemKey

instance (head : LoopJob → Option HeadRow) : Std.Symm (FiledApart head) where
  symm _ _ apart _ isFirst _ isSecond := (apart _ isSecond _ isFirst).symm

/-- The keys of a query's rows are distinct exactly when no two of its runs are
filed under one. -/
theorem nodup_keys_iff {runs : List LoopJob} {head : LoopJob → Option HeadRow} :
    ((runs.filterMap head).map (·.itemKey)).Nodup ↔
      runs.Pairwise (FiledApart head) := by
  rw [List.Nodup, List.pairwise_map, List.pairwise_filterMap]
  exact Iff.rfl

theorem buildHead_of_card {board : Board} {run : LoopJob} {card : Card}
    (isCard : cardOf board run = some card) :
    buildHead board run = some ⟨keyed card.number run.buildFingerprint,
      run.buildFingerprint, run.updatedAt⟩ := by
  simp [buildHead, buildKey, isCard]

/-- The live runs stand apart in the order of the table. -/
theorem JobStore.Kept.liveRuns (kept : JobStore.Kept tenant store) (kind : JobKind) :
    (liveRuns tenant workspace kind store.ledger.rows).Pairwise
      fun first second => first.id ≠ second.id ∧ clash first second = false :=
  (kept.pairwise.sublist List.filter_sublist).sublist List.filter_sublist

theorem mem_liveRuns {kind : JobKind} {rows : List LoopJob} {run : LoopJob} :
    run ∈ liveRuns tenant workspace kind rows ↔
      run ∈ rows ∧ run.tenantId = tenant ∧ run.workspaceId = some workspace ∧
        run.kind = kind ∧ isLive run.state = true := by
  simp only [liveRuns, runsOf, List.mem_filter, Bool.and_eq_true,
    decide_eq_true_eq, and_assoc]

/-- Every live review is counted exactly when each names its pull request and
head: the index of live runs keeps the pull requests apart. -/
theorem reviews_counted_iff (kept : JobStore.Kept tenant store) :
    liveHeads (reviewRunHeads tenant workspace store.ledger.rows) =
        (liveRuns tenant workspace .review store.ledger.rows).length ↔
      ReviewsAccounted tenant workspace store := by
  obtain ⟨unique, same⟩ := reviewRunHeads_live tenant workspace store.ledger.rows
  rw [liveHeads_eq_card unique, same, card_liveKeys_eq_iff, nodup_keys_iff]
  constructor
  · rintro ⟨present, _⟩ run member
    obtain ⟨row, isRow, isSome⟩ := present run member
    obtain ⟨pr, isPr, rfl⟩ := Option.map_eq_some_iff.mp isRow
    exact ⟨by simp [isPr], Option.isSome_iff_ne_none.mp isSome⟩
  · intro accounted
    constructor
    · intro run member
      obtain ⟨named, headed⟩ := accounted run member
      obtain ⟨pr, isPr⟩ := Option.ne_none_iff_exists'.mp named
      exact ⟨⟨pr, run.reviewHeadSha, run.updatedAt⟩, by simp [reviewHead, isPr],
        Option.isSome_iff_ne_none.mpr headed⟩
    · refine (kept.liveRuns .review).imp_of_mem ?_
      intro first second firstIn secondIn ⟨_, clear⟩ firstHead isFirst secondHead
        isSecond sameKey
      obtain ⟨firstPr, hasFirst, rfl⟩ := Option.map_eq_some_iff.mp isFirst
      obtain ⟨secondPr, hasSecond, rfl⟩ := Option.map_eq_some_iff.mp isSecond
      obtain ⟨_, _, firstAt, _, firstLive⟩ := mem_liveRuns.mp firstIn
      obtain ⟨_, _, secondAt, _, secondLive⟩ := mem_liveRuns.mp secondIn
      have samePr : firstPr = secondPr := sameKey
      simp [clash, sameLivePr, hasFirst, hasSecond, firstAt, secondAt, firstLive,
        secondLive, samePr] at clear

/-- Every live build is counted exactly when each has its card and a fingerprint
and no two cards' runs file under one key. -/
theorem builds_counted_iff (kept : JobStore.Kept tenant store) {board : Board} :
    liveHeads (buildRunHeads tenant workspace board store.ledger.rows) =
        (liveRuns tenant workspace .build store.ledger.rows).length ↔
      (∀ run ∈ liveRuns tenant workspace .build store.ledger.rows,
        cardOf board run ≠ none ∧ run.buildFingerprint ≠ none) ∧
      ∀ run ∈ liveRuns tenant workspace .build store.ledger.rows,
        ∀ other ∈ liveRuns tenant workspace .build store.ledger.rows,
          run.targetTaskId ≠ other.targetTaskId →
            buildKey board run ≠ buildKey board other := by
  obtain ⟨unique, same⟩ :=
    buildRunHeads_live tenant workspace board store.ledger.rows
  rw [liveHeads_eq_card unique, same, card_liveKeys_eq_iff, nodup_keys_iff]
  constructor
  · rintro ⟨present, distinct⟩
    have filed : ∀ run ∈ liveRuns tenant workspace .build store.ledger.rows,
        ∃ card, cardOf board run = some card ∧ run.buildFingerprint ≠ none := by
      intro run member
      obtain ⟨row, isRow, isSome⟩ := present run member
      obtain ⟨key, isKey, rfl⟩ := Option.map_eq_some_iff.mp isRow
      obtain ⟨card, isCard, _⟩ := Option.map_eq_some_iff.mp isKey
      exact ⟨card, isCard, Option.isSome_iff_ne_none.mp isSome⟩
    constructor
    · intro run member
      obtain ⟨card, isCard, fingerprinted⟩ := filed run member
      exact ⟨by simp [isCard], fingerprinted⟩
    · intro run member other otherIn apart sameKey
      obtain ⟨card, isCard, _⟩ := filed run member
      obtain ⟨otherCard, isOther, _⟩ := filed other otherIn
      have differ := distinct.forall member otherIn fun one => apart (one ▸ rfl)
      simp only [buildKey, isCard, isOther, Option.map_some, Option.some.injEq] at sameKey
      exact differ _ (buildHead_of_card isCard) _ (buildHead_of_card isOther) sameKey
  · rintro ⟨accounted, apart⟩
    constructor
    · intro run member
      obtain ⟨onBoard, fingerprinted⟩ := accounted run member
      obtain ⟨card, isCard⟩ := Option.ne_none_iff_exists'.mp onBoard
      exact ⟨_, buildHead_of_card isCard,
        Option.isSome_iff_ne_none.mpr fingerprinted⟩
    · refine (kept.liveRuns .build).imp_of_mem ?_
      intro first second firstIn secondIn ⟨_, clear⟩ firstHead isFirst secondHead
        isSecond sameKey
      obtain ⟨firstKey, hasFirst, rfl⟩ := Option.map_eq_some_iff.mp isFirst
      obtain ⟨secondKey, hasSecond, rfl⟩ := Option.map_eq_some_iff.mp isSecond
      have sameKeys : firstKey = secondKey := sameKey
      have sameTarget : first.targetTaskId = second.targetTaskId := by
        by_contra differ
        apply apart first firstIn second secondIn differ
        rw [hasFirst, hasSecond, sameKeys]
      have targeted : first.targetTaskId.isSome = true := by
        obtain ⟨card, isCard, _⟩ := Option.map_eq_some_iff.mp hasFirst
        obtain ⟨task, isTask, _⟩ := Option.bind_eq_some_iff.mp isCard
        simp [isTask]
      obtain ⟨_, _, _, firstKind, firstLive⟩ := mem_liveRuns.mp firstIn
      obtain ⟨_, _, _, secondKind, secondLive⟩ := mem_liveRuns.mp secondIn
      rw [sameTarget] at targeted
      simp [clash, sameLiveBuild, firstKind, secondKind, firstLive, secondLive,
        sameTarget, targeted] at clear

/-- A pass over the reviews is under its ceiling exactly when every live review
run is accounted for. -/
theorem review_ceiling_holds_iff (kept : JobStore.Kept tenant store) (pass : ReviewPass) :
    ReviewCeilingHolds tenant requestedBy workspace now store pass ↔
      ReviewsAccounted tenant workspace store := by
  constructor
  · intro holds
    exact (reviews_counted_iff kept).mp holds.counted
  · intro accounted
    have counted := (reviews_counted_iff kept).mpr accounted
    obtain ⟨unique, same⟩ := reviewRunHeads_live tenant workspace store.ledger.rows
    refine ⟨counted, ?_, ?_⟩
    · intro ceiling
      unfold converge
      cases found : ReviewWork.items pass.prs with
      | none => exact Nat.le_max_right _ _
      | some items =>
          exact owed_foldl_bounded (fun store item => liveRuns_raise item store)
            items _ ceiling store counted
    · intro ceiling items _ item isOwed run member isOf
      have owes := (mem_owed_iff.mp ⟨ceiling, isOwed⟩).2
      have live : item.key ∈
          liveKeys (reviewRunHeads tenant workspace store.ledger.rows) := by
        rw [same, mem_liveKeys_merge Table.keyed_nil]
        · exact .inr ⟨_, List.mem_filterMap.mpr
            ⟨run, member, by rw [reviewHead, isOf]; rfl⟩, rfl⟩
        · intro row found
          obtain ⟨other, otherIn, isRow⟩ := List.mem_filterMap.mp found
          obtain ⟨pr, _, rfl⟩ := Option.map_eq_some_iff.mp isRow
          exact Option.isSome_iff_ne_none.mpr (accounted other otherIn).2
      rw [owes_of_mem_liveKeys unique live] at owes
      contradiction

/-- Standing a hold down moves no run that is in flight. -/
theorem standDown_kept (pass : BuildPass) (head : RunHeads) :
    (pass.standDown head).itemKey = head.itemKey ∧
      (pass.standDown head).liveHead = head.liveHead := by
  unfold BuildPass.standDown
  split
  · dsimp only
    split
    · exact ⟨rfl, rfl⟩
    · exact ⟨rfl, rfl⟩
  · exact ⟨rfl, rfl⟩

/-- Where every live build is fingerprinted, a key has a run in flight exactly
when one is filed there. -/
theorem mem_liveKeys_build {board : Board}
    (fingerprinted : ∀ run ∈ liveRuns tenant workspace .build store.ledger.rows,
      cardOf board run ≠ none ∧ run.buildFingerprint ≠ none) {key : Int} :
    key ∈ liveKeys (buildRunHeads tenant workspace board store.ledger.rows) ↔
      ∃ run ∈ liveRuns tenant workspace .build store.ledger.rows,
        buildKey board run = some key := by
  have isSome : ∀ row ∈ (liveRuns tenant workspace .build
      store.ledger.rows).filterMap (buildHead board),
      row.fingerprint.isSome = true := by
    intro row found
    obtain ⟨run, member, isRow⟩ := List.mem_filterMap.mp found
    obtain ⟨key, _, rfl⟩ := Option.map_eq_some_iff.mp isRow
    exact Option.isSome_iff_ne_none.mpr (fingerprinted run member).2
  rw [(buildRunHeads_live tenant workspace board store.ledger.rows).2,
    mem_liveKeys_merge Table.keyed_nil _ isSome]
  constructor
  · rintro (absent | ⟨row, found, rfl⟩)
    · contradiction
    · obtain ⟨run, member, isRow⟩ := List.mem_filterMap.mp found
      obtain ⟨key, isKey, rfl⟩ := Option.map_eq_some_iff.mp isRow
      exact ⟨run, member, isKey⟩
  · rintro ⟨run, member, isKey⟩
    exact .inr ⟨_, List.mem_filterMap.mpr
      ⟨run, member, by rw [buildHead, isKey]; rfl⟩, rfl⟩

/-- A pass over the builds is under its ceiling exactly when every live build run
is accounted for. -/
theorem build_ceiling_holds_iff (kept : JobStore.Kept tenant store) (pass : BuildPass) :
    BuildCeilingHolds tenant requestedBy workspace now store pass ↔
      BuildsAccounted tenant workspace now store pass := by
  obtain ⟨unique, sameCount, sameKeys⟩ := map_of_kept
    (buildRunHeads_live tenant workspace pass.work.board store.ledger.rows).1
    (fun head => (standDown_kept pass head).1)
    (fun head => (standDown_kept pass head).2)
  constructor
  · intro holds
    obtain ⟨fingerprinted, apart⟩ := (builds_counted_iff kept).mp holds.counted
    refine ⟨fingerprinted, apart, ?_⟩
    intro item isItem run member sameCard
    by_contra neither
    simp only [not_or] at neither
    obtain ⟨unfiled, restless⟩ := neither
    have idle : item.key ∉ liveKeys (pass.heads tenant workspace store.ledger.rows) := by
      rw [BuildPass.heads, sameKeys, mem_liveKeys_build fingerprinted]
      exact unfiled
    obtain ⟨ceiling, isOwed⟩ := mem_owed_iff.mpr
      ⟨isItem, (owes_iff_of_notMem unique idle).mpr restless⟩
    exact holds.unowed ceiling item isOwed run member sameCard
  · intro accounted
    have counted := (builds_counted_iff kept).mpr
      ⟨accounted.fingerprinted, accounted.apart⟩
    refine ⟨counted, ?_, ?_⟩
    · intro ceiling
      refine owed_foldl_bounded ?_ pass.items _ ceiling store (sameCount.trans counted)
      intro store item
      split
      · exact Nat.le_succ _
      · exact liveRuns_raise item store
    · intro ceiling item isOwed run member sameCard
      obtain ⟨isItem, owes⟩ := mem_owed_iff.mp ⟨ceiling, isOwed⟩
      by_cases live : item.key ∈
          liveKeys (pass.heads tenant workspace store.ledger.rows)
      · cases (owes_of_mem_liveKeys unique live).symm.trans owes
      · rcases accounted.inLane item isItem run member sameCard with filed | rests
        · apply live
          rw [BuildPass.heads, sameKeys, mem_liveKeys_build accounted.fingerprinted]
          exact filed
        · exact (owes_iff_of_notMem unique live).mp owes rests

end Exactness

/-- After any history of a tenant's jobs, a workspace's passes count every live
run, keep under their ceilings and owe nothing that is being run, exactly when
every live run of either kind is accounted for. -/
theorem ceiling_holds_iff (tenant : TenantId) (requestedBy : UserId)
    (workspace : WorkspaceId) (now : Instant) (steps : List JobStore.Step)
    (store : JobStore)
    (ran : run (JobStore.step tenant) JobStore.empty steps = some store)
    (reviews : ReviewPass) (builds : BuildPass) :
    ReviewCeilingHolds tenant requestedBy workspace now store reviews ∧
        BuildCeilingHolds tenant requestedBy workspace now store builds ↔
      ReviewsAccounted tenant workspace store ∧
        BuildsAccounted tenant workspace now store builds :=
  and_congr (review_ceiling_holds_iff (JobStore.kept_run ran) reviews)
    (build_ceiling_holds_iff (JobStore.kept_run ran) builds)

section Runs

instance (tenant : TenantId) (workspace : WorkspaceId) (store : JobStore) :
    Decidable (ReviewsAccounted tenant workspace store) :=
  inferInstanceAs (Decidable (∀ _ ∈ _, _))

instance (now : Instant) (heads : List RunHeads) (item : WorkItem) :
    Decidable (AtRest now heads item) :=
  inferInstanceAs (Decidable (∃ _ ∈ _, _))

/-- A board of one card that has never been built. -/
def oneCard : BuildWork :=
  { board := fun task =>
      if task = 7 then
        some
          { number := 7, key := some "MAIN-7", title := "Add a thing"
            description := none, workspaceId := some 3, prUrl := none
            unblockedAt := none, buildLadderClearedAt := none }
      else none
    uuidV5 := fun _ => "115319ff-e3a1-5aec-95b5-ee9221bf1bcd"
    rejectedHeads := []
    conflicts := [] }

/-- The card's item. -/
def oneItem : WorkItem :=
  { key := 7, fingerprint := "115319ff-e3a1-5aec-95b5-ee9221bf1bcd"
    label := "MAIN-7", targetTaskId := some 7, claimFirst := true
    unblockedAt := none, conflictBase := none }

/-- The card's run is raised. -/
def oneRaised : List JobStore.Step := [.raiseRun 1 2 3 .build oneItem false]

/-- The raised run is counted, and the next pass owes the card nothing. -/
theorem ceiling_holds_iff_raised :
    ∃ store,
      run (JobStore.step 1) JobStore.empty oneRaised = some store ∧
      ReviewCeilingHolds 1 2 3 5 store ⟨some []⟩ ∧
        BuildCeilingHolds 1 2 3 5 store
          ⟨oneCard, some [7], [], some [], fun _ => true, none⟩ :=
  ⟨_, rfl, (ceiling_holds_iff 1 2 3 5 oneRaised _ rfl _ _).mpr
    ⟨by decide, ⟨by decide, by decide, by decide⟩⟩⟩

/-- The run is canceled and a person re-runs it.  The fresh row carries no
fingerprint, so the ceiling does not count it. -/
theorem rerun_uncounted :
    ∃ store,
      run (JobStore.step 1) JobStore.empty
          (oneRaised ++ [.lifecycle 0 (.load .canceled),
            .lifecycle 0 (.update 0 2), .rerun 3 2 0]) = some store ∧
      ¬ (ReviewCeilingHolds 1 2 3 5 store ⟨some []⟩ ∧
        BuildCeilingHolds 1 2 3 5 store
          ⟨oneCard, some [7], [], some [], fun _ => true, none⟩) := by
  refine ⟨_, rfl, fun holds => ?_⟩
  have counted := holds.2.counted
  revert counted
  decide

end Runs

end NookOs.Jobs
