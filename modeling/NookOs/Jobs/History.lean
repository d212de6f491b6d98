/-
Module: NookOs.Jobs.History
Purpose: The ways a row enters the ledger, any history of them with the steps of
  the rows' lifecycles, and what the table keeps after every history.
Trusted boundary: none
Main exports: JobStore, JobStore.create, JobStore.raiseRun, JobStore.Kept, JobStore.kept_run
-/
import NookOs.Jobs.Rejection
import NookOs.Jobs.WorkSource

namespace NookOs.Jobs

open Lib

/-!
What a person may not see creates nothing and is no step, and neither is an
INSERT that an index refuses.
-/

/-- The ledger, and what the next job is stamped with at the earliest. -/
structure JobStore where
  ledger : Ledger
  clock : Instant
  nextId : JobId

namespace JobStore

/-- No job yet. -/
def empty : JobStore := ⟨[], 0, 0⟩

/-- An INSERT of a row under a fresh id; `none` is a unique violation. -/
def insert (now : Instant) (row : JobId → LoopJob) (store : JobStore) :
    Option JobStore :=
  (store.ledger.insert (row store.nextId)).map fun ledger =>
    { ledger, clock := now, nextId := store.nextId + 1 }

section Creation

variable (tenant : TenantId) (requestedBy : UserId) (now : Instant)

/-- The card a person asks a job for. -/
structure Target where
  id : TaskId
  workspaceId : Option WorkspaceId
  isEpic : Bool
deriving DecidableEq

/-- A live job of a kind targets the card. -/
def active (kind : JobKind) (target : TaskId) (store : JobStore) : Bool :=
  store.ledger.rows.any fun row =>
    row.tenantId = tenant && row.targetTaskId = some target &&
      row.kind = kind && isLive row.state

/-- The kinds a person may ask for. -/
def kinds : List JobKind := [.spec, .decompose, .epicRun, .build]

/-- A person's request for a job on a card. -/
def create (kind : JobKind) (target : Target) (seed : Option String)
    (store : JobStore) : Option JobStore :=
  if kind ∉ kinds then none
  else if kind ∈ [.decompose, .epicRun] ∧ !target.isEpic then none
  else if kind ∈ [.epicRun, .build] ∧ store.active tenant kind target.id then none
  else
    store.insert now fun id => Repo.create now
      { id
        tenant
        kind
        targetTaskId := some target.id
        workspaceId := target.workspaceId
        requestedBy
        seed
        predecessorJobId := none
        reviewPrNumber := none
        reviewHeadSha := none
        reviewForced := false
        buildFingerprint := none }

/-- One managed run for one work item. -/
def raiseRun (workspace : WorkspaceId) (kind : JobKind) (item : WorkItem)
    (forced : Bool) (store : JobStore) : Option JobStore :=
  store.insert now fun id => Repo.create now
    { id
      tenant
      kind
      targetTaskId := item.targetTaskId
      workspaceId := some workspace
      requestedBy
      seed := some item.label
      predecessorJobId := none
      reviewPrNumber :=
        if item.targetTaskId.isNone then some item.key else none
      reviewHeadSha :=
        if item.targetTaskId.isNone then some item.fingerprint else none
      reviewForced := forced && item.targetTaskId.isNone
      buildFingerprint :=
        if item.targetTaskId.isSome then some item.fingerprint else none }

/-- A failed or canceled job once more, as a fresh job. -/
def rerun (id : JobId) (store : JobStore) : Option JobStore :=
  match Table.find Lifecycle.id store.ledger id with
  | none => none
  | some prev =>
      if prev.row.state ∈ [.failed, .canceled] then
        store.insert now fun id => Repo.create now
          { id
            tenant
            kind := prev.row.kind
            targetTaskId := prev.row.targetTaskId
            workspaceId := prev.row.workspaceId
            requestedBy
            seed := prev.row.seed
            predecessorJobId := some prev.row.id
            reviewPrNumber := none
            reviewHeadSha := none
            reviewForced := false
            buildFingerprint := none }
      else none

end Creation

/-- One step in the life of a tenant's jobs.  `reject` is the INSERT of either
recorder of a verdict nobody ran. -/
inductive Step where
  | create (now : Instant) (requestedBy : UserId) (kind : JobKind)
      (target : Target) (seed : Option String)
  | raiseRun (now : Instant) (requestedBy : UserId) (workspace : WorkspaceId)
      (kind : JobKind) (item : WorkItem) (forced : Bool)
  | rerun (now : Instant) (requestedBy : UserId) (id : JobId)
  | reject (now : Instant) (requestedBy : UserId) (target : PrHead)
      (seed : String) (source : VerdictSource)
  | lifecycle (id : JobId) (label : LifecycleStep)

/-- The step function; `none` is a step that creates or changes nothing. -/
def step (tenant : TenantId) (store : JobStore) : Step → Option JobStore
  | .create now requestedBy kind target seed =>
      if store.clock ≤ now then
        store.create tenant requestedBy now kind target seed
      else none
  | .raiseRun now requestedBy workspace kind item forced =>
      if store.clock ≤ now then
        store.raiseRun tenant requestedBy now workspace kind item forced
      else none
  | .rerun now requestedBy id =>
      if store.clock ≤ now then store.rerun tenant requestedBy now id else none
  | .reject now requestedBy target seed source =>
      if store.clock ≤ now then
        store.insert now fun id =>
          rejectionRow now id tenant target requestedBy seed source
      else none
  | .lifecycle id label =>
      (store.ledger.lifecycle id label).map fun ledger => { store with ledger }

end JobStore

namespace JobStore

variable {tenant : TenantId} {store after : JobStore}

/-- What every history keeps of the table. -/
structure Kept (tenant : TenantId) (store : JobStore) : Prop where
  ordered : store.ledger.Ordered store.clock store.nextId
  unclashing : store.ledger.Unclashing
  sourced : Sourced tenant store.ledger
  /-- A row about a pull request is about one of its heads. -/
  directed : ∀ row ∈ store.ledger.fixed,
    row.reviewPrNumber.isSome = row.reviewHeadSha.isSome

theorem kept_empty : Kept tenant empty :=
  { ordered := ⟨List.Pairwise.nil, by simp [empty, Ledger.fixed]⟩
    unclashing := by simp [Ledger.Unclashing, empty]
    sourced := ⟨by simp [empty, Ledger.fixed], by simp [empty],
      by simp [empty, Ledger.fixed]⟩
    directed := by simp [empty, Ledger.fixed] }

theorem insert_some {now : Instant} {row : JobId → LoopJob}
    (inserted : store.insert now row = some after) :
    after.clock = now ∧ after.nextId = store.nextId + 1 ∧
      store.ledger.insert (row store.nextId) = some after.ledger := by
  obtain ⟨ledger, stored, rfl⟩ := Option.map_eq_some_iff.mp inserted
  exact ⟨rfl, rfl, stored⟩

/-- A row may be inserted when it has the stamps of its insert, is about a head
if it is about a pull request, and is finished if nobody ran it. -/
structure Insertable (tenant : TenantId) (now : Instant) (id : JobId)
    (row : LoopJob) : Prop where
  fresh : row.id = id
  stamped : row.createdAt = now
  tenanted : row.tenantId = tenant
  directed : row.reviewPrNumber.isSome = row.reviewHeadSha.isSome
  finished : row.reviewVerdictSource ≠ none → row.state = .completed ∧
    row.reviewVerdict = some .changesRequested ∧ row.kind = .review

theorem Kept.insert (kept : Kept tenant store) {now : Instant}
    {row : JobId → LoopJob} (onward : store.clock ≤ now)
    (insertable : Insertable tenant now store.nextId (row store.nextId))
    (inserted : store.insert now row = some after) : Kept tenant after := by
  obtain ⟨clock, nextId, stored⟩ := insert_some inserted
  have appended := (Ledger.insert_some stored).1
  refine
    { ordered := ?_
      unclashing := kept.unclashing.insert stored
      sourced := kept.sourced.insert insertable.tenanted insertable.finished stored
      directed := ?_ }
  · rw [appended, clock, nextId]
    exact (kept.ordered.later onward).append insertable.fresh insertable.stamped
  · intro other member
    rw [appended] at member
    simp only [Ledger.fixed, List.map_append, List.mem_append, List.map_cons,
      List.map_nil, List.mem_singleton] at member
    rcases member with earlier | rfl
    · exact kept.directed other earlier
    · exact insertable.directed

/-- A run that is created as a job may be inserted when its pull request has a
head. -/
theorem insertable_create {now : Instant} {id : JobId} {new : NewLoopJob}
    (fresh : new.id = id) (tenanted : new.tenant = tenant)
    (directed : new.reviewPrNumber.isSome = new.reviewHeadSha.isSome) :
    Insertable tenant now id (Repo.create now new) :=
  { fresh
    stamped := rfl
    tenanted
    directed
    finished := fun hasSource => absurd rfl hasSource }

theorem kept_step {label : Step} (kept : Kept tenant store)
    (taken : step tenant store label = some after) : Kept tenant after := by
  cases label with
  | create now requestedBy kind target seed =>
      obtain ⟨onward, created⟩ := Option.ite_none_right_eq_some.mp taken
      simp only [create, Option.ite_none_left_eq_some] at created
      apply kept.insert onward _ created.2.2.2
      apply insertable_create <;> rfl
  | raiseRun now requestedBy workspace kind item forced =>
      obtain ⟨onward, raised⟩ := Option.ite_none_right_eq_some.mp taken
      apply kept.insert onward _ raised
      apply insertable_create
      · rfl
      · rfl
      · dsimp only
        split <;> rfl
  | rerun now requestedBy id =>
      obtain ⟨onward, repeated⟩ := Option.ite_none_right_eq_some.mp taken
      unfold rerun at repeated
      split at repeated
      · contradiction
      · obtain ⟨_, inserted⟩ := Option.ite_none_right_eq_some.mp repeated
        apply kept.insert onward _ inserted
        apply insertable_create <;> rfl
  | reject now requestedBy target seed source =>
      obtain ⟨onward, inserted⟩ := Option.ite_none_right_eq_some.mp taken
      exact kept.insert onward
        ⟨rfl, rfl, rfl, rfl, fun _ => ⟨rfl, rfl, rfl⟩⟩ inserted
  | lifecycle id label =>
      obtain ⟨ledger, stepped, rfl⟩ := Option.map_eq_some_iff.mp taken
      have sameFixed := (kept.ordered.lifecycle_some stepped).1
      exact
        { ordered := kept.ordered.of_fixed sameFixed
          unclashing := kept.unclashing.lifecycle stepped
          sourced := kept.sourced.lifecycle kept.ordered stepped
          directed := by
            rw [sameFixed]
            exact kept.directed }

/-- Every history keeps the table in order and its indexes whole. -/
theorem kept_run {steps : List Step}
    (ran : run (step tenant) empty steps = some store) : Kept tenant store :=
  run_invariant (Kept tenant) (fun _ _ _ kept taken => kept_step kept taken)
    kept_empty ran

/-- No two rows break an index together, in the order they stand. -/
theorem Kept.pairwise (kept : Kept tenant store) :
    store.ledger.rows.Pairwise fun first second =>
      first.id ≠ second.id ∧ clash first second = false := by
  have ids : store.ledger.Pairwise fun first second =>
      first.row.id ≠ second.row.id := by
    have increasing := List.pairwise_map.mp kept.ordered.increasing
    exact increasing.imp fun grows => Nat.ne_of_lt grows.1
  apply List.pairwise_map.mpr
  apply ids.imp_of_mem
  intro first second firstIn secondIn apart
  exact ⟨apart, kept.unclashing first firstIn second secondIn apart⟩

/-- Rows of one id are one row. -/
theorem Kept.eq_of_id (kept : Kept tenant store) {first second : LoopJob}
    (firstIn : first ∈ store.ledger.rows) (secondIn : second ∈ store.ledger.rows)
    (same : first.id = second.id) : first = second := by
  obtain ⟨one, oneIn, rfl⟩ := List.mem_map.mp firstIn
  obtain ⟨two, twoIn, rfl⟩ := List.mem_map.mp secondIn
  rw [kept.ordered.eq_of_id oneIn twoIn same]

theorem Kept.tenanted (kept : Kept tenant store) {row : LoopJob}
    (member : row ∈ store.ledger.rows) : row.tenantId = tenant := by
  obtain ⟨entry, inLedger, rfl⟩ := List.mem_map.mp member
  exact kept.sourced.tenanted entry.row.fixed
    (Ledger.mem_fixed.mpr ⟨entry, inLedger, rfl⟩)

theorem Kept.directed_row (kept : Kept tenant store) {row : LoopJob}
    (member : row ∈ store.ledger.rows) :
    row.reviewPrNumber.isSome = row.reviewHeadSha.isSome := by
  obtain ⟨entry, inLedger, rfl⟩ := List.mem_map.mp member
  exact kept.directed entry.row.fixed
    (Ledger.mem_fixed.mpr ⟨entry, inLedger, rfl⟩)

/-- The newest of some rows is the one with the greatest id. -/
theorem Kept.newest_eq (kept : Kept tenant store) {rows : List LoopJob}
    (among : ∀ row ∈ rows, row ∈ store.ledger.rows) {latest : LoopJob}
    (member : latest ∈ rows) (greatest : ∀ row ∈ rows, row.id ≤ latest.id) :
    newest rows = some latest := by
  obtain ⟨found, isNewest⟩ := newest_isSome_of_mem member
  obtain ⟨foundIn, most⟩ := newest_some isNewest
  rw [isNewest]
  rcases Nat.lt_or_eq_of_le (greatest found foundIn) with less | same
  · obtain ⟨one, oneIn, rfl⟩ := List.mem_map.mp (among found foundIn)
    obtain ⟨two, twoIn, rfl⟩ := List.mem_map.mp (among latest member)
    have older := kept.ordered.recency_lt
      (Ledger.mem_fixed.mpr ⟨one, oneIn, rfl⟩)
      (Ledger.mem_fixed.mpr ⟨two, twoIn, rfl⟩) less
    exact absurd (lt_of_lt_of_le older (most _ member)) (lt_irrefl _)
  · rw [kept.eq_of_id (among found foundIn) (among latest member) same]

/-- A row stays, and keeps saying something once it has. -/
def Persists (before after : List LoopJob) : Prop :=
  ∀ row ∈ before, ∃ later ∈ after, later.fixed = row.fixed ∧
    (row.reviewVerdict ≠ none → later.reviewVerdict ≠ none)

theorem persists_insert {now : Instant} {row : JobId → LoopJob}
    (inserted : store.insert now row = some after) :
    Persists store.ledger.rows after.ledger.rows := by
  obtain ⟨_, _, stored⟩ := insert_some inserted
  intro earlier member
  rw [(Ledger.insert_some stored).1]
  refine ⟨earlier, ?_, rfl, fun recorded => recorded⟩
  simp only [Ledger.rows, List.map_append, List.mem_append]
  exact .inl member

theorem persists_step {label : Step} (kept : Kept tenant store)
    (taken : step tenant store label = some after) :
    Persists store.ledger.rows after.ledger.rows := by
  cases label with
  | create now requestedBy kind target seed =>
      obtain ⟨_, created⟩ := Option.ite_none_right_eq_some.mp taken
      simp only [create, Option.ite_none_left_eq_some] at created
      exact persists_insert created.2.2.2
  | raiseRun now requestedBy workspace kind item forced =>
      exact persists_insert (Option.ite_none_right_eq_some.mp taken).2
  | rerun now requestedBy id =>
      obtain ⟨_, repeated⟩ := Option.ite_none_right_eq_some.mp taken
      unfold rerun at repeated
      split at repeated
      · contradiction
      · exact persists_insert (Option.ite_none_right_eq_some.mp repeated).2
  | reject now requestedBy target seed source =>
      exact persists_insert (Option.ite_none_right_eq_some.mp taken).2
  | lifecycle id label =>
      obtain ⟨ledger, stepped, rfl⟩ := Option.map_eq_some_iff.mp taken
      intro row member
      obtain ⟨entry, inLedger, rfl⟩ := List.mem_map.mp member
      obtain ⟨later, inAfter, sameFixed, keeps⟩ :=
        kept.ordered.lifecycle_persists stepped entry inLedger
      exact ⟨later.row, List.mem_map_of_mem inAfter, sameFixed, keeps⟩

/-- No history loses a row, or a verdict one has recorded. -/
theorem persists_run {steps : List Step} (kept : Kept tenant store)
    (ran : run (step tenant) store steps = some after) :
    Kept tenant after ∧ Persists store.ledger.rows after.ledger.rows := by
  have same : Persists store.ledger.rows store.ledger.rows :=
    fun row member => ⟨row, member, rfl, fun recorded => recorded⟩
  have both := run_invariant
    (fun later : JobStore => Kept tenant later ∧
      Persists store.ledger.rows later.ledger.rows) ?_ ⟨kept, same⟩ ran
  · exact both
  · rintro before label next ⟨keptBefore, persisted⟩ taken
    refine ⟨kept_step keptBefore taken, ?_⟩
    intro row member
    obtain ⟨middle, middleIn, sameFixed, keeps⟩ := persisted row member
    obtain ⟨later, laterIn, sameLater, keepsLater⟩ :=
      persists_step keptBefore taken middle middleIn
    exact ⟨later, laterIn, sameLater.trans sameFixed,
      fun recorded => keepsLater (keeps recorded)⟩

end JobStore

end NookOs.Jobs
