/-
Module: NookOs.Forge.JudgedHead
Purpose: A hygiene pass over a cached list while its pull requests move, and
  exactly when what it records is about the head that was judged.
Trusted boundary: none
Main exports: Pass, Pass.healed, Pass.AtJudgedHead, Pass.Backdated, rejection_at_judged_head_iff
-/
import NookOs.Jobs.RepairLane
import NookOs.Forge.MergeQueue

namespace NookOs.Forge

open Lib
open Jobs (Instant TenantId WorkspaceId UserId PullRequest JobStore Healing Repair Action
  LoopJob VerdictSource asI64 rejectsAt rejectionRow heal healAction plan planOne diagnose
  recordedReviewVerdicts)

/-! ### What a pass records -/

variable {found : Nat × String × Repair}

section Recording

variable {tenant : TenantId} {workspace : WorkspaceId} {requestedBy : UserId}
  {now : Instant} {forge : Jobs.Forge} {healing : Healing} {actions : List Action}

/-- The head an action rejects, and why. -/
def judged (forge : Jobs.Forge) : Action → Option (Nat × String × Repair)
  | .restore _ _ => none
  | .inspect pr head =>
      (forge.mergeable pr).bind fun mergeable =>
        (diagnose forge pr head mergeable).map fun repair => (pr, head, repair)

theorem healAction_store (action : Action) :
    (healAction tenant workspace requestedBy now forge healing action).store =
      match judged forge action with
      | none => healing.store
      | some (pr, head, repair) =>
          (healing.store.recordControlPlaneRejection tenant now requestedBy
            ⟨workspace, asI64 pr, head⟩ repair).1 := by
  cases action with
  | restore pr label =>
      simp only [healAction, judged]
      split <;> rfl
  | inspect pr head =>
      simp only [healAction, judged]
      cases forge.mergeable pr with
      | none => rfl
      | some mergeable =>
          simp only [Option.bind_some]
          cases diagnose forge pr head mergeable with
          | none => rfl
          | some repair => exact Jobs.announce_store pr repair _

/-- The row of a rejection for one reason. -/
def rowOf (tenant : TenantId) (workspace : WorkspaceId) (requestedBy : UserId)
    (now : Instant) (found : Nat × String × Repair) (id : Jobs.JobId) : LoopJob :=
  rejectionRow now id tenant ⟨workspace, asI64 found.1, found.2.1⟩ requestedBy
    found.2.2.seed found.2.2.source

/-- The ledger rejects the pull request at the head. -/
def Rejected (tenant : TenantId) (workspace : WorkspaceId) (store : JobStore)
    (pr : Nat) (head : String) : Bool :=
  store.ledger.rows.any (rejectsAt tenant workspace (asI64 pr) head)

/-- An action adds the row of what it found, or finds nothing or the head
rejected already. -/
theorem healAction_rows (kept : JobStore.Kept tenant healing.store)
    (onward : healing.store.clock ≤ now) {action : Action} {after : JobStore}
    (isAfter : (healAction tenant workspace requestedBy now forge healing action).store = after) :
    JobStore.Kept tenant after ∧ after.clock ≤ now ∧
      (after = healing.store ∧
          (∀ found, judged forge action = some found →
            Rejected tenant workspace healing.store found.1 found.2.1 = true) ∨
        ∃ found, judged forge action = some found ∧
          Rejected tenant workspace healing.store found.1 found.2.1 = false ∧
          after.nextId = healing.store.nextId + 1 ∧
          after.ledger.rows = healing.store.ledger.rows ++
            [rowOf tenant workspace requestedBy now found healing.store.nextId]) := by
  rw [healAction_store] at isAfter
  cases result : judged forge action with
  | none =>
      simp only [result] at isAfter
      subst isAfter
      exact ⟨kept, onward, .inl ⟨Eq.refl _, by simp⟩⟩
  | some found =>
      obtain ⟨pr, head, repair⟩ := found
      simp only [result] at isAfter
      unfold JobStore.recordControlPlaneRejection at isAfter
      split at isAfter
      · rename_i rejected
        subst isAfter
        refine ⟨kept, onward, .inl ⟨Eq.refl _, ?_⟩⟩
        intro found isFound
        cases isFound
        exact rejected
      · rename_i unrejected
        have free := Bool.not_eq_true _ ▸ unrejected
        have accepted : ∃ ledger, healing.store.ledger.insert
            (rowOf tenant workspace requestedBy now (pr, head, repair) healing.store.nextId) =
              some ledger := Jobs.insert_rejection_isSome kept free
        obtain ⟨ledger, stored⟩ := accepted
        have inserted : healing.store.insert now (fun id =>
            rowOf tenant workspace requestedBy now (pr, head, repair) id) =
              some ⟨ledger, now, healing.store.nextId + 1⟩ :=
          Option.map_eq_some_iff.mpr ⟨ledger, stored, Eq.refl _⟩
        have keptAfter := kept.insert onward
          ⟨Eq.refl _, Eq.refl _, Eq.refl _, Eq.refl _, fun _ => ⟨Eq.refl _, Eq.refl _, Eq.refl _⟩⟩
          inserted
        simp only [rowOf] at inserted
        rw [inserted] at isAfter
        subst isAfter
        refine ⟨keptAfter, Int.le_refl now, .inr ⟨_, Eq.refl _, free, Eq.refl _, ?_⟩⟩
        rw [(Jobs.Ledger.insert_some stored).1]
        simp [Jobs.Ledger.rows, Jobs.Lifecycle.idle, rowOf]

/-- Whatever a pass adds, an action of it found. -/
theorem foldl_rows (workspace : WorkspaceId) (requestedBy : UserId) (forge : Jobs.Forge)
    (actions : List Action) (healing : Healing) (kept : JobStore.Kept tenant healing.store)
    (onward : healing.store.clock ≤ now) :
    ∃ recorded,
      (actions.foldl (healAction tenant workspace requestedBy now forge)
          healing).store.ledger.rows = healing.store.ledger.rows ++ recorded ∧
      ∀ row ∈ recorded, ∃ action ∈ actions, ∃ found id, judged forge action = some found ∧
        Rejected tenant workspace healing.store found.1 found.2.1 = false ∧
          healing.store.nextId ≤ id ∧
            row = rowOf tenant workspace requestedBy now found id := by
  induction actions generalizing healing with
  | nil => exact ⟨[], by simp, by simp⟩
  | cons action rest ih =>
      obtain ⟨keptAfter, onwardAfter, result⟩ := healAction_rows kept onward
        (Eq.refl (healAction tenant workspace requestedBy now forge healing action).store)
      obtain ⟨recorded, rows, each⟩ := ih _ keptAfter onwardAfter
      rw [List.foldl_cons]
      rcases result with ⟨same, _⟩ | ⟨found, isFound, free, next, appended⟩
      · rw [same] at rows each
        refine ⟨recorded, rows, ?_⟩
        intro row member
        obtain ⟨other, isLater, origin⟩ := each row member
        exact ⟨other, List.mem_cons_of_mem _ isLater, origin⟩
      · have before : ∀ pr head, Rejected tenant workspace
            (healAction tenant workspace requestedBy now forge healing action).store pr head =
              false → Rejected tenant workspace healing.store pr head = false := by
          intro pr head unrejected
          rw [Rejected, appended, List.any_append, Bool.or_eq_false_iff] at unrejected
          exact unrejected.1
        rw [appended, List.append_assoc] at rows
        refine ⟨_, rows, ?_⟩
        intro row member
        rcases List.mem_append.mp member with here | later
        · exact ⟨action, List.mem_cons_self, found, _, isFound, free, Nat.le_refl _,
            List.mem_singleton.mp here⟩
        · obtain ⟨other, isLater, origin, id, originFound, unrejected, fresh, isRow⟩ :=
            each row later
          rw [next] at fresh
          exact ⟨other, List.mem_cons_of_mem _ isLater, origin, id, originFound,
            before _ _ unrejected, Nat.le_of_succ_le fresh, isRow⟩

/-- What an action of a pass finds at a head that is not rejected is recorded,
where no other action finds anything else there. -/
theorem foldl_records (healing : Healing) (kept : JobStore.Kept tenant healing.store)
    (onward : healing.store.clock ≤ now)
    (isFound : ∃ action ∈ actions, judged forge action = some found)
    (alone : ∀ action ∈ actions, ∀ other, judged forge action = some other →
      asI64 other.1 = asI64 found.1 → other.2.1 = found.2.1 → other = found)
    (unrejected : Rejected tenant workspace healing.store found.1 found.2.1 = false) :
    ∃ id, healing.store.nextId ≤ id ∧ rowOf tenant workspace requestedBy now found id ∈
      (actions.foldl (healAction tenant workspace requestedBy now forge)
        healing).store.ledger.rows := by
  induction actions generalizing healing with
  | nil => simp at isFound
  | cons action rest ih =>
      obtain ⟨keptAfter, onwardAfter, result⟩ := healAction_rows kept onward
        (Eq.refl (healAction tenant workspace requestedBy now forge healing action).store)
      have aloneRest : ∀ later ∈ rest, ∀ other, judged forge later = some other →
          asI64 other.1 = asI64 found.1 → other.2.1 = found.2.1 → other = found :=
        fun later isLater => alone later (List.mem_cons_of_mem _ isLater)
      have hereOrLater : judged forge action = some found ∨
          ∃ later ∈ rest, judged forge later = some found := by
        obtain ⟨which, member, finds⟩ := isFound
        rcases List.mem_cons.mp member with rfl | isLater
        · exact .inl finds
        · exact .inr ⟨which, isLater, finds⟩
      rw [List.foldl_cons]
      rcases result with ⟨same, rejected⟩ | ⟨other, isOther, _, next, appended⟩
      · rcases hereOrLater with here | later
        · rw [rejected found here] at unrejected
          contradiction
        · rw [← same] at unrejected ⊢
          exact ih _ keptAfter onwardAfter later aloneRest unrejected
      · by_cases isSame : other = found
        · subst isSame
          obtain ⟨recorded, rows, _⟩ := foldl_rows workspace requestedBy forge rest _ keptAfter
            onwardAfter
          refine ⟨_, Nat.le_refl _, ?_⟩
          rw [rows, appended]
          simp
        · have later : ∃ later ∈ rest, judged forge later = some found := by
            rcases hereOrLater with here | later
            · rw [isOther, Option.some.injEq] at here
              exact absurd here isSame
            · exact later
          have stillUnrejected : Rejected tenant workspace
              (healAction tenant workspace requestedBy now forge healing action).store
                found.1 found.2.1 = false := by
            rw [Rejected, appended, List.any_append,
              show healing.store.ledger.rows.any _ = false from unrejected, Bool.false_or]
            simp only [List.any_cons, List.any_nil, Bool.or_false, Bool.eq_false_iff]
            intro rejects
            simp only [rejectsAt, rowOf, rejectionRow, Bool.and_eq_true, decide_eq_true_eq,
              Option.some.injEq] at rejects
            exact isSame (alone action List.mem_cons_self other isOther rejects.1.1.2
              rejects.1.2)
          obtain ⟨id, fresh, member⟩ :=
            ih _ keptAfter onwardAfter later aloneRest stillUnrejected
          rw [next] at fresh
          exact ⟨id, Nat.le_of_succ_le fresh, member⟩

end Recording

/-! ### A pass beside its pull request -/

/-- One hygiene pass and the history of one pull request of its list: what had
happened when the list was read, what more by the read of its details, and what
more by the read of its queue.  Either read may fail, and the forge answers as
it likes about everything else. -/
structure Pass where
  tenant : TenantId
  workspace : WorkspaceId
  requestedBy : UserId
  now : Instant
  store : JobStore
  prs : List PullRequest
  number : Nat
  body : Option String
  opened : String
  committedDate : String → Instant
  listed : List Event
  beforeDetails : List Event
  beforeQueue : List Event
  detailsAnswered : Bool
  queueAnswered : Bool
  others : Jobs.Forge
  kept : JobStore.Kept tenant store
  onward : store.clock ≤ now
  small : number < 2 ^ 63
  smallListed : ∀ pr ∈ prs, pr.number < 2 ^ 63
  cached : ∀ pr ∈ prs, pr.number = number → pr.headSha = headOf opened listed
  ordered : (beforeQueue ++ (beforeDetails ++ listed)).Pairwise fun later earlier =>
    earlier.time ≤ later.time
  /-- A commit is made before it is pushed. -/
  committed : ∀ event ∈ beforeQueue ++ (beforeDetails ++ listed), ∀ commit,
    event.what = .push commit → committedDate commit ≤ event.time

namespace Pass

variable (pass : Pass)

/-- The history at the read of the details. -/
def detailed : List Event := pass.beforeDetails ++ pass.listed

/-- The history at the read of the queue. -/
def queried : List Event := pass.beforeQueue ++ pass.detailed

/-- The details as they were read. -/
def details : PrDetails := prDetails (detailsDocument pass.opened pass.body pass.detailed)

/-- The ejection as it was read. -/
def ejection : Option Jobs.QueueEjection :=
  queueEjection (queueDocument pass.opened pass.committedDate pass.queried)

/-- What the forge answers the pass. -/
def forge : Jobs.Forge :=
  { pass.others with
    mergeable := fun pr =>
      if pr = pass.number then
        if pass.detailsAnswered then some pass.details.mergeable else none
      else pass.others.mergeable pr
    queueEjection := fun pr =>
      if pr = pass.number then if pass.queueAnswered then some pass.ejection else none
      else pass.others.queueEjection pr }

def planned : List Action :=
  plan pass.prs (recordedReviewVerdicts pass.tenant pass.workspace pass.store.ledger.rows)

def healed : Healing :=
  heal pass.tenant pass.workspace pass.requestedBy pass.now pass.forge pass.prs pass.store

/-- The pass recorded the row, about the pull request. -/
def Recorded (row : LoopJob) : Prop :=
  row ∈ pass.healed.store.ledger.rows ∧ row ∉ pass.store.ledger.rows ∧
    row.reviewPrNumber = some (asI64 pass.number)

/-- A rejection is at the head that was judged: that of the very read that found
a conflict, or one the queue ejected, that has neither moved nor entered the
queue since. -/
structure AtJudgedHead (row : LoopJob) : Prop where
  conflict : row.reviewVerdictSource = some .conflict → ∀ head, row.reviewHeadSha = some head →
    pass.detailsAnswered = true ∧ pass.details.mergeable = some false ∧
      pass.details.headSha = head
  ejected : row.reviewVerdictSource = some .queueEjection →
    ∀ head, row.reviewHeadSha = some head → EjectedAt pass.opened head pass.queried

/-- The head was moved since the latest removal, by which the queue ejected
another, to a commit of no later date than that. -/
def Backdated : Prop :=
  isMerged pass.queried = false ∧ isQueued pass.queried = false ∧
    movedSince pass.opened pass.queried = true ∧
      ∃ removed, (removals pass.queried).head? = some removed ∧
        isMergeReason removed.2 = false ∧
          pass.committedDate (headOf pass.opened pass.queried) ≤ removed.1

/-- The pass looks at the pull request, at a head that is not rejected. -/
def Looks : Prop :=
  .inspect pass.number (headOf pass.opened pass.listed) ∈ pass.planned ∧
    Rejected pass.tenant pass.workspace pass.store pass.number
      (headOf pass.opened pass.listed) = false ∧
    pass.detailsAnswered = true

/-- Where the pass looks, a pull request that conflicts has the head the list
has, and one that does not, with that head still at the read of its queue, was
not given it after an ejection it is dated before. -/
def Steady : Prop :=
  pass.Looks →
    (mergeableOf pass.detailed = some false →
      headOf pass.opened pass.detailed = headOf pass.opened pass.listed) ∧
    (mergeableOf pass.detailed ≠ some false → pass.queueAnswered = true →
      headOf pass.opened pass.queried = headOf pass.opened pass.listed → ¬ pass.Backdated)

variable {pass : Pass} {head : String}

@[simp] theorem details_mergeable : pass.details.mergeable = mergeableOf pass.detailed := by
  simp [details, prDetails, detailsDocument]

@[simp] theorem details_headSha : pass.details.headSha = headOf pass.opened pass.detailed := by
  simp [details, prDetails, detailsDocument]

theorem judged_unread (unread : pass.detailsAnswered = false) :
    judged pass.forge (.inspect pass.number head) = none := by
  simp [judged, forge, unread]

theorem judged_conflict (answered : pass.detailsAnswered = true)
    (conflicts : mergeableOf pass.detailed = some false) :
    judged pass.forge (.inspect pass.number head) =
      some (pass.number, head, .conflict pass.number head) := by
  simp [judged, forge, answered, diagnose, conflicts]

theorem judged_queue (answered : pass.detailsAnswered = true)
    (clean : mergeableOf pass.detailed ≠ some false) :
    judged pass.forge (.inspect pass.number head) = some found ↔
      pass.queueAnswered = true ∧ ∃ ejection, pass.ejection = some ejection ∧
        ejection.headSha = head ∧
          (pass.number, head, .ejected pass.number head ejection.reason) = found := by
  simp only [judged, forge, if_true, answered, Option.bind_some, diagnose, details_mergeable,
    if_neg clean, Option.map_eq_some_iff]
  cases pass.queueAnswered with
  | false => simp
  | true =>
      cases pass.ejection with
      | none => simp
      | some ejection => by_cases same : ejection.headSha = head <;> simp [same]

theorem asI64_inj {first second : Nat} (firstSmall : first < 2 ^ 63)
    (secondSmall : second < 2 ^ 63) (same : asI64 first = asI64 second) : first = second := by
  rw [asI64, asI64, if_pos firstSmall, if_pos secondSmall] at same
  exact Int.ofNat.inj same

/-- What an action finds is about the pull request and the head it inspects. -/
theorem judged_some {forge : Jobs.Forge} {action : Action}
    (isFound : judged forge action = some found) : action = .inspect found.1 found.2.1 := by
  cases action with
  | restore pr label => cases isFound
  | inspect pr head =>
      obtain ⟨mergeable, _, told⟩ := Option.bind_eq_some_iff.mp isFound
      obtain ⟨repair, _, same⟩ := Option.map_eq_some_iff.mp told
      rw [← same]

/-- A pass inspects what the list has, at the head the list has. -/
theorem mem_plan {prs : List PullRequest} {recorded : List Jobs.RecordedVerdict} {pr : Nat}
    (planned : .inspect pr head ∈ plan prs recorded) :
    ∃ listed ∈ prs, listed.number = pr ∧ listed.headSha = head := by
  obtain ⟨listed, member, here⟩ := List.mem_flatMap.mp planned
  refine ⟨listed, member, ?_⟩
  simp only [planOne] at here
  split at here
  · cases here
  · rcases List.mem_append.mp here with restored | inspected
    · obtain ⟨label, _, isRestore⟩ := Option.map_eq_some_iff.mp (Option.mem_toList.mp restored)
      cases isRestore
    · split at inspected
      · cases inspected
      · cases List.mem_singleton.mp inspected
        exact ⟨Eq.refl _, Eq.refl _⟩

/-- The whole pass records what an action of it found at an unrejected head. -/
theorem recorded_cases {row : LoopJob} (recorded : pass.Recorded row) :
    ∃ repair id, judged pass.forge (.inspect pass.number (headOf pass.opened pass.listed)) =
        some (pass.number, headOf pass.opened pass.listed, repair) ∧
      .inspect pass.number (headOf pass.opened pass.listed) ∈ pass.planned ∧
      Rejected pass.tenant pass.workspace pass.store pass.number
        (headOf pass.opened pass.listed) = false ∧
      row = rowOf pass.tenant pass.workspace pass.requestedBy pass.now
        (pass.number, headOf pass.opened pass.listed, repair) id := by
  obtain ⟨member, isNew, about⟩ := recorded
  obtain ⟨added, rows, each⟩ := foldl_rows pass.workspace pass.requestedBy pass.forge
    pass.planned ⟨pass.store, 0, 0, 0, []⟩ pass.kept pass.onward
  have inAdded : row ∈ added := by
    have either := List.mem_append.mp (rows ▸ member)
    exact either.resolve_left isNew
  obtain ⟨action, isPlanned, found, id, isFound, unrejected, _, isRow⟩ := each row inAdded
  have isInspect := judged_some isFound
  subst isInspect
  obtain ⟨listed, inList, sameNumber, sameHead⟩ := mem_plan isPlanned
  obtain ⟨number, head, repair⟩ := found
  simp only at sameNumber sameHead isPlanned isFound unrejected
  have isNumber : number = pass.number := by
    refine asI64_inj (sameNumber ▸ pass.smallListed listed inList) pass.small ?_
    rw [isRow] at about
    exact Option.some.inj about
  subst isNumber
  have isHead : head = headOf pass.opened pass.listed :=
    sameHead ▸ pass.cached listed inList sameNumber
  subst isHead
  exact ⟨repair, id, isFound, isPlanned, unrejected, isRow⟩

/-- What a pass finds where it looks is recorded. -/
theorem recorded_of_judged (looks : pass.Looks) {repair : Repair}
    (found : judged pass.forge (.inspect pass.number (headOf pass.opened pass.listed)) =
      some (pass.number, headOf pass.opened pass.listed, repair)) :
    ∃ id, pass.Recorded (rowOf pass.tenant pass.workspace pass.requestedBy pass.now
      (pass.number, headOf pass.opened pass.listed, repair) id) := by
  obtain ⟨planned, unrejected, _⟩ := looks
  have alone : ∀ action ∈ pass.planned, ∀ other, judged pass.forge action = some other →
      asI64 other.1 = asI64 pass.number → other.2.1 = headOf pass.opened pass.listed →
        other = (pass.number, headOf pass.opened pass.listed, repair) := by
    intro action isPlanned other isOther sameNumber sameHead
    have isInspect := judged_some isOther
    subst isInspect
    obtain ⟨listed, inList, isNumber, _⟩ := mem_plan isPlanned
    have same := asI64_inj (isNumber ▸ pass.smallListed listed inList) pass.small sameNumber
    rw [same, sameHead, found] at isOther
    exact (Option.some.inj isOther).symm
  obtain ⟨id, fresh, member⟩ := foldl_records
    ⟨pass.store, 0, 0, 0, []⟩ pass.kept pass.onward ⟨_, planned, found⟩ alone
    unrejected
  refine ⟨id, member, ?_, Eq.refl _⟩
  intro earlier
  obtain ⟨entry, inLedger, isRow⟩ := List.mem_map.mp earlier
  have issued := (pass.kept.ordered.issued entry.row.fixed
    (Jobs.Ledger.mem_fixed.mpr ⟨entry, inLedger, Eq.refl _⟩)).1
  rw [isRow] at issued
  exact absurd issued (Nat.not_lt.mpr fresh)

/-- A pass records a rejection only at the head that was judged exactly where it
is steady: where it looks at a conflict the head has not moved since the list,
and where it looks at a queue the head was not moved to a backdated commit. -/
theorem rejection_at_judged_head_iff (pass : Pass) :
    (∀ row, pass.Recorded row → pass.AtJudgedHead row) ↔ pass.Steady := by
  constructor
  · intro right looks
    constructor
    · intro conflicts
      obtain ⟨id, recorded⟩ := recorded_of_judged looks (judged_conflict looks.2.2 conflicts)
      have atHead := (right _ recorded).conflict (Eq.refl _) _ (Eq.refl _)
      rw [← details_headSha]
      exact atHead.2.2
    · intro clean answered still backdated
      obtain ⟨unmerged, outside, moved, removed, latest, rejected, dated⟩ := backdated
      have read : pass.ejection = some ⟨headOf pass.opened pass.queried, removed.2⟩ :=
        (queueEjection_of_log pass.ordered).mpr
          ⟨unmerged, outside, removed, latest, rejected, dated, Eq.refl _⟩
      obtain ⟨id, recorded⟩ := recorded_of_judged looks
        ((judged_queue looks.2.2 clean).mpr ⟨answered, _, read, still, Eq.refl _⟩)
      have ejected := (right _ recorded).ejected (Eq.refl _) _ (Eq.refl _)
      rw [ejected.unmoved.2] at moved
      contradiction
  · intro steady row recorded
    obtain ⟨repair, id, found, planned, unrejected, isRow⟩ := recorded_cases recorded
    have answered : pass.detailsAnswered = true := by
      by_contra unread
      rw [judged_unread (Bool.not_eq_true _ ▸ unread)] at found
      cases found
    obtain ⟨ofConflict, ofQueue⟩ := steady ⟨planned, unrejected, answered⟩
    by_cases conflicts : mergeableOf pass.detailed = some false
    · rw [judged_conflict answered conflicts] at found
      cases found
      rw [isRow]
      refine ⟨fun _ head isHead => ?_, nofun⟩
      cases isHead
      exact ⟨answered, by simpa using conflicts, by simpa using ofConflict conflicts⟩
    · obtain ⟨queueAnswered, ejection, read, atHead, isRepair⟩ :=
        (judged_queue answered conflicts).mp found
      cases isRepair
      rw [isRow]
      refine ⟨nofun, fun _ head isHead => ?_⟩
      cases isHead
      obtain ⟨unmerged, outside, removed, latest, rejected, dated, isEjection⟩ :=
        (queueEjection_of_log pass.ordered).mp read
      have still : headOf pass.opened pass.queried = headOf pass.opened pass.listed := by
        rw [← atHead]
        exact congrArg Jobs.QueueEjection.headSha isEjection
      have unmoved : movedSince pass.opened pass.queried = false := by
        by_contra moved
        exact ofQueue conflicts queueAnswered still ⟨unmerged, outside,
          Bool.not_eq_false _ ▸ moved, removed, latest, rejected, dated⟩
      have ejected := (ejectedAt_iff pass.ordered read).mpr unmoved
      rw [atHead] at ejected
      exact ejected

/-- A forge that answers nothing else, and takes no write. -/
def silentForge : Jobs.Forge :=
  { mergeable := fun _ => none
    queueEjection := fun _ => none
    issueCommentBodies := fun _ => none
    comment := fun _ _ => false
    setVerdictLabel := fun _ _ => false }

/-- Pull request 7 is pushed to after it was listed, and conflicts since. -/
def pushedAfterList : Pass :=
  { tenant := 1, workspace := 3, requestedBy := 2, now := 10
    store := JobStore.empty
    prs := [{ number := 7, headSha := "a", baseRef := "main", labels := [] }]
    number := 7, body := none, opened := "a"
    committedDate := fun _ => 0
    listed := []
    beforeDetails := [⟨2, .computed (some false)⟩, ⟨1, .push "b"⟩]
    beforeQueue := []
    detailsAnswered := true, queueAnswered := true, others := silentForge
    kept := JobStore.kept_empty
    onward := by decide
    small := by decide
    smallListed := by simp
    cached := by simp [headOf]
    ordered := by simp
    committed := by simp }

/-- The same pull request conflicts and is not pushed to. -/
def conflictsWhereListed : Pass :=
  { pushedAfterList with
    beforeDetails := [⟨1, .computed (some false)⟩]
    onward := by decide
    ordered := by simp [pushedAfterList]
    committed := by simp [pushedAfterList] }

/-- A steady pass records the conflict at the head it has looked at. -/
theorem conflict_recorded :
    conflictsWhereListed.Looks ∧ conflictsWhereListed.Steady ∧
      conflictsWhereListed.Recorded (rowOf 1 3 2 10 (7, "a", .conflict 7 "a") 0) := by
  have conflicts : mergeableOf conflictsWhereListed.detailed = some false := by decide +kernel
  refine ⟨⟨?_, ?_, ?_⟩, fun _ => ⟨fun _ => ?_, fun clean => absurd conflicts clean⟩, ?_, ?_, ?_⟩
  all_goals decide +kernel

/-- Pull request 7 is pushed a commit, made before the queue ejected it. -/
def pushedAfterEjection : Pass :=
  { tenant := 1, workspace := 3, requestedBy := 2, now := 10
    store := JobStore.empty
    prs := [{ number := 7, headSha := "b", baseRef := "main", labels := [] }]
    number := 7, body := none, opened := "a"
    committedDate := fun _ => 0
    listed := [⟨3, .push "b"⟩, ⟨2, .remove "failed_checks"⟩, ⟨1, .enter⟩]
    beforeDetails := []
    beforeQueue := []
    detailsAnswered := true, queueAnswered := true, others := silentForge
    kept := JobStore.kept_empty
    onward := by decide
    small := by decide
    smallListed := by simp
    cached := by simp [headOf]
    ordered := by simp
    committed := by simp }

/-- A conflict found at one head is recorded at another, and an ejection of one
head at another. -/
theorem rejection_at_other_head :
    (∃ row, pushedAfterList.Recorded row ∧ ¬ pushedAfterList.AtJudgedHead row) ∧
      ∃ row, pushedAfterEjection.Recorded row ∧ ¬ pushedAfterEjection.AtJudgedHead row := by
  constructor
  · refine ⟨rowOf 1 3 2 10 (7, "a", .conflict 7 "a") 0, ⟨?_, ?_, ?_⟩, ?_⟩
    · decide +kernel
    · decide +kernel
    · decide +kernel
    · intro right
      have atHead := (right.conflict (by decide +kernel) "a" (by decide +kernel)).2.2
      exact absurd atHead (by decide +kernel)
  · refine ⟨rowOf 1 3 2 10 (7, "b", .ejected 7 "b" "failed_checks") 0, ⟨?_, ?_, ?_⟩, ?_⟩
    · decide +kernel
    · decide +kernel
    · decide +kernel
    · intro right
      have ejected := right.ejected (by decide +kernel) "b" (by decide +kernel)
      exact absurd ejected.unmoved.2 (by decide +kernel)

end Pass

end NookOs.Forge
