/-
Module: NookOs.Forge.Demand
Purpose: Review demand as the reconciler sees it: the last list a forge answered,
  kept through failures, and what every answer of it rests on.
Trusted boundary: none
Main exports: ReviewDemand, ReviewDemand.ask, ReviewDemand.recordOk, Polls.Sound, reads_complete
-/
import NookOs.Forge.Reads
import NookOs.Lib.Run
import NookOs.Lib.Text

namespace NookOs.Forge

open Lib
open Jobs (PullRequest Instant WorkspaceId)

/-! ### Which repository a remote names -/

structure Repo where
  owner : List Char
  name : List Char
deriving DecidableEq

/-- The repository of a remote on GitHub, of the remote's normal form. -/
def githubRepo (normalized : List Char) : Option Repo := do
  let (host, path) ← Text.splitOnce '/' normalized
  if host ≠ "github.com".toList then none
  else match path.splitOn '/' with
    | [owner, name] => if owner = [] ∨ name = [] then none else some ⟨owner, name⟩
    | _ => none

/-! ### The cache -/

/-- How the last attempt failed: the token, or everything else. -/
inductive ForgeTrouble where
  | credentialRejected (error : ForgeError)
  | unreachable (error : ForgeError)
deriving DecidableEq

/-- A spent budget is a 403 too. -/
def isRateLimit (body : String) : Bool :=
  decide ("rate limit".toList <:+: body.toList.map Char.toLower)

def troubleOf (error : ForgeError) : ForgeTrouble :=
  match error with
  | .http status body =>
      if status = 401 ∨ (status = 403 ∧ isRateLimit body = false) then .credentialRejected error
      else .unreachable error
  | .other _ => .unreachable error

/-- What was last learned about one workspace.  `items` is the last list the
forge answered, and `none` where it never has. -/
structure Cached where
  items : Option (List PullRequest)
  fetched : Instant
  trouble : Option ForgeTrouble
deriving DecidableEq

/-- The forge that is asked: as the workspace's own token, or the deployment's. -/
inductive Reader where
  | own (token : String)
  | deployment
deriving DecidableEq

/-- The view of review demand.  No holder of the lock on what was seen panics,
so the lock is never poisoned. -/
structure ReviewDemand where
  hasForge : Bool
  ttl : Int
  seen : WorkspaceId → Option Cached

/-- What a caller gets at once, or the read it goes on to make. -/
inductive Asked where
  | told (prs : Option (List PullRequest))
  | reading (reader : Reader) (repo : Repo)
deriving DecidableEq

namespace ReviewDemand

variable (demand : ReviewDemand)

/-- The workspace's own token outranks the deployment's forge. -/
def reader (token : Option String) : Option Reader :=
  match token with
  | some token => some (.own token)
  | none => if demand.hasForge then some .deployment else none

/-- The cached answer, inside its time to live. -/
def fresh (workspace : WorkspaceId) (now : Instant) : Option (Option (List PullRequest)) := do
  let cached ← demand.seen workspace
  if now - cached.fetched < demand.ttl then some cached.items else none

/-- A question, up to the read it makes. -/
def ask (normalizeRemote : List Char → List Char) (workspace : WorkspaceId)
    (remote : Option (List Char)) (token : Option String) (now : Instant) : Asked :=
  match demand.reader token, (remote.map normalizeRemote).bind githubRepo with
  | some reader, some repo =>
      match demand.fresh workspace now with
      | some prs => .told prs
      | none => .reading reader repo
  | _, _ => .told none

def record (workspace : WorkspaceId) (cached : Option Cached) : ReviewDemand :=
  { demand with seen := Function.update demand.seen workspace cached }

def recordOk (workspace : WorkspaceId) (items : List PullRequest) (now : Instant) :
    ReviewDemand :=
  demand.record workspace (some { items := some items, fetched := now, trouble := none })

/-- The last list, where there is one. -/
def last (workspace : WorkspaceId) : Option (List PullRequest) :=
  (demand.seen workspace).bind Cached.items

/-- Keep the last list, and stamp the clock. -/
def recordErr (workspace : WorkspaceId) (error : ForgeError) (now : Instant) : ReviewDemand :=
  demand.record workspace (some {
    items := demand.last workspace
    fetched := now
    trouble := some (troubleOf error) })

/-- The end of a read: what it leaves behind, and what its caller is told. -/
def answered (workspace : WorkspaceId) (outcome : Except ForgeError (List PullRequest))
    (now : Instant) : ReviewDemand × Option (List PullRequest) :=
  match outcome with
  | .ok items => (demand.recordOk workspace items now, some items)
  | .error error => (demand.recordErr workspace error now, demand.last workspace)

/-- The next question is put to the forge. -/
def forget (workspace : WorkspaceId) : ReviewDemand :=
  demand.record workspace none

@[simp] theorem record_seen {workspace other : WorkspaceId} {cached : Option Cached} :
    (demand.record workspace cached).seen other =
      if other = workspace then cached else demand.seen other :=
  Function.update_apply _ _ _ _

end ReviewDemand

/-! ### Questions that overlap -/

/-- The cache with its callers: whose read is in flight, what each successful
read returned, and what each caller was told, the latest first. -/
structure Polls (Caller : Type) where
  demand : ReviewDemand
  inFlight : Caller → Option WorkspaceId
  successes : List (WorkspaceId × List PullRequest)
  answers : List (WorkspaceId × Option (List PullRequest))

/-- What happens next, with what the environment chooses for it. -/
inductive Poll (Caller : Type) where
  | ask (caller : Caller) (workspace : WorkspaceId) (remote : Option (List Char))
      (token : Option String) (now : Instant)
  | answer (caller : Caller) (outcome : Except ForgeError (List PullRequest)) (now : Instant)
  | forget (workspace : WorkspaceId)

namespace Polls

variable {Caller : Type}

/-- No read was made yet. -/
def start (hasForge : Bool) (ttl : Int) : Polls Caller :=
  { demand := { hasForge := hasForge, ttl := ttl, seen := fun _ => none }
    inFlight := fun _ => none
    successes := []
    answers := [] }

/-- The successful reads, with this one. -/
def succeeded (polls : Polls Caller) (workspace : WorkspaceId) :
    Except ForgeError (List PullRequest) → List (WorkspaceId × List PullRequest)
  | .ok items => (workspace, items) :: polls.successes
  | .error _ => polls.successes

variable {outcome : Except ForgeError (List PullRequest)} {items : List PullRequest}

theorem mem_succeeded {polls : Polls Caller} {workspace other : WorkspaceId} :
    (other, items) ∈ polls.succeeded workspace outcome ↔
      other = workspace ∧ outcome = .ok items ∨ (other, items) ∈ polls.successes := by
  cases outcome with
  | ok read => simp [succeeded, eq_comm]
  | error error => simp [succeeded]

/-- Whatever list is kept or was told of a workspace, a read of it returned. -/
structure Sound (polls : Polls Caller) : Prop where
  kept : ∀ workspace items, polls.demand.last workspace = some items →
    (workspace, items) ∈ polls.successes
  told : ∀ workspace items, (workspace, some items) ∈ polls.answers →
    (workspace, items) ∈ polls.successes

theorem start_sound {hasForge : Bool} {ttl : Int} :
    (@start Caller hasForge ttl).Sound where
  kept workspace items last := by simp [start, ReviewDemand.last] at last
  told workspace items member := by simp [start] at member

variable [DecidableEq Caller] {normalizeRemote : List Char → List Char}
  {polls after : Polls Caller} {poll : Poll Caller}

def step (normalizeRemote : List Char → List Char) (polls : Polls Caller) :
    Poll Caller → Option (Polls Caller)
  | .ask caller workspace remote token now =>
      if polls.inFlight caller ≠ none then none
      else match polls.demand.ask normalizeRemote workspace remote token now with
        | .told prs => some { polls with answers := (workspace, prs) :: polls.answers }
        | .reading _ _ =>
            some { polls with inFlight := Function.update polls.inFlight caller (some workspace) }
  | .answer caller outcome now =>
      (polls.inFlight caller).map fun workspace =>
        let (demand, prs) := polls.demand.answered workspace outcome now
        { demand := demand
          inFlight := Function.update polls.inFlight caller none
          successes := polls.succeeded workspace outcome
          answers := (workspace, prs) :: polls.answers }
  | .forget workspace => some { polls with demand := polls.demand.forget workspace }

variable {now : Instant} {workspace : WorkspaceId} {demand : ReviewDemand}

theorem last_of_fresh (fresh : demand.fresh workspace now = some (some items)) :
    demand.last workspace = some items := by
  obtain ⟨cached, seen, inside⟩ := Option.bind_eq_some_iff.mp fresh
  rw [ReviewDemand.last, seen]
  split at inside
  · exact Option.some.inj inside
  · cases inside

/-- A list told without a read is the kept one. -/
theorem last_of_told {remote : Option (List Char)} {token : Option String}
    (told : demand.ask normalizeRemote workspace remote token now = .told (some items)) :
    demand.last workspace = some items := by
  unfold ReviewDemand.ask at told
  split at told
  · cases fresh : demand.fresh workspace now with
    | none => simp [fresh] at told
    | some prs =>
        simp only [fresh, Asked.told.injEq] at told
        exact last_of_fresh (told ▸ fresh)
  · cases told

/-- What is kept after a read's end was kept before, or is what it returned. -/
theorem last_answered {workspace other : WorkspaceId}
    (last : (demand.answered workspace outcome now).1.last other = some items) :
    demand.last other = some items ∨ other = workspace ∧ outcome = .ok items := by
  cases outcome with
  | ok read =>
      by_cases same : other = workspace
      · subst same
        simp only [ReviewDemand.answered, ReviewDemand.recordOk, ReviewDemand.last,
          ReviewDemand.record_seen, if_true, Option.bind_some, Option.some.injEq] at last
        exact .inr ⟨Eq.refl other, by rw [last]⟩
      · refine .inl ?_
        simpa [ReviewDemand.answered, ReviewDemand.recordOk, ReviewDemand.last, same] using last
  | error error =>
      refine .inl ?_
      by_cases same : other = workspace
      · subst same
        simpa [ReviewDemand.answered, ReviewDemand.recordErr, ReviewDemand.last] using last
      · simpa [ReviewDemand.answered, ReviewDemand.recordErr, ReviewDemand.last, same] using last

theorem told_of_answered (told : (demand.answered workspace outcome now).2 = some items) :
    demand.last workspace = some items ∨ outcome = .ok items := by
  cases outcome with
  | ok read =>
      simp only [ReviewDemand.answered, Option.some.injEq] at told
      exact .inr (by rw [told])
  | error error => exact .inl told

theorem Sound.ask (sound : polls.Sound) {caller : Caller}
    {remote : Option (List Char)} {token : Option String}
    (taken : step normalizeRemote polls (.ask caller workspace remote token now) = some after) :
    after.Sound := by
  simp only [step] at taken
  split at taken
  · cases taken
  · split at taken
    · rename_i prs told
      cases taken
      refine ⟨sound.kept, ?_⟩
      intro other items member
      rcases List.mem_cons.mp member with same | earlier
      · cases same
        exact sound.kept _ _ (last_of_told told)
      · exact sound.told _ _ earlier
    · cases taken
      exact ⟨sound.kept, sound.told⟩

theorem Sound.answer (sound : polls.Sound) {caller : Caller}
    (taken : step normalizeRemote polls (.answer caller outcome now) = some after) :
    after.Sound := by
  obtain ⟨workspace, _, moved⟩ := Option.map_eq_some_iff.mp taken
  subst moved
  constructor
  · intro other items last
    rcases last_answered last with before | fetched
    · exact mem_succeeded.mpr (.inr (sound.kept _ _ before))
    · exact mem_succeeded.mpr (.inl fetched)
  · intro other items member
    rcases List.mem_cons.mp member with same | earlier
    · obtain ⟨isWorkspace, told⟩ := Prod.mk.inj same
      subst isWorkspace
      rcases told_of_answered told.symm with before | fetched
      · exact mem_succeeded.mpr (.inr (sound.kept _ _ before))
      · exact mem_succeeded.mpr (.inl ⟨Eq.refl other, fetched⟩)
    · exact mem_succeeded.mpr (.inr (sound.told _ _ earlier))

theorem Sound.step (sound : polls.Sound) (taken : step normalizeRemote polls poll = some after) :
    after.Sound := by
  cases poll with
  | ask caller workspace remote token now => exact sound.ask taken
  | answer caller outcome now => exact sound.answer taken
  | forget workspace =>
      cases taken
      refine ⟨?_, sound.told⟩
      intro other items last
      refine sound.kept other items ?_
      by_cases same : other = workspace
      · simp [ReviewDemand.forget, ReviewDemand.last, same] at last
      · simpa [ReviewDemand.forget, ReviewDemand.last, same] using last

theorem run_sound {hasForge : Bool} {ttl : Int} {events : List (Poll Caller)}
    (ran : run (Polls.step normalizeRemote) (start hasForge ttl) events = some after) :
    after.Sound :=
  run_invariant Sound (fun _ _ _ sound taken => sound.step taken) start_sound ran

end Polls

/-! ### What a read that succeeds has read -/

section Complete

variable {api : Api}

theorem request_number {pull : Pull} {pr : PullRequest} (told : pull.request = some pr) :
    pr.number = pull.number := by
  unfold Pull.request at told
  split at told
  · cases told
  · obtain ⟨headSha, _, same⟩ := Option.map_eq_some_iff.mp told
    rw [← same]

theorem mergedPr_number {since : Instant} {pull : Pull} {merged : MergedPr}
    (told : pull.mergedPr since = some merged) : merged.number = pull.number := by
  obtain ⟨mergedAt, _, same⟩ := Option.map_eq_some_iff.mp told
  rw [← same]

/-- A pull request merged from an instant on is closed, and was updated since. -/
theorem merged_recent {pull : Pull} {since : Instant} {merged : MergedPr}
    (member : pull ∈ api.repository.pulls) (told : pull.mergedPr since = some merged) :
    pull.state = .closed ∧ since ≤ pull.updatedAt := by
  obtain ⟨mergedAt, kept, _⟩ := Option.map_eq_some_iff.mp told
  obtain ⟨atInstant, from_⟩ := Option.filter_eq_some_iff.mp kept
  have isMerged : pull.mergedAt ≠ none := by simp [atInstant]
  exact ⟨api.repository.mergeCloses pull member isMerged,
    (of_decide_eq_true from_).trans
      (api.repository.mergeUpdates pull member mergedAt atInstant)⟩

/-- A read of open pull requests tells of those it sees, each once. -/
theorem prsNeedingReview_seen {prs : List PullRequest} (answered : prsNeedingReview api = .ok prs) :
    (prs.map PullRequest.number).Nodup ∧
      ∀ pr, pr ∈ prs ↔
        ∃ pull ∈ api.repository.seen .opened .created, pull.request = some pr := by
  rw [prsNeedingReview_ok answered]
  refine ⟨filterMap_numbered (fun pull pr told => request_number told)
    (api.repository.seen_numbered _ _), ?_⟩
  intro pr
  exact List.mem_filterMap

/-- Where the open ones fit on a page, it tells of them all. -/
theorem prsNeedingReview_all {prs : List PullRequest} (answered : prsNeedingReview api = .ok prs)
    (fits : (api.repository.pulls.filter (·.state = .opened)).length ≤ pageSize)
    (pr : PullRequest) :
    pr ∈ prs ↔ ∃ pull ∈ api.repository.pulls, pull.state = .opened ∧ pull.request = some pr := by
  rw [(prsNeedingReview_seen answered).2]
  constructor
  · rintro ⟨pull, seen, told⟩
    obtain ⟨member, isOpen⟩ := Repository.mem_seen seen
    exact ⟨pull, member, isOpen, told⟩
  · rintro ⟨pull, member, isOpen, told⟩
    have fitsFrom : (api.repository.pulls.filter fun other =>
        other.state = .opened ∧ pull.createdAt ≤ other.createdAt).length ≤ pageSize :=
      ((List.monotone_filter_right _ fun other both =>
        decide_eq_true (of_decide_eq_true both).1).length_le).trans fits
    exact ⟨pull, Repository.mem_seen_of_fits .created fitsFrom member isOpen
      (Int.le_refl _), told⟩

/-- A read of merged pull requests tells of those it sees, each once and the
newest merge first. -/
theorem mergedPrsSince_seen {since : Instant} {merged : List MergedPr}
    (answered : mergedPrsSince api since = .ok merged) :
    (merged.map MergedPr.number).Nodup ∧
      (merged.Pairwise fun first second => second.mergedAt ≤ first.mergedAt) ∧
      ∀ pr, pr ∈ merged ↔
        ∃ pull ∈ api.repository.seen .closed .updated, pull.mergedPr since = some pr := by
  rw [mergedPrsSince_ok answered]
  refine ⟨?_, Paging.byRecency_falling, ?_⟩
  · refine (Paging.byRecency_perm.map _).nodup_iff.mpr ?_
    exact filterMap_numbered (fun pull pr told => mergedPr_number told)
      (api.repository.seen_numbered _ _)
  · intro pr
    rw [Paging.byRecency_perm.mem_iff]
    exact List.mem_filterMap

/-- Where the closed ones updated since fit on a page, it tells of all that were
merged since. -/
theorem mergedPrsSince_all {since : Instant} {merged : List MergedPr}
    (answered : mergedPrsSince api since = .ok merged)
    (fits : (api.repository.pulls.filter fun pull =>
      pull.state = .closed ∧ since ≤ pull.updatedAt).length ≤ pageSize) (pr : MergedPr) :
    pr ∈ merged ↔ ∃ pull ∈ api.repository.pulls, pull.mergedPr since = some pr := by
  rw [(mergedPrsSince_seen answered).2.2]
  constructor
  · rintro ⟨pull, seen, told⟩
    exact ⟨pull, (Repository.mem_seen seen).1, told⟩
  · rintro ⟨pull, member, told⟩
    obtain ⟨isClosed, recent⟩ := merged_recent member told
    exact ⟨pull, Repository.mem_seen_of_fits .updated fits member isClosed recent, told⟩

/-- A forge read covers its page or fails: the pull requests under review are
those of the hundred newest open ones, the merges those of the hundred closed
ones updated last, the comments all of them; and a list told of a workspace, in
any order of questions, failures and recoveries, is one a read of it returned. -/
theorem reads_complete (api : Api) (Caller : Type) [DecidableEq Caller]
    (normalizeRemote : List Char → List Char) (hasForge : Bool) (ttl : Int) :
    (∀ prs, prsNeedingReview api = .ok prs →
      (prs.map PullRequest.number).Nodup ∧
      (∀ pr, pr ∈ prs ↔
        ∃ pull ∈ api.repository.seen .opened .created, pull.request = some pr) ∧
      ((api.repository.pulls.filter (·.state = .opened)).length ≤ pageSize →
        ∀ pr, pr ∈ prs ↔
          ∃ pull ∈ api.repository.pulls, pull.state = .opened ∧ pull.request = some pr)) ∧
    (∀ since merged, mergedPrsSince api since = .ok merged →
      (merged.map MergedPr.number).Nodup ∧
      (merged.Pairwise fun first second => second.mergedAt ≤ first.mergedAt) ∧
      (∀ pr, pr ∈ merged ↔
        ∃ pull ∈ api.repository.seen .closed .updated, pull.mergedPr since = some pr) ∧
      ((api.repository.pulls.filter fun pull =>
          pull.state = .closed ∧ since ≤ pull.updatedAt).length ≤ pageSize →
        ∀ pr, pr ∈ merged ↔
          ∃ pull ∈ api.repository.pulls, pull.mergedPr since = some pr)) ∧
    (∀ number bodies, issueCommentBodies api number = .ok bodies →
      bodies = (api.repository.comments number).filterMap id) ∧
    ∀ (events : List (Poll Caller)) (after : Polls Caller),
      run (Polls.step normalizeRemote) (Polls.start hasForge ttl) events = some after →
        ∀ workspace items, (workspace, some items) ∈ after.answers →
          (workspace, items) ∈ after.successes := by
  refine ⟨?_, ?_, fun _ _ answered => issueCommentBodies_ok answered, ?_⟩
  · intro prs answered
    obtain ⟨once, those⟩ := prsNeedingReview_seen answered
    exact ⟨once, those, fun fits => prsNeedingReview_all answered fits⟩
  · intro since merged answered
    obtain ⟨once, falling, those⟩ := mergedPrsSince_seen answered
    exact ⟨once, falling, those, fun fits => mergedPrsSince_all answered fits⟩
  · intro events after ran
    exact (Polls.run_sound ran).told

/-- A hundred and one open pull requests and as many merged ones. -/
def crowdedPulls : List Pull :=
  (List.range 101).flatMap fun number =>
    [ { number := number, state := .opened, draft := false, head := some "head"
        labels := [], baseRef := "main", body := none
        createdAt := number, updatedAt := number, mergedAt := none },
      { number := 200 + number, state := .closed, draft := false, head := some "head"
        labels := [], baseRef := "main", body := none
        createdAt := 0, updatedAt := 500 + number, mergedAt := some 500 } ]

def crowded : Repository :=
  { pulls := crowdedPulls
    listing := fun state sort => Paging.byRecency sort.key (crowdedPulls.filter (·.state = state))
    comments := fun _ => []
    numbered := by decide +kernel
    listed := fun _ _ => Paging.byRecency_perm
    newestFirst := fun _ _ => Paging.byRecency_falling
    mergeCloses := by decide +kernel
    mergeUpdates := by decide +kernel }

/-- The oldest open pull request is left out of a list read without an error,
and so is the merge whose pull request was updated longest ago. -/
theorem reads_incomplete :
    (∃ prs, prsNeedingReview ⟨crowded, fun _ => none⟩ = .ok prs ∧
      (∃ pull ∈ crowded.pulls, pull.number = 0 ∧ pull.state = .opened ∧
        pull.request.isSome = true) ∧
      0 ∉ prs.map PullRequest.number) ∧
    ∃ merged, mergedPrsSince ⟨crowded, fun _ => none⟩ 500 = .ok merged ∧
      (∃ pull ∈ crowded.pulls, pull.number = 200 ∧
        (pull.mergedPr 500).isSome = true) ∧
      200 ∉ merged.map MergedPr.number :=
  ⟨⟨needingReview ((Paging.page pageSize (crowded.listing .opened .created) 1).map
      Pull.document), rfl, by decide +kernel, by decide +kernel⟩,
    mergedSince 500 ((Paging.page pageSize (crowded.listing .closed .updated) 1).map
      Pull.document), rfl, by decide +kernel, by decide +kernel⟩

end Complete

end NookOs.Forge
