/-
Module: NookOs.Queue.Redis
Purpose: The Redis queue backend: every Lua script as one atomic step over the
  sorted sets, job hashes and dead lists, under any number of consumers.
Trusted boundary: none
Main exports: RedisQueue, Script, Observed.step, KeepsExtension, redisQueue_consistent_iff
-/
import NookOs.Lib.Cells
import NookOs.Lib.Run
import NookOs.Lib.SortedSet
import NookOs.Queue.Work

namespace NookOs.Queue

open Lib

/-!
A hash field may be missing, as Redis has it: a script that reads a field of a
hash that is gone reads nothing and goes on.  The scripts take the time from
Redis, in milliseconds, so `now` is an argument here, and the clock they are
stepped under never goes back.
-/

/-- The hash of `nq:job:<id>` or `nq:deadjob:<id>`. -/
structure JobHash where
  tenant : Option TenantId := none
  type : Option WorkType := none
  payload : Option (List UInt8) := none
  attempts : Option Nat := none
  max : Option Nat := none
  notBefore : Option Instant := none
  enqueuedAt : Option Instant := none
  deadReason : Option String := none
deriving DecidableEq

/-- The keys under `nq:` that the scripts move messages between. -/
structure RedisQueue where
  ready : WorkType → SortedSet MessageId
  claimed : WorkType → SortedSet MessageId
  job : MessageId → Option JobHash
  deadJob : MessageId → Option JobHash
  dead : WorkType → List MessageId

/-- The seven flat values RECEIVE answers for one message. -/
structure Delivery where
  id : MessageId
  tenant : Option TenantId
  payload : Option (List UInt8)
  attempts : Option Nat
  max : Option Nat
  notBefore : Option Instant
  enqueuedAt : Option Instant
deriving DecidableEq

/-- `Duration::as_millis`. -/
def asMillis (duration : Duration) : Nat := duration / 1000

namespace RedisQueue

/-- No key at all. -/
def empty : RedisQueue :=
  { ready := fun _ => .empty
    claimed := fun _ => .empty
    job := fun _ => none
    deadJob := fun _ => none
    dead := fun _ => [] }

section Commands

variable (ty : WorkType) (score : Instant) (id : MessageId) (queue : RedisQueue)

def zaddReady : RedisQueue :=
  { queue with
    ready := Function.update queue.ready ty ((queue.ready ty).add id score) }

def zremReady : RedisQueue :=
  { queue with
    ready := Function.update queue.ready ty ((queue.ready ty).remove id) }

def zaddClaimed : RedisQueue :=
  { queue with
    claimed := Function.update queue.claimed ty
      ((queue.claimed ty).add id score) }

def zremClaimed : RedisQueue :=
  { queue with
    claimed := Function.update queue.claimed ty ((queue.claimed ty).remove id) }

/-- A command that sets fields of `nq:job:<id>`, which makes the hash if it is
not there. -/
def hset (change : JobHash → JobHash) : RedisQueue :=
  { queue with
    job := Function.update queue.job id
      (some (change ((queue.job id).getD {}))) }

/-- `HINCRBY nq:job:<id> attempts 1`. -/
def hincrbyAttempts : RedisQueue :=
  hset id queue fun hash =>
    { hash with attempts := some (hash.attempts.getD 0 + 1) }

/-- `DEL nq:job:<id>`. -/
def delJob : RedisQueue :=
  { queue with job := Function.update queue.job id none }

end Commands

/-- The prelude's `dead_letter`. -/
def deadLetter (ty : WorkType) (reason : String) (id : MessageId)
    (queue : RedisQueue) : RedisQueue :=
  match queue.job id with
  | none => queue
  | some hash =>
      { queue with
        job := Function.update queue.job id none
        deadJob := Function.update queue.deadJob id
          (some { hash with deadReason := some reason })
        dead := Function.update queue.dead ty (queue.dead ty ++ [id]) }

/-- When new work becomes visible. -/
def notBefore (now : Instant) (work : NewWork) : Instant :=
  now + (work.delay.map asMillis).getD 0

/-- The fields ENQUEUE sets. -/
def enqueueFields (now : Instant) (work : NewWork) (hash : JobHash) : JobHash :=
  { hash with
    tenant := some work.tenantId
    type := some work.workType
    payload := some work.payload
    attempts := some 0
    max := some work.maxAttempts
    notBefore := some (notBefore now work)
    enqueuedAt := some now }

/-- ENQUEUE, as `RedisQueue::enqueue` invokes it. -/
def enqueue (now : Instant) (id : MessageId) (work : NewWork)
    (queue : RedisQueue) : RedisQueue :=
  zaddReady work.workType (notBefore now work) id
    (hset id queue (enqueueFields now work))

/-- RECEIVE's first loop body: a claim whose deadline passed is ready again. -/
def reclaimOne (now : Instant) (ty : WorkType) (id : MessageId)
    (queue : RedisQueue) : RedisQueue :=
  zaddReady ty now id (zremClaimed ty id queue)

/-- RECEIVE's first loop. -/
def reclaim (now : Instant) (ty : WorkType) (queue : RedisQueue) : RedisQueue :=
  ((queue.claimed ty).rangeByScore now).foldl
    (fun queue id => reclaimOne now ty id queue) queue

/-- The message has used up its attempts, as RECEIVE reads its hash. -/
def exhausted (hash : Option JobHash) : Bool :=
  ((hash.bind JobHash.max).getD 20) ≤ ((hash.bind JobHash.attempts).getD 0)

/-- RECEIVE's second loop body. -/
def receiveOne (now : Instant) (ty : WorkType) (visibility : Nat)
    (id : MessageId) (queue : RedisQueue) : RedisQueue :=
  if exhausted (queue.job id) then
    deadLetter ty "max attempts exhausted" id (zremReady ty id queue)
  else
    zaddClaimed ty (now + visibility) id
      (zremReady ty id (hincrbyAttempts id queue))

/-- RECEIVE's reading of the hash for its answer. -/
def hmget (id : MessageId) (queue : RedisQueue) : Delivery :=
  let hash := (queue.job id).getD {}
  { id
    tenant := hash.tenant
    payload := hash.payload
    attempts := hash.attempts
    max := hash.max
    notBefore := hash.notBefore
    enqueuedAt := hash.enqueuedAt }

/-- RECEIVE's second loop over its candidates. -/
def receiveEach (now : Instant) (ty : WorkType) (visibility : Nat) :
    List MessageId → RedisQueue → RedisQueue × List Delivery
  | [], queue => (queue, [])
  | id :: ids, queue =>
      let after := receiveOne now ty visibility id queue
      let rest := receiveEach now ty visibility ids after
      (rest.1,
        if exhausted (queue.job id) then rest.2
        else hmget id after :: rest.2)

/-- The ready messages RECEIVE picks: due, by score and then by id, at most
`limit` of them. -/
def candidates (now : Instant) (ty : WorkType) (limit : Nat)
    (queue : RedisQueue) : List MessageId :=
  ((queue.ready ty).rangeByScore now).take limit

/-- RECEIVE. -/
def receive (now : Instant) (ty : WorkType) (limit visibility : Nat)
    (queue : RedisQueue) : RedisQueue × List Delivery :=
  let reclaimed := reclaim now ty queue
  receiveEach now ty visibility (candidates now ty limit reclaimed) reclaimed

/-- The type the scripts look up from an id alone. -/
def typeOf (id : MessageId) (queue : RedisQueue) : Option WorkType :=
  (queue.job id).bind JobHash.type

/-- ACK. -/
def ack (id : MessageId) (queue : RedisQueue) : RedisQueue :=
  match queue.typeOf id with
  | none => queue
  | some ty => delJob id (zremReady ty id (zremClaimed ty id queue))

/-- NACK_REQUEUE. -/
def nackRequeue (now : Instant) (id : MessageId) (queue : RedisQueue) :
    RedisQueue :=
  match queue.typeOf id with
  | none => queue
  | some ty => zaddReady ty now id (zremClaimed ty id queue)

/-- NACK_DEAD. -/
def nackDead (id : MessageId) (reason : String) (queue : RedisQueue) :
    RedisQueue :=
  match queue.typeOf id with
  | none => queue
  | some ty => deadLetter ty reason id (zremReady ty id (zremClaimed ty id queue))

/-- EXTEND. -/
def extend (now : Instant) (id : MessageId) (visibility : Nat)
    (queue : RedisQueue) : RedisQueue :=
  match queue.typeOf id with
  | none => queue
  | some ty => zaddClaimed ty (now + visibility) id queue

end RedisQueue

/-- A script invoked by some producer or consumer, at Redis' time. -/
inductive Script where
  | enqueue (now : Instant) (id : MessageId) (work : NewWork)
  | receive (now : Instant) (ty : WorkType) (limit : Nat)
      (visibility : Duration)
  | ack (now : Instant) (id : MessageId)
  | nackRequeue (now : Instant) (id : MessageId)
  | nackDead (now : Instant) (id : MessageId) (reason : String)
  | extend (now : Instant) (id : MessageId) (visibility : Duration)

/-- The time a script runs at. -/
def Script.now : Script → Instant
  | .enqueue now _ _ | .receive now _ _ _ | .ack now _ | .nackRequeue now _
  | .nackDead now _ _ | .extend now _ _ => now

/-- The id an enqueue took from `Uuid::now_v7`. -/
def Script.generated : Script → Option MessageId
  | .enqueue _ id _ => some id
  | _ => none

/-- The keys, Redis' clock, the id the next `Uuid::now_v7` returns, and what an
observer of the calls knows: the latest instant each message has been extended
to since it was last nacked. -/
structure Observed where
  queue : RedisQueue
  clock : Instant
  nextId : MessageId
  extendedTo : MessageId → Option Instant

/-- No message yet. -/
def Observed.empty : Observed := ⟨.empty, 0, 0, fun _ => none⟩

namespace Observed

/-- The keys after a script. -/
def runScript (queue : RedisQueue) : Script → RedisQueue
  | .enqueue now id work => queue.enqueue now id work
  | .receive now ty limit visibility =>
      (queue.receive now ty limit (asMillis visibility)).1
  | .ack _ id => queue.ack id
  | .nackRequeue now id => queue.nackRequeue now id
  | .nackDead _ id reason => queue.nackDead id reason
  | .extend now id visibility => queue.extend now id (asMillis visibility)

/-- What the observer notes: an extension of a message that is neither acked nor
dead promises its deadline, and a nack ends every promise. -/
def note (system : Observed) : Script → MessageId → Option Instant
  | .extend now id visibility =>
      if (system.queue.job id).isSome then
        Function.update system.extendedTo id
          (some (((system.extendedTo id).map
            (max · (now + asMillis visibility))).getD
              (now + asMillis visibility)))
      else system.extendedTo
  | .nackRequeue _ id | .nackDead _ id _ =>
      Function.update system.extendedTo id none
  | .enqueue _ _ _ | .receive _ _ _ _ | .ack _ _ => system.extendedTo

/-- One script; ids are fresh and the clock never goes back. -/
def step (system : Observed) (script : Script) : Option Observed :=
  if system.clock ≤ script.now ∧
      ∀ id ∈ script.generated, id = system.nextId then
    some
      { queue := runScript system.queue script
        clock := script.now
        nextId := (script.generated.map (· + 1)).getD system.nextId
        extendedTo := system.note script }
  else none

end Observed

/-- What the scripts are to keep: a message that is ready or claimed has a hash,
is not both, and is on no dead list. -/
structure RedisQueue.Consistent (queue : RedisQueue) : Prop where
  hashed : ∀ ty id,
    (queue.ready ty).score id ≠ none ∨ (queue.claimed ty).score id ≠ none →
      queue.job id ≠ none
  apart : ∀ ty other id,
    (queue.ready ty).score id ≠ none → (queue.claimed other).score id = none
  buried : ∀ ty other id, id ∈ queue.dead ty →
    (queue.ready other).score id = none ∧ (queue.claimed other).score id = none

/-- The condition on one script: an EXTEND of a message that still exists does
not find it back in `ready`. -/
def ExtendsClaimed (before : Observed) (script : Script) (_ : Observed) : Prop :=
  match script with
  | .extend _ id _ =>
      ∀ ty ∈ before.queue.typeOf id, (before.queue.ready ty).score id = none
  | _ => True

/-- The condition on one script: an EXTEND does not set a deadline before one an
earlier EXTEND has set since the message was last nacked. -/
def NeverShortens (before : Observed) (script : Script) (_ : Observed) : Prop :=
  match script with
  | .extend now id visibility =>
      ∀ promised ∈ before.extendedTo id, promised ≤ now + asMillis visibility
  | _ => True

/-- A RECEIVE delivers no message before an instant it was extended to. -/
def KeepsExtension (before : Observed) (script : Script) (_ : Observed) : Prop :=
  match script with
  | .receive now ty limit visibility =>
      ∀ delivery ∈
        (before.queue.receive now ty limit (asMillis visibility)).2,
        ∀ promised ∈ before.extendedTo delivery.id, promised ≤ now
  | _ => True

variable {promised : Option Instant}

namespace RedisQueue

/-- All that the keys say about one message. -/
@[ext] structure View where
  ready : WorkType → Option Instant
  claimed : WorkType → Option Instant
  job : Option JobHash
  buried : WorkType → Prop

/-- The view of a message. -/
def view (queue : RedisQueue) (id : MessageId) : View :=
  { ready := fun ty => (queue.ready ty).score id
    claimed := fun ty => (queue.claimed ty).score id
    job := queue.job id
    buried := fun ty => id ∈ queue.dead ty }

namespace View

variable (ty : WorkType) (score : Instant) (visibility : Nat) (seen : View)

def zaddReady : View :=
  { seen with ready := Function.update seen.ready ty (some score) }

def zremReady : View :=
  { seen with ready := Function.update seen.ready ty none }

def zaddClaimed : View :=
  { seen with claimed := Function.update seen.claimed ty (some score) }

def zremClaimed : View :=
  { seen with claimed := Function.update seen.claimed ty none }

def hset (change : JobHash → JobHash) : View :=
  { seen with job := some (change (seen.job.getD {})) }

def hincrbyAttempts : View :=
  seen.hset fun hash => { hash with attempts := some (hash.attempts.getD 0 + 1) }

def delJob : View := { seen with job := none }

def deadLetter : View :=
  match seen.job with
  | none => seen
  | some _ =>
      { seen with
        job := none
        buried := Function.update seen.buried ty True }

/-- NACK_REQUEUE, and RECEIVE's reclaiming of an expired claim. -/
def requeue (now : Instant) (ty : WorkType) (seen : View) : View :=
  (seen.zremClaimed ty).zaddReady ty now

def ack : View := ((seen.zremClaimed ty).zremReady ty).delJob

def nackDead : View := ((seen.zremClaimed ty).zremReady ty).deadLetter ty

/-- A script that looks the type of its message up. -/
def byType (change : WorkType → View → View) (seen : View) : View :=
  match seen.job.bind JobHash.type with
  | none => seen
  | some ty => change ty seen

def receiveOne : View :=
  if exhausted seen.job then (seen.zremReady ty).deadLetter ty
  else (seen.hincrbyAttempts.zremReady ty).zaddClaimed ty (score + visibility)

end View

variable {change : WorkType → View → View}

section Locality

variable (ty : WorkType) (score : Instant) (visibility : Nat)

/-- Replacing one set of a family replaces one score of every message. -/
theorem score_update (sets : WorkType → SortedSet MessageId)
    (set : SortedSet MessageId) (id : MessageId) :
    (fun other => (Function.update sets ty set other).score id) =
      Function.update (fun other => (sets other).score id) ty (set.score id) := by
  funext other
  by_cases here : other = ty
  · rw [here, Function.update_self, Function.update_self]
  · rw [Function.update_of_ne here, Function.update_of_ne here]

theorem zaddReady_acts :
    ActsOn view (zaddReady ty score) (View.zaddReady ty score) := by
  intro queue id other
  simp only [view, zaddReady, score_update, SortedSet.score_add]
  by_cases here : other = id
  · simp only [here, if_true, View.zaddReady]
  · simp only [here, if_false, Function.update_eq_self]

theorem zremReady_acts : ActsOn view (zremReady ty) (View.zremReady ty) := by
  intro queue id other
  simp only [view, zremReady, score_update, SortedSet.score_remove]
  by_cases here : other = id
  · simp only [here, if_true, View.zremReady]
  · simp only [here, if_false, Function.update_eq_self]

theorem zaddClaimed_acts :
    ActsOn view (zaddClaimed ty score) (View.zaddClaimed ty score) := by
  intro queue id other
  simp only [view, zaddClaimed, score_update, SortedSet.score_add]
  by_cases here : other = id
  · simp only [here, if_true, View.zaddClaimed]
  · simp only [here, if_false, Function.update_eq_self]

theorem zremClaimed_acts :
    ActsOn view (zremClaimed ty) (View.zremClaimed ty) := by
  intro queue id other
  simp only [view, zremClaimed, score_update, SortedSet.score_remove]
  by_cases here : other = id
  · simp only [here, if_true, View.zremClaimed]
  · simp only [here, if_false, Function.update_eq_self]

theorem hset_acts (change : JobHash → JobHash) :
    ActsOn view (fun id queue => hset id queue change)
      (fun seen => seen.hset change) := by
  intro queue id other
  by_cases here : other = id
  · simp only [here, if_true, view, hset, View.hset, Function.update_self]
  · simp only [here, if_false, view, hset, Function.update_of_ne here]

theorem hincrbyAttempts_acts :
    ActsOn view hincrbyAttempts View.hincrbyAttempts :=
  hset_acts _

theorem delJob_acts : ActsOn view delJob View.delJob := by
  intro queue id other
  by_cases here : other = id
  · simp only [here, if_true, view, delJob, View.delJob, Function.update_self]
  · simp only [here, if_false, view, delJob, Function.update_of_ne here]

theorem deadLetter_acts (reason : String) :
    ActsOn view (deadLetter ty reason) (View.deadLetter ty) := by
  intro queue id other
  cases found : queue.job id with
  | none =>
      have unchanged : deadLetter ty reason id queue = queue := by
        simp only [deadLetter, found]
      rw [unchanged]
      by_cases here : other = id
      · simp only [here, if_true, View.deadLetter, view, found]
      · simp only [here, if_false]
  | some hash =>
      by_cases here : other = id
      · simp only [here, if_true, view, deadLetter, found, View.deadLetter,
          Function.update_self, View.mk.injEq, true_and]
        funext listed
        by_cases sameType : listed = ty
        · simp [sameType]
        · simp [Function.update_of_ne sameType]
      · simp only [here, if_false, view, deadLetter, found,
          Function.update_of_ne here, View.mk.injEq, true_and]
        funext listed
        by_cases sameType : listed = ty
        · subst sameType
          simp [here]
        · simp [Function.update_of_ne sameType]

theorem reclaimOne_acts :
    ActsOn view (reclaimOne score ty) (View.requeue score ty) :=
  (zremClaimed_acts ty).comp (zaddReady_acts ty score)

theorem receiveOne_acts :
    ActsOn view (receiveOne score ty visibility)
      (View.receiveOne ty score visibility) := by
  have retires := (zremReady_acts ty).comp
    (deadLetter_acts ty "max attempts exhausted")
  have delivers := (hincrbyAttempts_acts.comp (zremReady_acts ty)).comp
    (zaddClaimed_acts ty (score + visibility))
  exact ActsOn.ite (fun queue id => exhausted (queue.job id))
    (fun seen => exhausted seen.job) (fun _ _ => rfl) retires delivers

/-- A script that looks the type of its message up acts on that message. -/
theorem byType_acts {operate : WorkType → MessageId → RedisQueue → RedisQueue}
    (acts : ∀ ty, ActsOn view (operate ty) (change ty)) :
    ActsOn view
      (fun id queue =>
        match queue.typeOf id with
        | none => queue
        | some ty => operate ty id queue)
      (View.byType change) := by
  intro queue id other
  have looked : ∀ other, other = id →
      (queue.view other).job.bind JobHash.type = queue.typeOf id := by
    rintro _ rfl
    rfl
  cases typed : queue.typeOf id with
  | none =>
      simp only [typed]
      by_cases here : other = id
      · simp only [here, if_true, View.byType, looked id rfl, typed]
      · rw [if_neg here]
  | some ty =>
      simp only [typed, acts ty queue id other]
      by_cases here : other = id
      · simp only [here, if_true, View.byType, looked id rfl, typed]
      · rw [if_neg here, if_neg here]

theorem ack_acts : ActsOn view ack (View.byType View.ack) :=
  byType_acts fun ty =>
    ((zremClaimed_acts ty).comp (zremReady_acts ty)).comp delJob_acts

theorem nackRequeue_acts (now : Instant) :
    ActsOn view (nackRequeue now) (View.byType (View.requeue now)) :=
  byType_acts fun ty => reclaimOne_acts ty now

theorem nackDead_acts (reason : String) :
    ActsOn view (fun id => nackDead id reason) (View.byType View.nackDead) :=
  byType_acts fun ty =>
    ((zremClaimed_acts ty).comp (zremReady_acts ty)).comp
      (deadLetter_acts ty reason)

theorem extend_acts (now : Instant) :
    ActsOn view (fun id => extend now id visibility)
      (View.byType fun ty => View.zaddClaimed ty (now + visibility)) :=
  byType_acts fun ty => zaddClaimed_acts ty (now + visibility)

/-- RECEIVE's second loop is the loop of its body. -/
theorem receiveEach_queue (ids : List MessageId) (queue : RedisQueue) :
    (receiveEach score ty visibility ids queue).1 =
      ids.foldl (fun queue id => receiveOne score ty visibility id queue)
        queue := by
  induction ids generalizing queue with
  | nil => rfl
  | cons id ids ih =>
      rw [List.foldl_cons, ← ih]
      rfl

/-- RECEIVE delivers candidates only. -/
theorem mem_of_mem_receiveEach {ids : List MessageId} {queue : RedisQueue} {delivery : Delivery}
    (delivered : delivery ∈ (receiveEach score ty visibility ids queue).2) :
    delivery.id ∈ ids := by
  induction ids generalizing queue with
  | nil => contradiction
  | cons id ids ih =>
      simp only [receiveEach] at delivered
      split at delivered
      · exact List.mem_cons_of_mem _ (ih delivered)
      · rcases List.mem_cons.mp delivered with rfl | later
        · exact List.mem_cons_self ..
        · exact List.mem_cons_of_mem _ (ih later)

/-- What the first loop of RECEIVE does to a message. -/
theorem view_reclaim (queue : RedisQueue) (id : MessageId) :
    (reclaim score ty queue).view id =
      if id ∈ (queue.claimed ty).rangeByScore score then
        View.requeue score ty (queue.view id)
      else queue.view id :=
  (reclaimOne_acts ty score).foldl (SortedSet.nodup_rangeByScore _ _) queue id

/-- What RECEIVE does to a message, once expired claims are ready again. -/
theorem view_receive (limit : Nat) (queue : RedisQueue) (id : MessageId) :
    ((receive score ty limit visibility queue).1).view id =
      if id ∈ candidates score ty limit (reclaim score ty queue) then
        View.receiveOne ty score visibility ((reclaim score ty queue).view id)
      else (reclaim score ty queue).view id := by
  have distinct : (candidates score ty limit (reclaim score ty queue)).Nodup :=
    (SortedSet.nodup_rangeByScore _ _).sublist (List.take_sublist ..)
  rw [receive]
  simp only [receiveEach_queue]
  exact (receiveOne_acts ty score visibility).foldl distinct _ id

end Locality

namespace View

/-- The invariant, of one message: only its own type has it, in one set at a
time, and nothing at all has it once it is on a dead list. -/
structure Sound (seen : View) : Prop where
  typed : ∀ ty, seen.ready ty ≠ none ∨ seen.claimed ty ≠ none →
    seen.job.bind JobHash.type = some ty
  apart : ∀ ty other, seen.ready ty ≠ none → seen.claimed other = none
  buried : ∀ ty, seen.buried ty → seen.job = none

/-- A message no script has named. -/
def Blank (seen : View) : Prop :=
  seen.job = none ∧ (∀ ty, seen.ready ty = none) ∧
    (∀ ty, seen.claimed ty = none) ∧ ∀ ty, ¬ seen.buried ty

theorem Blank.sound {seen : View} (blank : seen.Blank) : seen.Sound := by
  obtain ⟨_, notReady, notClaimed, notBuried⟩ := blank
  refine ⟨?_, ?_, ?_⟩
  · intro ty present
    simp [notReady, notClaimed] at present
  · intro ty other present
    exact absurd (notReady ty) present
  · intro ty buried
    exact absurd buried (notBuried ty)

variable {seen : View} {ty : WorkType}

/-- A sound message of a type is in no other type's sets. -/
theorem Sound.elsewhere (sound : seen.Sound) (typed : seen.job.bind JobHash.type = some ty)
    {other : WorkType} (differs : other ≠ ty) :
    seen.ready other = none ∧ seen.claimed other = none := by
  have absent : ¬ (seen.ready other ≠ none ∨ seen.claimed other ≠ none) := by
    intro present
    exact differs (Option.some.inj ((sound.typed other present).symm.trans typed))
  simpa [not_or] using absent

/-- A live message is on no dead list. -/
theorem Sound.not_buried (sound : seen.Sound)
    (typed : seen.job.bind JobHash.type = some ty) (listed : WorkType) :
    ¬ seen.buried listed := by
  intro buried
  rw [sound.buried listed buried] at typed
  contradiction

/-- A message in at most one set of its type and in no other set is sound. -/
theorem sound_of_placed (ty : WorkType)
    (elsewhere : ∀ other, other ≠ ty → seen.ready other = none ∧ seen.claimed other = none)
    (once : seen.ready ty = none ∨ seen.claimed ty = none)
    (hash : seen.job.bind JobHash.type = some ty ∨ (seen.ready ty = none ∧ seen.claimed ty = none))
    (buried : ∀ listed, seen.buried listed → seen.job = none) : seen.Sound := by
  refine ⟨?_, ?_, buried⟩
  · intro other present
    by_cases here : other = ty
    · subst here
      rcases hash with typed | ⟨notReady, notClaimed⟩
      · exact typed
      · simp [notReady, notClaimed] at present
    · simp [elsewhere other here] at present
  · intro first second present
    have readyHere : first = ty := by
      by_contra differs
      exact present (elsewhere first differs).1
    subst readyHere
    by_cases here : second = first
    · subst here
      exact once.resolve_left present
    · exact (elsewhere second here).2

section Preservation

variable (sound : seen.Sound) (typed : seen.job.bind JobHash.type = some ty)

include sound typed

theorem Sound.requeue (now : Instant) : (seen.requeue now ty).Sound := by
  refine sound_of_placed ty ?_ ?_ (.inl typed) sound.buried
  · intro other differs
    simpa [View.requeue, zaddReady, zremClaimed, Function.update_of_ne differs]
      using sound.elsewhere typed differs
  · right
    simp [View.requeue, zaddReady, zremClaimed]

theorem Sound.ack : (seen.ack ty).Sound := by
  refine sound_of_placed ty ?_ ?_ ?_ ?_
  · intro other differs
    simpa [View.ack, zremReady, zremClaimed, delJob,
      Function.update_of_ne differs] using sound.elsewhere typed differs
  · simp [View.ack, zremReady, zremClaimed, delJob]
  · simp [View.ack, zremReady, zremClaimed, delJob]
  · intro listed buried
    rfl

/-- A message that is not ready may be claimed until any deadline. -/
theorem Sound.zaddClaimed (deadline : Instant) (notReady : seen.ready ty = none) :
    (seen.zaddClaimed ty deadline).Sound := by
  refine sound_of_placed ty ?_ (.inl notReady) (.inl typed) sound.buried
  intro other differs
  simpa [View.zaddClaimed, Function.update_of_ne differs]
    using sound.elsewhere typed differs

/-- A message taken out of its sets may be buried. -/
theorem Sound.deadLetter (notReady : seen.ready ty = none)
    (notClaimed : seen.claimed ty = none) : (seen.deadLetter ty).Sound := by
  cases found : seen.job with
  | none => simp [found] at typed
  | some hash =>
      simp only [View.deadLetter, found]
      refine sound_of_placed ty ?_ (.inl notReady)
        (.inr ⟨notReady, notClaimed⟩) fun _ _ => rfl
      intro other differs
      exact sound.elsewhere typed differs

theorem Sound.zremReady : (seen.zremReady ty).Sound := by
  refine sound_of_placed ty ?_ (.inl ?_) (.inl typed) sound.buried
  · intro other differs
    simpa [View.zremReady, Function.update_of_ne differs]
      using sound.elsewhere typed differs
  · simp [View.zremReady]

theorem Sound.zremClaimed : (seen.zremClaimed ty).Sound := by
  refine sound_of_placed ty ?_ (.inr ?_) (.inl typed) sound.buried
  · intro other differs
    simpa [View.zremClaimed, Function.update_of_ne differs]
      using sound.elsewhere typed differs
  · simp [View.zremClaimed]

theorem Sound.nackDead : (seen.nackDead ty).Sound := by
  have removed := (sound.zremClaimed typed).zremReady typed
  refine removed.deadLetter typed ?_ ?_
  · simp [View.zremReady]
  · simp [View.zremReady, View.zremClaimed]

end Preservation

/-- RECEIVE retires a ready message or claims it; either way it stays sound. -/
theorem Sound.receiveOne (sound : seen.Sound) (ready : seen.ready ty ≠ none)
    (now : Instant) (visibility : Nat) :
    (seen.receiveOne ty now visibility).Sound := by
  have typed := sound.typed ty (.inl ready)
  have notClaimed := sound.apart ty ty ready
  have removed := sound.zremReady typed
  have notReady : (seen.zremReady ty).ready ty = none := by
    simp [View.zremReady]
  unfold View.receiveOne
  split
  · exact removed.deadLetter typed notReady notClaimed
  · obtain ⟨hash, found, named⟩ := Option.bind_eq_some_iff.mp typed
    have counted : (seen.hincrbyAttempts.zremReady ty).job.bind JobHash.type =
        some ty := by
      simpa [View.hincrbyAttempts, View.hset, View.zremReady, found] using named
    have countedSound : (seen.hincrbyAttempts.zremReady ty).Sound := by
      refine sound_of_placed ty ?_ (.inl ?_) (.inl counted) ?_
      · intro other differs
        simpa [View.zremReady, View.hincrbyAttempts, View.hset,
          Function.update_of_ne differs] using sound.elsewhere typed differs
      · simp [View.zremReady]
      · intro listed buried
        exact absurd buried (sound.not_buried typed listed)
    exact countedSound.zaddClaimed counted _ (by simp [View.zremReady])

/-- A script that looks the type up keeps a message sound when its change does. -/
theorem Sound.byType (sound : seen.Sound)
    (keeps : ∀ ty, seen.job.bind JobHash.type = some ty → (change ty seen).Sound) :
    (seen.byType change).Sound := by
  unfold View.byType
  cases typed : seen.job.bind JobHash.type with
  | none => exact sound
  | some ty => exact keeps ty typed

/-- A script finds no type for a message that no script has named. -/
theorem Blank.byType (blank : seen.Blank) :
    seen.byType change = seen := by
  simp [View.byType, blank.1]

/-- Nothing hides the message longer than was promised: where it is ready the
promise is due, and where it is claimed the promise is within the deadline. -/
def Keeps (seen : View) (clock : Instant) (promised : Option Instant) : Prop :=
  ∀ instant ∈ promised,
    (∀ ty, seen.ready ty ≠ none → instant ≤ clock) ∧
    ∀ ty deadline, seen.claimed ty = some deadline →
      instant ≤ deadline ∨ instant ≤ clock

theorem Keeps.later {clock now : Instant}
    (keeps : seen.Keeps clock promised) (later : clock ≤ now) :
    seen.Keeps now promised := by
  intro instant isPromised
  obtain ⟨ready, claimed⟩ := keeps instant isPromised
  refine ⟨fun ty present => Int.le_trans (ready ty present) later, ?_⟩
  intro ty deadline present
  rcases claimed ty deadline present with within | due
  · exact .inl within
  · exact .inr (Int.le_trans due later)

/-- A promise that is due binds nothing. -/
theorem keeps_of_due {now : Instant}
    (due : ∀ instant ∈ promised, instant ≤ now) : seen.Keeps now promised :=
  fun instant isPromised =>
    ⟨fun _ _ => due instant isPromised, fun _ _ _ => .inr (due instant isPromised)⟩

end View

section Receive

variable {queue : RedisQueue} {now : Instant} {ty : WorkType} {id : MessageId}
variable {limit visibility : Nat}

/-- RECEIVE's candidates are ready and due. -/
theorem ready_of_candidate (candidate : id ∈ candidates now ty limit queue) :
    (queue.view id).ready ty ≠ none := by
  obtain ⟨score, found, _⟩ := (SortedSet.mem_rangeByScore ..).mp
    (List.mem_of_mem_take candidate)
  rw [show (queue.view id).ready ty = some score from found]
  simp

/-- RECEIVE reclaims only claims whose deadline has passed. -/
theorem claimed_of_expired (expired : id ∈ (queue.claimed ty).rangeByScore now) :
    ∃ deadline, (queue.view id).claimed ty = some deadline ∧ deadline ≤ now :=
  (SortedSet.mem_rangeByScore ..).mp expired

theorem reclaim_sound (sound : (queue.view id).Sound) :
    ((reclaim now ty queue).view id).Sound := by
  rw [view_reclaim]
  split
  · rename_i expired
    obtain ⟨deadline, claimed, _⟩ := claimed_of_expired expired
    exact sound.requeue (sound.typed ty (.inr (by simp [claimed]))) now
  · exact sound

theorem receive_sound (sound : (queue.view id).Sound) :
    ((receive now ty limit visibility queue).1.view id).Sound := by
  rw [view_receive]
  split
  · rename_i candidate
    exact (reclaim_sound sound).receiveOne (ready_of_candidate candidate) ..
  · exact reclaim_sound sound

/-- A message that becomes ready again was due. -/
theorem reclaim_keeps (keeps : (queue.view id).Keeps now promised) :
    ((reclaim now ty queue).view id).Keeps now promised := by
  rw [view_reclaim]
  split
  · rename_i expired
    obtain ⟨deadline, claimed, passed⟩ := claimed_of_expired expired
    refine View.keeps_of_due fun instant isPromised => ?_
    rcases (keeps instant isPromised).2 ty deadline claimed with within | due
    · exact Int.le_trans within passed
    · exact due
  · exact keeps

theorem receive_keeps (keeps : (queue.view id).Keeps now promised) :
    ((receive now ty limit visibility queue).1.view id).Keeps now promised := by
  rw [view_receive]
  split
  · rename_i candidate
    exact View.keeps_of_due fun instant isPromised =>
      (reclaim_keeps keeps instant isPromised).1 ty (ready_of_candidate candidate)
  · exact reclaim_keeps keeps

/-- A delivered message had been ready, so whatever it was promised was due. -/
theorem due_of_delivered {delivery : Delivery}
    (delivered : delivery ∈ (receive now ty limit visibility queue).2)
    (keeps : (queue.view delivery.id).Keeps now promised) :
    ∀ instant ∈ promised, instant ≤ now := by
  intro instant isPromised
  have candidate := mem_of_mem_receiveEach _ _ _ delivered
  exact (reclaim_keeps keeps instant isPromised).1 ty (ready_of_candidate candidate)

/-- RECEIVE does not touch a message no script has named. -/
theorem receive_blank (blank : (queue.view id).Blank) :
    (receive now ty limit visibility queue).1.view id = queue.view id := by
  have notExpired : id ∉ (queue.claimed ty).rangeByScore now := by
    intro expired
    obtain ⟨deadline, claimed, _⟩ := claimed_of_expired expired
    rw [blank.2.2.1 ty] at claimed
    contradiction
  have unreclaimed : (reclaim now ty queue).view id = queue.view id := by
    rw [view_reclaim, if_neg notExpired]
  rw [view_receive, unreclaimed, if_neg]
  intro candidate
  refine ready_of_candidate candidate ?_
  rw [unreclaimed]
  exact blank.2.1 ty

end Receive

section Enqueue

variable {queue : RedisQueue} {now : Instant} {work : NewWork}
variable {id other : MessageId}

theorem enqueue_acts :
    ActsOn view (fun id queue => enqueue now id work queue) fun seen =>
      (seen.hset (enqueueFields now work)).zaddReady work.workType
        (notBefore now work) :=
  (hset_acts _).comp (zaddReady_acts _ _)

theorem enqueue_frame (differs : other ≠ id) :
    (enqueue now id work queue).view other = queue.view other :=
  (enqueue_acts queue id other).trans (if_neg differs)

theorem enqueue_sound (blank : (queue.view id).Blank) :
    ((enqueue now id work queue).view id).Sound := by
  obtain ⟨_, notReady, notClaimed, notBuried⟩ := blank
  rw [(enqueue_acts queue id id).trans (if_pos rfl)]
  refine View.sound_of_placed work.workType ?_ (.inr (notClaimed _))
    (.inl rfl) fun listed buried => absurd buried (notBuried listed)
  intro listed differs
  simp only [View.zaddReady, Function.update_of_ne differs]
  exact ⟨notReady listed, notClaimed listed⟩

end Enqueue

end RedisQueue

namespace Observed

/-- What every reachable state keeps while extensions find their messages
claimed. -/
structure Sound (system : Observed) : Prop where
  views : ∀ id, (system.queue.view id).Sound
  blank : ∀ id, system.nextId ≤ id →
    (system.queue.view id).Blank ∧ system.extendedTo id = none

/-- Every promise an extension made is kept so far. -/
def Kept (system : Observed) : Prop :=
  ∀ id, (system.queue.view id).Keeps system.clock (system.extendedTo id)

variable {before after : Observed} {script : Script}

theorem step_some (taken : step before script = some after) :
    before.clock ≤ script.now ∧
      (∀ id ∈ script.generated, id = before.nextId) ∧
      after =
        { queue := runScript before.queue script
          clock := script.now
          nextId := (script.generated.map (· + 1)).getD before.nextId
          extendedTo := before.note script } := by
  obtain ⟨⟨onward, fresh⟩, made⟩ := Option.ite_none_right_eq_some.mp taken
  exact ⟨onward, fresh, (Option.some.inj made).symm⟩

/-- A script leaves alone a message nobody has named, unless it enqueues it. -/
theorem runScript_blank {queue : RedisQueue} {id : MessageId}
    (blank : (queue.view id).Blank) (other : id ∉ script.generated) :
    (runScript queue script).view id = queue.view id := by
  have unnamed : ∀ {operate change},
      ActsOn RedisQueue.view operate (RedisQueue.View.byType change) →
        ∀ named, (operate named queue).view id = queue.view id := by
    intro operate change acts named
    rw [acts, blank.byType, ite_self]
  cases script with
  | enqueue now generated work =>
      refine RedisQueue.enqueue_frame ?_
      rintro rfl
      exact other rfl
  | receive now ty limit visibility => exact RedisQueue.receive_blank blank
  | ack now named => exact unnamed RedisQueue.ack_acts named
  | nackRequeue now named => exact unnamed (RedisQueue.nackRequeue_acts now) named
  | nackDead now named reason =>
      exact unnamed (RedisQueue.nackDead_acts reason) named
  | extend now named visibility =>
      exact unnamed (RedisQueue.extend_acts (asMillis visibility) now) named

/-- A script keeps the state sound when an extension finds its message
claimed. -/
theorem step_sound (sound : before.Sound) (taken : step before script = some after)
    (claimed : ExtendsClaimed before script after) : after.Sound := by
  obtain ⟨_, fresh, rfl⟩ := step_some taken
  constructor
  · intro id
    have soundId := sound.views id
    cases script with
    | enqueue now generated work =>
        by_cases here : id = generated
        · subst here
          have isNext := fresh id rfl
          exact RedisQueue.enqueue_sound
            (sound.blank id (Nat.le_of_eq isNext.symm)).1
        · exact (RedisQueue.enqueue_frame here).symm ▸ soundId
    | receive now ty limit visibility => exact RedisQueue.receive_sound soundId
    | ack now named =>
        simp only [runScript]
        rw [RedisQueue.ack_acts]
        split
        · exact soundId.byType fun ty typed => soundId.ack typed
        · exact soundId
    | nackRequeue now named =>
        simp only [runScript]
        rw [RedisQueue.nackRequeue_acts]
        split
        · exact soundId.byType fun ty typed => soundId.requeue typed now
        · exact soundId
    | nackDead now named reason =>
        simp only [runScript]
        rw [RedisQueue.nackDead_acts reason before.queue named id]
        split
        · exact soundId.byType fun ty typed => soundId.nackDead typed
        · exact soundId
    | extend now named visibility =>
        simp only [runScript]
        rw [RedisQueue.extend_acts (asMillis visibility) now before.queue named id]
        split
        · rename_i here
          subst here
          exact soundId.byType fun ty typed =>
            soundId.zaddClaimed typed _ (claimed ty typed)
        · exact soundId
  · intro id later
    have blankBefore : before.nextId ≤ id ∧ id ∉ script.generated := by
      cases script with
      | enqueue now generated work =>
          have isNext := fresh generated rfl
          subst isNext
          refine ⟨Nat.le_of_succ_le later, ?_⟩
          rintro ⟨rfl⟩
          exact Nat.not_succ_le_self _ later
      | _ => exact ⟨later, by simp [Script.generated]⟩
    obtain ⟨blank, unpromised⟩ := sound.blank id blankBefore.1
    simp only
    rw [runScript_blank blank blankBefore.2]
    refine ⟨blank, ?_⟩
    cases script with
    | extend now named visibility =>
        simp only [note]
        split
        · rename_i alive
          have differs : id ≠ named := by
            rintro rfl
            rw [show before.queue.job id = none from blank.1] at alive
            contradiction
          rw [Function.update_of_ne differs]
          exact unpromised
        · exact unpromised
    | nackRequeue now named =>
        by_cases here : id = named
        · simp [note, here]
        · simpa [note, Function.update_of_ne here] using unpromised
    | nackDead now named reason =>
        by_cases here : id = named
        · simp [note, here]
        · simpa [note, Function.update_of_ne here] using unpromised
    | _ => exact unpromised

/-- An acknowledged message is where it was or nowhere. -/
theorem keeps_ack {seen : RedisQueue.View} {ty : WorkType} {clock : Instant}
    (keeps : seen.Keeps clock promised) :
    (seen.ack ty).Keeps clock promised := by
  intro instant isPromised
  obtain ⟨ready, claimed⟩ := keeps instant isPromised
  constructor
  · intro other present
    by_cases here : other = ty
    · simp [RedisQueue.View.ack, RedisQueue.View.delJob,
        RedisQueue.View.zremReady, here] at present
    · refine ready other ?_
      simpa [RedisQueue.View.ack, RedisQueue.View.delJob,
        RedisQueue.View.zremReady, RedisQueue.View.zremClaimed,
        Function.update_of_ne here] using present
  · intro other deadline present
    by_cases here : other = ty
    · simp [RedisQueue.View.ack, RedisQueue.View.delJob,
        RedisQueue.View.zremReady, RedisQueue.View.zremClaimed, here] at present
    · refine claimed other deadline ?_
      simpa [RedisQueue.View.ack, RedisQueue.View.delJob,
        RedisQueue.View.zremReady, RedisQueue.View.zremClaimed,
        Function.update_of_ne here] using present

/-- An extension that finds its message claimed, and shortens nothing, keeps its
own promise and every earlier one. -/
theorem keeps_extend {seen : RedisQueue.View} {deadline clock : Instant} (sound : seen.Sound)
    (notReady : ∀ ty, seen.job.bind JobHash.type = some ty → seen.ready ty = none)
    (lengthens : ∀ instant ∈ promised, instant ≤ deadline) :
    (seen.byType fun ty => RedisQueue.View.zaddClaimed ty deadline).Keeps clock
      (some ((promised.map (max · deadline)).getD deadline)) := by
  have latest : (promised.map (max · deadline)).getD deadline = deadline := by
    cases promised with
    | none => rfl
    | some instant => exact max_eq_right (lengthens instant rfl)
  rw [latest]
  rintro instant ⟨rfl⟩
  have nowhere : ∀ ty, seen.ready ty = none := by
    intro ty
    by_contra present
    exact present (notReady ty (sound.typed ty (.inl present)))
  unfold RedisQueue.View.byType
  cases typed : seen.job.bind JobHash.type with
  | none =>
      refine ⟨fun ty present => absurd (nowhere ty) present, ?_⟩
      intro ty other present
      have named := sound.typed ty (.inr (by simp [present]))
      rw [typed] at named
      contradiction
  | some ty =>
      refine ⟨fun other present => absurd (nowhere other) present, ?_⟩
      intro other held present
      by_cases here : other = ty
      · subst here
        simp only [RedisQueue.View.zaddClaimed, Function.update_self,
          Option.some.injEq] at present
        exact .inl (Int.le_of_eq present)
      · simp [RedisQueue.View.zaddClaimed, Function.update_of_ne here,
          (sound.elsewhere typed here).2] at present

/-- A script keeps every promise when it extends only claimed messages and
shortens no extension. -/
theorem step_kept (sound : before.Sound) (kept : before.Kept)
    (taken : step before script = some after) (claimed : ExtendsClaimed before script after)
    (lengthens : NeverShortens before script after) : after.Kept := by
  obtain ⟨onward, fresh, rfl⟩ := step_some taken
  intro id
  have keeps := (kept id).later onward
  cases script with
  | enqueue now generated work =>
      by_cases here : id = generated
      · have isNext := fresh generated rfl
        have unpromised :=
          (sound.blank id (Nat.le_of_eq (here.trans isNext).symm)).2
        intro instant isPromised
        simp [note, unpromised] at isPromised
      · simp only [runScript, RedisQueue.enqueue_frame here]
        exact keeps
  | receive now ty limit visibility => exact RedisQueue.receive_keeps keeps
  | ack now named =>
      simp only [runScript]
      rw [RedisQueue.ack_acts]
      split
      · unfold RedisQueue.View.byType
        split
        · exact keeps
        · exact keeps_ack keeps
      · exact keeps
  | nackRequeue now named =>
      simp only [runScript]
      rw [RedisQueue.nackRequeue_acts]
      split
      · rename_i here
        simp [RedisQueue.View.Keeps, note, here]
      · rename_i here
        simpa only [note, Function.update_of_ne here] using keeps
  | nackDead now named reason =>
      simp only [runScript]
      rw [RedisQueue.nackDead_acts reason before.queue named id]
      split
      · rename_i here
        simp [RedisQueue.View.Keeps, note, here]
      · rename_i here
        simpa only [note, Function.update_of_ne here] using keeps
  | extend now named visibility =>
      simp only [runScript]
      rw [RedisQueue.extend_acts (asMillis visibility) now before.queue named id]
      by_cases here : id = named
      · subst here
        rw [if_pos rfl]
        by_cases alive : (before.queue.job id).isSome
        · simp only [note, alive, if_true, Function.update_self]
          exact keeps_extend (sound.views id)
            (fun ty typed => claimed ty typed) lengthens
        · simp only [note, alive, Bool.false_eq_true, if_false]
          have unnamed : (before.queue.view id).job = none :=
            Option.not_isSome_iff_eq_none.mp alive
          simpa [RedisQueue.View.byType, unnamed] using keeps
      · rw [if_neg here]
        simp only [note]
        split
        · simpa only [Function.update_of_ne here] using keeps
        · exact keeps

theorem empty_sound : empty.Sound := by
  have blank : ∀ id, (empty.queue.view id).Blank :=
    fun id => ⟨rfl, fun _ => rfl, fun _ => rfl,
      fun ty => List.not_mem_nil⟩
  exact ⟨fun id => (blank id).sound, fun id _ => ⟨blank id, rfl⟩⟩

theorem empty_kept : empty.Kept := by
  rintro id instant ⟨⟩

theorem Sound.consistent {system : Observed} (sound : system.Sound) :
    system.queue.Consistent := by
  constructor
  · intro ty id present gone
    have typed := (sound.views id).typed ty present
    rw [show (system.queue.view id).job = none from gone] at typed
    contradiction
  · intro ty other id present
    exact (sound.views id).apart ty other present
  · intro ty other id listed
    have gone := (sound.views id).buried ty listed
    by_contra present
    have typed := (sound.views id).typed other (by
      by_contra absent
      rw [not_or, not_ne_iff, not_ne_iff] at absent
      exact present absent)
    rw [gone] at typed
    contradiction

/-- An extension that finds its message ready leaves it ready and claimed. -/
theorem inconsistent_of_extends_ready (taken : step before script = some after)
    (consistent : after.queue.Consistent) :
    ExtendsClaimed before script after := by
  obtain ⟨_, _, rfl⟩ := step_some taken
  cases script with
  | extend now id visibility =>
      intro ty typed
      by_contra ready
      have claimed := consistent.apart ty ty id (by
        simpa [runScript, RedisQueue.extend, Option.mem_def.mp typed,
          RedisQueue.zaddClaimed] using ready)
      simp [runScript, RedisQueue.extend, Option.mem_def.mp typed,
        RedisQueue.zaddClaimed] at claimed
  | _ => trivial

end Observed

/-- In every run of the scripts, the state stays consistent exactly as long as
every EXTEND finds its message claimed and not back in `ready`; and while
moreover no EXTEND shortens an earlier one, no message is delivered before an
instant it was extended to. -/
theorem redisQueue_consistent_iff (scripts : List Script) :
    (Along Observed.step (fun _ _ after => after.queue.Consistent)
        Observed.empty scripts ↔
      Along Observed.step ExtendsClaimed Observed.empty scripts) ∧
    (Along Observed.step
        (fun before script after => ExtendsClaimed before script after ∧
          NeverShortens before script after) Observed.empty scripts →
      Along Observed.step KeepsExtension Observed.empty scripts) := by
  constructor
  · refine along_iff_of_invariant Observed.Sound ?_ ?_ Observed.empty_sound
    · intro before script after sound taken consistent
      exact Observed.step_sound sound taken
        (Observed.inconsistent_of_extends_ready taken consistent)
    · intro before script after sound taken
      exact ⟨Observed.inconsistent_of_extends_ready taken,
        fun claimed => (Observed.step_sound sound taken claimed).consistent⟩
  · intro along
    refine along.of_invariant (fun system => system.Sound ∧ system.Kept) ?_ ?_
      ⟨Observed.empty_sound, Observed.empty_kept⟩
    · rintro before script after ⟨sound, kept⟩ taken ⟨claimed, lengthens⟩
      exact ⟨Observed.step_sound sound taken claimed,
        Observed.step_kept sound kept taken claimed lengthens⟩
    · rintro before script after ⟨sound, kept⟩ taken _
      cases script with
      | receive now ty limit visibility =>
          obtain ⟨onward, _, _⟩ := Observed.step_some taken
          intro delivery delivered
          exact RedisQueue.due_of_delivered delivered
            ((kept delivery.id).later onward)
      | _ => trivial

instance : ∀ (before : Observed) (script : Script) (after : Observed),
    Decidable (ExtendsClaimed before script after)
  | before, .extend _ id _, _ =>
      inferInstanceAs (Decidable (∀ ty ∈ before.queue.typeOf id,
        (before.queue.ready ty).score id = none))
  | _, .enqueue _ _ _, _ | _, .receive _ _ _ _, _ | _, .ack _ _, _
  | _, .nackRequeue _ _, _ | _, .nackDead _ _ _, _ => isTrue trivial

instance : ∀ (before : Observed) (script : Script) (after : Observed),
    Decidable (NeverShortens before script after)
  | before, .extend now id visibility, _ =>
      inferInstanceAs (Decidable (∀ promised ∈ before.extendedTo id,
        promised ≤ now + asMillis visibility))
  | _, .enqueue _ _ _, _ | _, .receive _ _ _ _, _ | _, .ack _ _, _
  | _, .nackRequeue _ _, _ | _, .nackDead _ _ _, _ => isTrue trivial

instance : ∀ (before : Observed) (script : Script) (after : Observed),
    Decidable (KeepsExtension before script after)
  | before, .receive now ty limit visibility, _ =>
      inferInstanceAs (Decidable (∀ delivery ∈
        (before.queue.receive now ty limit (asMillis visibility)).2,
        ∀ promised ∈ before.extendedTo delivery.id, promised ≤ now))
  | _, .enqueue _ _ _, _ | _, .extend _ _ _, _ | _, .ack _ _, _
  | _, .nackRequeue _ _, _ | _, .nackDead _ _ _, _ => isTrue trivial

/-- A consumer that renews its lease in time keeps the message to itself until
the renewed deadline. -/
theorem redisQueue_consistent_iff_renewed :
    Along Observed.step KeepsExtension Observed.empty
      [.enqueue 0 0 (NewWork.new 1 "t" []), .receive 1 "t" 10 30000,
        .extend 20 0 60000, .receive 40 "t" 10 30000, .receive 90 "t" 10 30000,
        .ack 95 0] :=
  (redisQueue_consistent_iff _).2 (by decide)

/-- Two messages and a consumer that renews its lease late: its claim has
expired, the reclaiming RECEIVE picked the other message, and the EXTEND leaves
the first one both ready and claimed, so that it is delivered again at once. -/
def lateRenewal : List Script :=
  [.enqueue 0 0 (NewWork.new 1 "t" []), .enqueue 5 1 (NewWork.new 1 "t" []),
    .receive 6 "t" 1 10000, .receive 20 "t" 1 10000, .extend 21 0 30000,
    .receive 22 "t" 1 10000]

theorem lateRenewal_breaks_consistency :
    ¬ Along Observed.step (fun _ _ after => after.queue.Consistent)
        Observed.empty lateRenewal ∧
      ¬ Along Observed.step KeepsExtension Observed.empty lateRenewal := by
  constructor
  · intro along
    obtain ⟨_, _, _, _, extended, _⟩ := along
    exact absurd (extended.apart "t" "t" 0 (by decide)) (by decide)
  · decide

end NookOs.Queue
