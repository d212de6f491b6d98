/-
Module: NookOs.Db.Restamp
Purpose: Any number of processes that boot against one Postgres database: the collapse of
  a pre-squash migration ledger, and the migrator that runs after it.
Trusted boundary: which migrations the `sqlx` migrator finds pending in a ledger, as a
  parameter
Main exports: SquashManifest, compareLedger, Ledger, BootStep, Early, restamp_keeps_iff
-/
import NookOs.Lib.Run
import Mathlib.Data.List.Nodup
import Mathlib.Data.List.Sort
import Mathlib.Logic.Function.Basic

namespace NookOs.Db

open Lib

/-- A row of the ledger: what the re-stamp and the migrator read of it. -/
structure MigrationRow where
  version : Int
  checksum : List UInt8
deriving DecidableEq

/-- A parsed `squash-manifest.txt`. -/
structure SquashManifest where
  newVersion : Int
  newChecksum : List UInt8
  old : List MigrationRow
deriving DecidableEq

/-- The row that a recognised ledger collapses to. -/
def SquashManifest.baseline (manifest : SquashManifest) : MigrationRow where
  version := manifest.newVersion
  checksum := manifest.newChecksum

/-- A list of versions as the message shows it. -/
def showVersions (versions : List Int) : String :=
  "[" ++ ", ".intercalate (versions.map toString) ++ "]"

/-- How a ledger differs from the set that the manifest describes. -/
def describeMismatch (ledger expected : List MigrationRow) : String :=
  let applied := ledger.map MigrationRow.version
  let want := expected.map MigrationRow.version
  if applied ≠ want then
    let extra := applied.filter fun version => version ∉ want
    let missing := want.filter fun version => version ∉ applied
    "the applied versions differ from the squashed set (applied " ++
      toString applied.length ++ " version(s), manifest describes " ++
      toString want.length ++ ")" ++
      (if extra = [] then ""
        else "; applied but not in the manifest: " ++ showVersions extra) ++
      (if missing = [] then ""
        else "; in the manifest but not applied: " ++ showVersions missing)
  else
    let differing :=
      ((ledger.zip expected).filter fun pair => pair.1.checksum ≠ pair.2.checksum).map
        fun pair => pair.1.version
    "the applied versions match but their checksums do not, for version(s) " ++
      showVersions differing ++
      " — an applied migration's content changed, which the squash cannot account for"

/-- What the re-stamp makes of the ledger it read. -/
inductive Decision where
  | emptyLedger
  | alreadySquashed
  | ledgerMismatch (detail : String)
  | collapse
deriving DecidableEq

/-- `restamp` between the read of the ledger and the transaction. -/
def compareLedger (manifest : SquashManifest) (ledger : List MigrationRow) : Decision :=
  if ledger = [] then .emptyLedger
  else if manifest.baseline ∈ ledger then .alreadySquashed
  else if ledger ≠ manifest.old then
    .ledgerMismatch (describeMismatch ledger manifest.old)
  else .collapse

/-- The rows `ORDER BY version`. -/
def orderByVersion (ledger : List MigrationRow) : List MigrationRow :=
  ledger.insertionSort fun first second => first.version ≤ second.version

/-- A ledger: its version is a primary key. -/
structure Ledger where
  rows : List MigrationRow
  unique : (rows.map MigrationRow.version).Nodup

/-- What one build brings to every boot: its manifest, whether it is production, and
which of its migrations the migrator finds pending in a ledger, unless it refuses it. -/
structure Build where
  manifest : Option SquashManifest
  isProduction : Bool
  pending : (ignoreMissing : Bool) → List MigrationRow → Option (List MigrationRow)

/-- Where the boot of a process is.  `locking` waits for the migrator's lock. -/
inductive BootPhase where
  | starting
  | loaded (ledger : List MigrationRow)
  | collapsing
  | locking
  | locked
  | applying (todo : List MigrationRow)
  | concluded
deriving DecidableEq

/-- The re-stamp has let the process go on. -/
def BootPhase.passed : BootPhase → Bool
  | .collapsing | .locking | .locked | .applying _ => true
  | .starting | .loaded _ | .concluded => false

/-- The database and the processes.  `executed` are the migrations that were run since
the start, in order, and `collapsed` says whether the ledger was re-stamped. -/
structure Boots where
  ledger : List MigrationRow
  lock : Option Nat
  phase : Nat → BootPhase
  executed : List MigrationRow
  collapsed : Bool

/-- A step of a process.  `restampFails` is a database error before or in the
transaction, and `crash` may come at any time. -/
inductive BootStep where
  | loadLedger (process : Nat)
  | compare (process : Nat)
  | collapse (process : Nat)
  | restampFails (process : Nat)
  | lock (process : Nat)
  | readApplied (process : Nat)
  | apply (process : Nat)
  | unlock (process : Nat)
  | crash (process : Nat)
deriving DecidableEq

namespace Boots

def setPhase (process : Nat) (phase : BootPhase) (boots : Boots) : Boots :=
  { boots with phase := Function.update boots.phase process phase }

/-- The process is gone, and its connection with it. -/
def finish (process : Nat) (boots : Boots) : Boots :=
  { boots with
    phase := Function.update boots.phase process .concluded
    lock := if boots.lock = some process then none else boots.lock }

/-- A re-stamp that failed stops the boot in production, and is a warning elsewhere. -/
def refuse (build : Build) (process : Nat) (boots : Boots) : Boots :=
  if build.isProduction then boots.finish process else boots.setPhase process .locking

/-- The re-stamp is through: what follows the decision. -/
def decide (build : Build) (process : Nat) (decision : Decision) (boots : Boots) : Boots :=
  match decision with
  | .emptyLedger | .alreadySquashed => boots.setPhase process .locking
  | .ledgerMismatch _ => boots.refuse build process
  | .collapse => boots.setPhase process .collapsing

/-- The transaction of the re-stamp: every row goes, and the new row comes. -/
def collapse (manifest : SquashManifest) (boots : Boots) : Boots :=
  { boots with ledger := [manifest.baseline], collapsed := true }

/-- The transaction of one migration.  Its row is refused when the version is taken. -/
def apply (process : Nat) (row : MigrationRow) (todo : List MigrationRow)
    (boots : Boots) : Boots :=
  if row.version ∈ boots.ledger.map MigrationRow.version then boots.finish process
  else
    { boots with
      ledger := boots.ledger ++ [row]
      executed := boots.executed ++ [row] }.setPhase process (.applying todo)

def step (build : Build) (boots : Boots) : BootStep → Option Boots
  | .loadLedger process =>
      match boots.phase process, build.manifest with
      | .starting, none => some (boots.setPhase process .locking)
      | .starting, some _ =>
          some (boots.setPhase process (.loaded (orderByVersion boots.ledger)))
      | _, _ => none
  | .compare process =>
      match boots.phase process, build.manifest with
      | .loaded ledger, some manifest =>
          some (boots.decide build process (compareLedger manifest ledger))
      | _, _ => none
  | .collapse process =>
      match boots.phase process, build.manifest with
      | .collapsing, some manifest =>
          some ((boots.collapse manifest).setPhase process .locking)
      | _, _ => none
  | .restampFails process =>
      match boots.phase process with
      | .starting | .collapsing => some (boots.refuse build process)
      | _ => none
  | .lock process =>
      match boots.phase process, boots.lock with
      | .locking, none => some ({ boots with lock := some process }.setPhase process .locked)
      | _, _ => none
  | .readApplied process =>
      match boots.phase process with
      | .locked =>
          match build.pending (!build.isProduction) (orderByVersion boots.ledger) with
          | none => some (boots.finish process)
          | some todo => some (boots.setPhase process (.applying todo))
      | _ => none
  | .apply process =>
      match boots.phase process with
      | .applying (row :: todo) => some (boots.apply process row todo)
      | _ => none
  | .unlock process =>
      match boots.phase process with
      | .applying [] => some (boots.finish process)
      | _ => none
  | .crash process => some (boots.finish process)

/-- The first boot is about to start. -/
def start (original : Ledger) : Boots where
  ledger := original.rows
  lock := none
  phase := fun _ => .starting
  executed := []
  collapsed := false

/-! ## What a boot must not lose -/

/-- The rows that the executed migrations follow: the baseline alone once the ledger was
re-stamped, and the rows found before that. -/
def foundation (build : Build) (original : Ledger) (boots : Boots) : List MigrationRow :=
  if boots.collapsed then (build.manifest.map SquashManifest.baseline).toList
  else original.rows

/-- The original ledger is not one that the manifest describes. -/
def Unrecognised (build : Build) (original : Ledger) : Prop :=
  ∃ manifest ∈ build.manifest, ∃ detail,
    compareLedger manifest (orderByVersion original.rows) = .ledgerMismatch detail

/-- The ledger is its foundation and then the executed migrations, each once; only a
ledger that is exactly the old set was re-stamped; and production adds nothing to one
that it does not recognise. -/
def Kept (build : Build) (original : Ledger) (before : Boots) (_label : BootStep)
    (after : Boots) : Prop :=
  (∀ row ∈ before.executed, row ∈ after.ledger) ∧
    after.ledger = foundation build original after ++ after.executed ∧
    (after.ledger.map MigrationRow.version).Nodup ∧
    (after.collapsed = true → ∃ manifest ∈ build.manifest,
      orderByVersion original.rows = manifest.old) ∧
    (Unrecognised build original → after.collapsed = false ∧
      (build.isProduction = true → after.ledger = original.rows))

/-- No migration has been applied when a re-stamp commits. -/
def Early (before : Boots) (label : BootStep) (_after : Boots) : Prop :=
  match label with
  | .collapse _ => before.executed = []
  | _ => True

instance (before : Boots) (label : BootStep) (after : Boots) :
    Decidable (Early before label after) :=
  match label with
  | .collapse _ => inferInstanceAs (Decidable (_ = _))
  | .loadLedger _ | .compare _ | .restampFails _ | .lock _ | .readApplied _ | .apply _
  | .unlock _ | .crash _ => isTrue trivial

/-! ## What is true of every run with early re-stamps -/

/-- A phase that a production boot goes through on a ledger that it does not recognise. -/
def Refusing (original : Ledger) (phase : BootPhase) : Prop :=
  phase = .starting ∨ phase = .loaded (orderByVersion original.rows) ∨ phase = .concluded

structure Sound (build : Build) (original : Ledger) (boots : Boots) : Prop where
  rows : boots.ledger = foundation build original boots ++ boots.executed
  unique : (boots.ledger.map MigrationRow.version).Nodup
  restamped : boots.collapsed = true → ∃ manifest ∈ build.manifest,
    orderByVersion original.rows = manifest.old
  loaded : ∀ process ledger, boots.phase process = .loaded ledger → boots.executed = [] →
    ledger = orderByVersion original.rows ∨
      ∀ manifest ∈ build.manifest, manifest.baseline ∈ ledger
  collapsing : ∀ process, boots.phase process = .collapsing → boots.executed = [] →
    ∀ manifest ∈ build.manifest, orderByVersion original.rows = manifest.old
  refused : build.isProduction = true → Unrecognised build original →
    boots.executed = [] ∧ ∀ process, Refusing original (boots.phase process)

section Preservation

variable {build : Build} {original : Ledger} {boots before after : Boots}
  {label : BootStep}

theorem start_sound : (start original).Sound build original where
  rows := (List.append_nil _).symm
  unique := original.unique
  restamped := by intro collapsed; cases collapsed
  loaded := by intro process ledger phase; cases phase
  collapsing := by intro process phase; cases phase
  refused := by
    intro _ _
    exact ⟨rfl, fun _ => .inl rfl⟩

/-- The old set is no ledger that the manifest does not describe. -/
theorem not_unrecognised_of_old {manifest : SquashManifest}
    (given : manifest ∈ build.manifest)
    (old : orderByVersion original.rows = manifest.old) : ¬ Unrecognised build original := by
  intro unrecognised
  obtain ⟨other, same, detail, mismatch⟩ := unrecognised
  cases Option.some.inj (Option.mem_def.mp given ▸ Option.mem_def.mp same)
  unfold compareLedger at mismatch
  split at mismatch
  · cases mismatch
  · split at mismatch
    · cases mismatch
    · split at mismatch
      · next differs => exact differs old
      · cases mismatch

theorem Sound.not_collapsed (sound : boots.Sound build original)
    (unrecognised : Unrecognised build original) : boots.collapsed = false := by
  cases collapsed : boots.collapsed with
  | false => rfl
  | true =>
      obtain ⟨manifest, given, old⟩ := sound.restamped collapsed
      exact absurd unrecognised (not_unrecognised_of_old given old)

/-- A process goes on to another phase. -/
theorem Sound.setPhase (sound : boots.Sound build original) (process : Nat)
    (phase : BootPhase)
    (loaded : ∀ ledger, phase = .loaded ledger → boots.executed = [] →
      ledger = orderByVersion original.rows ∨
        ∀ manifest ∈ build.manifest, manifest.baseline ∈ ledger)
    (collapsing : phase = .collapsing → boots.executed = [] →
      ∀ manifest ∈ build.manifest, orderByVersion original.rows = manifest.old)
    (refused : build.isProduction = true → Unrecognised build original →
      Refusing original phase) :
    (boots.setPhase process phase).Sound build original where
  rows := sound.rows
  unique := sound.unique
  restamped := sound.restamped
  loaded := by
    intro other ledger inPhase
    by_cases same : other = process
    · simp only [Boots.setPhase, same, Function.update_self] at inPhase
      exact loaded ledger inPhase
    · simp only [Boots.setPhase, Function.update_of_ne same] at inPhase
      exact sound.loaded other ledger inPhase
  collapsing := by
    intro other inPhase
    by_cases same : other = process
    · simp only [Boots.setPhase, same, Function.update_self] at inPhase
      exact collapsing inPhase
    · simp only [Boots.setPhase, Function.update_of_ne same] at inPhase
      exact sound.collapsing other inPhase
  refused := by
    intro production unrecognised
    obtain ⟨none, refusing⟩ := sound.refused production unrecognised
    refine ⟨none, ?_⟩
    intro other
    by_cases same : other = process
    · simp only [Boots.setPhase, same, Function.update_self]
      exact refused production unrecognised
    · simp only [Boots.setPhase, Function.update_of_ne same]
      exact refusing other

/-- The lock is not in the invariant. -/
theorem Sound.setLock (sound : boots.Sound build original) (lock : Option Nat) :
    ({ boots with lock } : Boots).Sound build original :=
  ⟨sound.rows, sound.unique, sound.restamped, sound.loaded, sound.collapsing,
    sound.refused⟩

theorem Sound.finish (sound : boots.Sound build original) (process : Nat) :
    (boots.finish process).Sound build original := by
  apply (sound.setPhase process .concluded ?_ ?_ ?_).setLock
  · intro ledger impossible
    cases impossible
  · intro impossible
    cases impossible
  · intro _ _
    exact .inr (.inr rfl)

/-- A process goes on past the re-stamp, which it does not on a ledger that production
does not recognise. -/
theorem Sound.goOn (sound : boots.Sound build original) (process : Nat)
    {phase : BootPhase} (passed : phase.passed = true) (notCollapsing : phase ≠ .collapsing)
    (recognised : build.isProduction = true → ¬ Unrecognised build original) :
    (boots.setPhase process phase).Sound build original := by
  apply sound.setPhase
  · intro ledger loaded
    rw [loaded] at passed
    cases passed
  · intro collapsing
    exact absurd collapsing notCollapsing
  · intro production unrecognised
    exact absurd unrecognised (recognised production)

/-- A process past the re-stamp shows that production recognises the ledger. -/
theorem Sound.recognised (sound : boots.Sound build original) {process : Nat}
    (passed : (boots.phase process).passed = true) :
    build.isProduction = true → ¬ Unrecognised build original := by
  intro production unrecognised
  rcases (sound.refused production unrecognised).2 process with starting | loaded | ended
  · rw [starting] at passed
    cases passed
  · rw [loaded] at passed
    cases passed
  · rw [ended] at passed
    cases passed

theorem Sound.refuse (sound : boots.Sound build original) (process : Nat) :
    (boots.refuse build process).Sound build original := by
  unfold Boots.refuse
  split
  · exact sound.finish process
  · next notProduction =>
    apply sound.goOn process
    · rfl
    · intro impossible
      cases impossible
    · intro production
      exact absurd production notProduction

/-- What a process reads is the original rows or has the baseline, until something is
executed. -/
theorem Sound.loadLedger (sound : boots.Sound build original) (process : Nat) :
    (boots.setPhase process (.loaded (orderByVersion boots.ledger))).Sound build
      original := by
  apply sound.setPhase
  · intro ledger same none
    cases same
    rw [sound.rows, none, List.append_nil]
    unfold foundation
    split
    · apply Or.inr
      intro manifest given
      rw [Option.mem_def.mp given]
      exact (List.mem_insertionSort _).mpr (List.mem_singleton.mpr rfl)
    · exact .inl rfl
  · intro impossible
    cases impossible
  · intro production unrecognised
    apply Or.inr
    apply Or.inl
    have none := (sound.refused production unrecognised).1
    rw [sound.rows, none, List.append_nil, foundation, sound.not_collapsed unrecognised]
    rfl

/-- The decision on the rows that a process read. -/
theorem Sound.decide (sound : boots.Sound build original) {process : Nat}
    {ledger : List MigrationRow} {manifest : SquashManifest}
    (inPhase : boots.phase process = .loaded ledger)
    (given : build.manifest = some manifest) :
    (boots.decide build process (compareLedger manifest ledger)).Sound build original := by
  -- production on an unrecognised ledger has read the original rows, and refuses them
  have mismatch : build.isProduction = true → Unrecognised build original →
      ∃ detail, compareLedger manifest ledger = .ledgerMismatch detail := by
    intro production unrecognised
    have read := (sound.refused production unrecognised).2 process
    obtain ⟨other, same, detail, differs⟩ := unrecognised
    cases Option.some.inj (given ▸ Option.mem_def.mp same)
    rcases read with starting | original | ended
    · rw [starting] at inPhase
      cases inPhase
    · rw [original] at inPhase
      cases inPhase
      exact ⟨detail, differs⟩
    · rw [ended] at inPhase
      cases inPhase
  cases decision : compareLedger manifest ledger with
  | emptyLedger | alreadySquashed =>
      apply sound.goOn process
      · rfl
      · intro impossible
        cases impossible
      · intro production unrecognised
        obtain ⟨detail, other⟩ := mismatch production unrecognised
        rw [decision] at other
        cases other
  | ledgerMismatch detail => exact sound.refuse process
  | collapse =>
      apply sound.setPhase
      · intro ledger impossible
        cases impossible
      · intro _ none other same
        cases Option.some.inj (given ▸ Option.mem_def.mp same)
        unfold compareLedger at decision
        split at decision
        · cases decision
        · split at decision
          · cases decision
          · next notSquashed =>
            split at decision
            · cases decision
            · next isOld =>
              rcases sound.loaded process ledger inPhase none with found | squashed
              · rw [← found]
                exact Decidable.not_not.mp isOld
              · exact absurd (squashed manifest same) notSquashed
      · intro production unrecognised
        obtain ⟨detail, other⟩ := mismatch production unrecognised
        rw [decision] at other
        cases other

/-- A re-stamp that commits before anything is executed. -/
theorem Sound.collapse (sound : boots.Sound build original) {process : Nat}
    {manifest : SquashManifest} (inPhase : boots.phase process = .collapsing)
    (given : build.manifest = some manifest) (early : boots.executed = []) :
    ((boots.collapse manifest).setPhase process .locking).Sound build original := by
  have recognised : build.isProduction = true → ¬ Unrecognised build original := by
    apply @Sound.recognised build original _ sound process
    rw [inPhase]
    rfl
  have collapsed : (boots.collapse manifest).Sound build original :=
    { rows := by
        simp only [Boots.collapse, foundation, ↓reduceIte, given, Option.map_some,
          Option.toList_some, early, List.append_nil]
      unique := List.nodup_singleton _
      restamped := by
        intro _
        exact ⟨manifest, given, sound.collapsing process inPhase early manifest given⟩
      loaded := sound.loaded
      collapsing := sound.collapsing
      refused := by
        intro production unrecognised
        exact absurd unrecognised (recognised production) }
  apply collapsed.goOn process
  · rfl
  · intro impossible
    cases impossible
  · exact recognised

/-- The transaction of a migration appends its row, or does nothing. -/
theorem Sound.apply (sound : boots.Sound build original) {process : Nat}
    {row : MigrationRow} {todo : List MigrationRow}
    (inPhase : boots.phase process = .applying (row :: todo)) :
    (boots.apply process row todo).Sound build original := by
  have recognised : build.isProduction = true → ¬ Unrecognised build original := by
    apply @Sound.recognised build original _ sound process
    rw [inPhase]
    rfl
  unfold Boots.apply
  split
  · exact sound.finish process
  · next free =>
    have applied : ({ boots with
        ledger := boots.ledger ++ [row]
        executed := boots.executed ++ [row] } : Boots).Sound build original :=
      { rows := by
          have rows := sound.rows
          simp only [foundation] at rows ⊢
          rw [rows, List.append_assoc]
        unique := by
          rw [List.map_append, List.nodup_append]
          refine ⟨sound.unique, List.nodup_singleton _, ?_⟩
          intro version inLedger other isRow same
          rw [List.map_singleton, List.mem_singleton] at isRow
          rw [same, isRow] at inLedger
          exact free inLedger
        restamped := sound.restamped
        loaded := by
          intro other ledger _ none
          exact absurd none (List.append_ne_nil_of_right_ne_nil _ (List.cons_ne_nil _ _))
        collapsing := by
          intro other _ none
          exact absurd none (List.append_ne_nil_of_right_ne_nil _ (List.cons_ne_nil _ _))
        refused := by
          intro production unrecognised
          exact absurd unrecognised (recognised production) }
    apply applied.goOn process
    · rfl
    · intro impossible
      cases impossible
    · exact recognised

theorem step_sound (sound : before.Sound build original)
    (taken : step build before label = some after) (early : Early before label after) :
    after.Sound build original := by
  cases label with
  | loadLedger process =>
      simp only [step] at taken
      split at taken
      · next none =>
        cases taken
        apply sound.goOn process
        · rfl
        · intro impossible
          cases impossible
        · intro _ unrecognised
          obtain ⟨manifest, given, mismatch⟩ := unrecognised
          rw [none] at given
          cases given
      · cases taken
        exact sound.loadLedger process
      · cases taken
  | compare process =>
      simp only [step] at taken
      split at taken
      · next inPhase given =>
        cases taken
        exact sound.decide inPhase given
      · cases taken
  | collapse process =>
      simp only [step] at taken
      split at taken
      · next inPhase given =>
        cases taken
        exact sound.collapse inPhase given early
      · cases taken
  | restampFails process =>
      simp only [step] at taken
      split at taken
      · cases taken
        exact sound.refuse process
      · cases taken
        exact sound.refuse process
      · cases taken
  | lock process =>
      simp only [step] at taken
      split at taken
      · next inPhase free =>
        cases taken
        apply (sound.setLock (some process)).goOn process
        · rfl
        · intro impossible
          cases impossible
        · apply @Sound.recognised build original _ sound process
          rw [inPhase]
          rfl
      · cases taken
  | readApplied process =>
      simp only [step] at taken
      split at taken
      · next inPhase =>
        split at taken
        · cases taken
          exact sound.finish process
        · cases taken
          apply sound.goOn process
          · rfl
          · intro impossible
            cases impossible
          · apply @Sound.recognised build original _ sound process
            rw [inPhase]
            rfl
      · cases taken
  | apply process =>
      simp only [step] at taken
      split at taken
      · next inPhase =>
        cases taken
        exact sound.apply inPhase
      · cases taken
  | unlock process =>
      simp only [step] at taken
      split at taken
      · cases taken
        exact sound.finish process
      · cases taken
  | crash process =>
      cases taken
      exact sound.finish process

/-- What was executed stays executed. -/
theorem step_executed (taken : step build before label = some after) :
    before.executed <+: after.executed := by
  have finished : ∀ process, before.executed <+: (before.finish process).executed :=
    fun _ => List.prefix_rfl
  have refused : ∀ process, before.executed <+: (before.refuse build process).executed := by
    intro process
    unfold Boots.refuse
    split
    · exact List.prefix_rfl
    · exact List.prefix_rfl
  cases label with
  | loadLedger process =>
      simp only [step] at taken
      split at taken
      · cases taken
        exact List.prefix_rfl
      · cases taken
        exact List.prefix_rfl
      · cases taken
  | compare process =>
      simp only [step] at taken
      split at taken
      · next ledger manifest inPhase given =>
        cases taken
        cases compareLedger manifest ledger with
        | emptyLedger | alreadySquashed | collapse => exact List.prefix_rfl
        | ledgerMismatch detail => exact refused process
      · cases taken
  | collapse process =>
      simp only [step] at taken
      split at taken
      · cases taken
        exact List.prefix_rfl
      · cases taken
  | restampFails process =>
      simp only [step] at taken
      split at taken
      · cases taken
        exact refused process
      · cases taken
        exact refused process
      · cases taken
  | lock process =>
      simp only [step] at taken
      split at taken
      · cases taken
        exact List.prefix_rfl
      · cases taken
  | readApplied process =>
      simp only [step] at taken
      split at taken
      · split at taken
        · cases taken
          exact finished process
        · cases taken
          exact List.prefix_rfl
      · cases taken
  | apply process =>
      simp only [step] at taken
      split at taken
      · cases taken
        unfold Boots.apply
        split
        · exact finished process
        · exact List.prefix_append ..
      · cases taken
  | unlock process =>
      simp only [step] at taken
      split at taken
      · cases taken
        exact finished process
      · cases taken
  | crash process =>
      cases taken
      exact finished process

/-- The invariant after a step is what must not be lost. -/
theorem Sound.kept (sound : after.Sound build original)
    (taken : step build before label = some after) :
    Kept build original before label after := by
  refine ⟨?_, sound.rows, sound.unique, sound.restamped, ?_⟩
  · intro row executed
    rw [sound.rows]
    exact List.mem_append_right _ ((step_executed taken).subset executed)
  · intro unrecognised
    have notCollapsed := sound.not_collapsed unrecognised
    refine ⟨notCollapsed, ?_⟩
    intro production
    rw [sound.rows, (sound.refused production unrecognised).1, List.append_nil, foundation,
      notCollapsed]
    rfl

/-- A re-stamp that keeps what must not be lost comes before any migration is executed. -/
theorem early_of_kept (taken : step build before label = some after)
    (kept : Kept build original before label after) : Early before label after := by
  cases label with
  | collapse process =>
      simp only [step] at taken
      split at taken
      · next manifest inPhase given =>
        cases taken
        have rows := kept.2.1
        simp only [Boots.collapse, Boots.setPhase, foundation, ↓reduceIte, given,
          Option.map_some, Option.toList_some, List.self_eq_append_right] at rows
        exact rows
      · cases taken
  | loadLedger _ | compare _ | restampFails _ | lock _ | readApplied _ | apply _
  | unlock _ | crash _ => trivial

/-- From any ledger, in every interleaving of any number of boots, the ledger loses no
migration and gains each once exactly when every re-stamp commits before any migration
has been executed. -/
theorem restamp_keeps_iff (build : Build) (original : Ledger) (labels : List BootStep) :
    Along (step build) (Kept build original) (start original) labels ↔
      Along (step build) Early (start original) labels := by
  apply Iff.symm
  apply along_iff_of_invariant (Sound build original)
  · intro before label after sound taken early
    exact step_sound sound taken early
  · intro before label after sound taken
    constructor
    · intro early
      exact (step_sound sound taken early).kept taken
    · intro kept
      exact early_of_kept taken kept
  · exact start_sound

end Preservation

/-! ## A re-stamp that commits late -/

/-- A squash of two migrations, and a build that has one more. -/
def squashBuild : Build where
  manifest := some ⟨1, [0xaa], [⟨1, [0x11]⟩, ⟨2, [0x22]⟩]⟩
  isProduction := true
  pending := fun ignoreMissing ledger =>
    let resolved : List MigrationRow := [⟨1, [0xaa]⟩, ⟨2, [0xbb]⟩]
    if (ignoreMissing || ledger.all fun row => resolved.any (·.version = row.version)) &&
        ledger.all fun row =>
          resolved.all fun own => own.version ≠ row.version || own.checksum = row.checksum
    then some (resolved.filter fun own => ledger.all fun row => row.version ≠ own.version)
    else none

/-- The ledger that the squash replaces. -/
def oldLedger : Ledger where
  rows := [⟨1, [0x11]⟩, ⟨2, [0x22]⟩]
  unique := by decide

/-- Two processes read the old ledger; one re-stamps it and migrates, and then the other
re-stamps it.  The next boot runs the lost migration again. -/
def restampedLate : List BootStep :=
  [.loadLedger 0, .loadLedger 1, .compare 0, .compare 1, .collapse 0, .lock 0,
    .readApplied 0, .apply 0, .unlock 0, .collapse 1, .lock 1, .readApplied 1, .apply 1]

theorem migration_lost :
    ¬ Along (step squashBuild) (Kept squashBuild oldLedger) (start oldLedger)
      restampedLate ∧
    (run (step squashBuild) (start oldLedger) restampedLate).map Boots.executed =
      some [⟨2, [0xbb]⟩, ⟨2, [0xbb]⟩] := by
  constructor
  · intro kept
    have early := kept.imp fun _ _ _ taken kept => early_of_kept taken kept
    exact absurd early (by decide +kernel)
  · decide +kernel

end Boots

end NookOs.Db
