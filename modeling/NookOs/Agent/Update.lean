/-
Module: NookOs.Agent.Update
Purpose: The agent's process around an update: the read loop, the drain task, the
  installers and the loop jobs, their interleavings, and what an update may end.
Trusted boundary: what the installer does is a choice of the environment
Main exports: NodeConfig, Process, Step, step, Right, Fit, Sound, update_right
-/
import NookOs.Agent.Cordon
import NookOs.Lib.Program
import NookOs.Lib.Run
import Mathlib.Data.List.Basic

namespace NookOs.Agent

open NookOs.Lib

/-! ### The configuration -/

/-- What an update asks of the node's configuration, the probe of the process's
supervisor, and the version that was compiled in. -/
structure NodeConfig where
  nodeName : String
  service : Option String
  supervisorDetected : Bool
  version : String
  drainDeadline : Nat

namespace NodeConfig

/-- Whether anything would start this process again. -/
def supervised (config : NodeConfig) : Bool :=
  if config.service = some "systemd-user" ∨ config.service = some "systemd-system" ∨
      config.service = some "launchd" ∨ config.service = some "supervisord" then true
  else if config.service = some "docker" then false
  else config.supervisorDetected

def shouldUpdate (config : NodeConfig) : Option String → Bool
  | none => false
  | some expected => expected != config.version && config.supervised

/-- The control plane expects another version than this one. -/
def behind (config : NodeConfig) : Option String → Bool
  | none => false
  | some expected => expected != config.version

end NodeConfig

/-! ### Tasks -/

/-- A loop job, and the directory its run is registered under: a warm one that
the runs of a card share, or one of its own. -/
structure LoopJob where
  jobId : String
  dirname : String
deriving DecidableEq

inductive ControlToNode where
  | updateAgent
  | registerAck (expectedAgentVersion : Option String)
  | runLoopJob (job : LoopJob)
deriving DecidableEq

inductive NodeToControl where
  | cordonChanged (cordon : Option NodeCordon)
  | jobRefused (jobId reason : String)
deriving DecidableEq

/-- Why an update is installed. -/
inductive Reason where
  | asked
  | differs
  | quiet
deriving DecidableEq

/-- What a task does to the process, one atomic access each.  A connection is
numbered, and names the flag and the channel that were made for it. -/
inductive Statement where
  | current
  | clear
  | inFlight
  | deferUpdate (expected : String) (jobs : Nat)
  | tick (inFlight : Nat)
  | installFailed
  | send (connection : Nat) (message : NodeToControl)
  | spawnDrain
  | spawnSelfupdate (reason : Reason) (connection : Nat) (deferredCtl : Option Nat)
  | spawnJob (job : LoopJob)
  | install
  | storeUpdating (connection : Nat)
deriving DecidableEq

/-- An install replies only where it failed: it ends the process otherwise. -/
abbrev Statement.Reply : Statement → Type
  | .current => Option NodeCordon
  | .inFlight => Nat
  | .deferUpdate _ _ => NodeCordon
  | .tick _ => Tick
  | .installFailed => Bool
  | _ => Unit

abbrev Task := Program Statement Statement.Reply Unit

/-- A task with nothing left to do. -/
abbrev idle : Task := .answer ()

def atRest : Task → Bool
  | .answer _ => true
  | .statement _ _ => false

abbrev request (statement : Statement) : Program Statement Statement.Reply statement.Reply :=
  Program.send statement

/-- The task of `spawn_selfupdate`: all that follows its install is reached
only where the install failed. -/
def selfupdate (connection : Nat) (deferredCtl : Option Nat) : Task := do
  request .install
  match deferredCtl with
  | none => pure ()
  | some channel =>
      if ← request .installFailed then
        request (.send channel (.cordonChanged none))
  request (.storeUpdating connection)

/-- The start of a connection, whose last act spawns the drain task. -/
def connectOnce (connection : Nat) : Task := do
  let cordon ← request .current
  request (.send connection (.cordonChanged cordon))
  request .spawnDrain

/-- The first half of `RegisterAck`: a deploy that was rolled back to this
version lifts the cordon. -/
def liftRolledBack (config : NodeConfig) (connection : Nat) (expected : Option String) : Task :=
  if config.behind expected then pure ()
  else do
    if (← request .current).isSome then
      request .clear
      request (.send connection (.cordonChanged none))

/-- The other half: a version this one is not is installed, or held back while
loop jobs are in flight. -/
def followExpected (config : NodeConfig) (connection : Nat) (expected : Option String) : Task :=
  if config.shouldUpdate expected then do
    let inFlight ← request .inFlight
    if 0 < inFlight then
      let cordon ← request (.deferUpdate (expected.getD "") inFlight)
      request (.send connection (.cordonChanged (some cordon)))
    else
      request (.spawnSelfupdate .differs connection none)
  else pure ()

/-- One arm of the read loop. -/
def handle (config : NodeConfig) (connection : Nat) : ControlToNode → Task
  | .updateAgent => request (.spawnSelfupdate .asked connection none)
  | .registerAck expected => do
      liftRolledBack config connection expected
      followExpected config connection expected
  | .runLoopJob job => do
      match ← request .current with
      | some cordon =>
          request (.send connection (.jobRefused job.jobId
            ("node " ++ config.nodeName ++ " is cordoned: " ++ cordon.reason)))
      | none => request (.spawnJob job)

/-- One round of the drain task. -/
def drainRound (connection : Nat) : Task := do
  let inFlight ← request .inFlight
  match ← request (.tick inFlight) with
  | .idle => pure ()
  | .waiting cordon changed =>
      if changed then
        request (.send connection (.cordonChanged (some cordon)))
  | .proceed cordon =>
      request (.send connection (.cordonChanged (some cordon)))
      request (.spawnSelfupdate .quiet connection (some connection))

/-! ### The process -/

/-- A job the node has taken and whose run has not ended. -/
structure Admitted where
  job : LoopJob
  registered : Bool
deriving DecidableEq

/-- The task of an install, and why and on which connection it was spawned. -/
structure Installer where
  reason : Reason
  connection : Nat
  program : Task

/-- The process of the agent.  `proceeds` counts what the drain tick has said
about the deferral there is, `exited` is the installer that ended the process,
and `lastSent` the last cordon sent on the connection there is: no code reads
the three. -/
structure Process where
  deferral : Option Deferral
  runningJobs : List String
  jobs : List Admitted
  connection : Nat
  connected : Bool
  updating : List Nat
  reader : Task
  drain : Option Task
  installers : List Installer
  lastSent : Option (Option NodeCordon)
  proceeds : Nat
  exited : Option Reason

/-- A process that has just been started. -/
def launched : Process where
  deferral := none
  runningJobs := []
  jobs := []
  connection := 0
  connected := false
  updating := []
  reader := idle
  drain := none
  installers := []
  lastSent := none
  proceeds := 0
  exited := none

/-- What the environment decides about one access: the time it reads, and
whether an install lands. -/
structure Choice where
  now : Instant
  installs : Bool
deriving DecidableEq

/-- A task of the process. -/
inductive Party where
  | reader
  | drain
  | installer (index : Nat)
deriving DecidableEq

namespace Process

/-- The messages of a connection that is gone are dropped. -/
def sent (process : Process) (connection : Nat) (cordon : Option NodeCordon) : Process :=
  if process.connected ∧ connection = process.connection then
    { process with lastSent := some cordon }
  else process

/-- Nothing stands between the swap of the flag and the spawn. -/
def spawnSelfupdate (process : Process) (reason : Reason) (connection : Nat)
    (deferredCtl : Option Nat) : Process :=
  if connection ∈ process.updating then process
  else
    { process with
      updating := connection :: process.updating
      installers := process.installers ++
        [⟨reason, connection, selfupdate connection deferredCtl⟩] }

def parties (process : Process) : List Party :=
  [.reader, .drain] ++ (List.range process.installers.length).map .installer

def program (process : Process) : Party → Option Task
  | .reader => some process.reader
  | .drain => process.drain
  | .installer index => (process.installers[index]?).map (·.program)

/-- A task goes on as the program says.  An installer that is done is gone. -/
def setProgram (process : Process) (program : Task) : Party → Process
  | .reader => { process with reader := program }
  | .drain => { process with drain := some program }
  | .installer index =>
      { process with
        installers :=
          match program with
          | .answer _ => process.installers.eraseIdx index
          | .statement statement next =>
              process.installers.modify index fun installer =>
                { installer with program := .statement statement next } }

end Process

/-- One access of a task to the process; an install ends it for the reason the
task was spawned for. -/
def execute (config : NodeConfig) (process : Process) (choice : Choice) (reason : Reason) :
    (statement : Statement) → Process × statement.Reply
  | .current => (process, current process.deferral)
  | .clear => ({ process with deferral := none, proceeds := 0 }, ())
  | .inFlight => (process, process.runningJobs.length)
  | .deferUpdate expected jobs =>
      let deferral := deferAt choice.now expected jobs process.deferral
      ({ process with deferral := some deferral }, deferral.cordon)
  | .tick inFlight =>
      let (deferral, tick) := tickAt choice.now inFlight config.drainDeadline process.deferral
      ({ process with
          deferral := deferral
          proceeds := match tick with
            | .proceed _ => process.proceeds + 1
            | _ => process.proceeds }, tick)
  | .installFailed =>
      let (deferral, lifted) := installFailed process.deferral
      ({ process with deferral := deferral, proceeds := 0 }, lifted)
  | .send connection (.cordonChanged cordon) => (process.sent connection cordon, ())
  | .send _ (.jobRefused _ _) => (process, ())
  | .spawnDrain => ({ process with drain := some idle }, ())
  | .spawnSelfupdate reason connection deferredCtl =>
      (process.spawnSelfupdate reason connection deferredCtl, ())
  | .spawnJob job => ({ process with jobs := process.jobs ++ [⟨job, false⟩] }, ())
  | .install =>
      if choice.installs then ({ process with exited := some reason }, ())
      else (process, ())
  | .storeUpdating connection =>
      ({ process with updating := process.updating.filter (· ≠ connection) }, ())

/-- Who moves next. -/
inductive Step where
  | connect
  | disconnect
  | receive (message : ControlToNode)
  | drainTick
  | goOn (party : Party) (choice : Choice)
  | registers (index : Nat)
  | ends (index : Nat)
deriving DecidableEq

namespace Process

/-- The reason the process has for the update a task installs. -/
def reason (process : Process) : Party → Reason
  | .installer index => ((process.installers[index]?).map (·.reason)).getD .asked
  | _ => .asked

/-- One more access of a task that is not at rest. -/
def resume (config : NodeConfig) (process : Process) (party : Party) (choice : Choice) :
    Option Process :=
  match process.program party with
  | some (.statement statement next) =>
      let (after, reply) := execute config process choice (process.reason party) statement
      some (after.setProgram (next reply) party)
  | _ => none

/-- The run of a job starts by registering its directory. -/
def registers (process : Process) (index : Nat) : Option Process :=
  match process.jobs[index]? with
  | some ⟨job, false⟩ =>
      some { process with
        jobs := process.jobs.set index ⟨job, true⟩
        runningJobs := process.runningJobs.insert job.dirname }
  | _ => none

/-- The run of a job that ends takes its directory off the set, whoever else
is registered under it. -/
def ends (process : Process) (index : Nat) : Option Process :=
  match process.jobs[index]? with
  | some ⟨job, true⟩ =>
      some { process with
        jobs := process.jobs.eraseIdx index
        runningJobs := process.runningJobs.filter (· ≠ job.dirname) }
  | _ => none

/-- The read loop takes a message, or sees its connection gone, only between
two arms. -/
def reading (process : Process) : Bool :=
  process.connected && atRest process.reader

def draining (process : Process) : Bool :=
  (process.drain.map atRest).getD false

end Process

def step (config : NodeConfig) (process : Process) (label : Step) : Option Process :=
  if process.exited.isSome then none
  else
    match label with
    | .connect =>
        if process.connected then none
        else
          some { process with
            connected := true
            connection := process.connection + 1
            reader := connectOnce (process.connection + 1)
            drain := none
            lastSent := none }
    | .disconnect =>
        if process.reading then some { process with connected := false, drain := none }
        else none
    | .receive message =>
        if process.reading then
          some { process with reader := handle config process.connection message }
        else none
    | .drainTick =>
        if process.draining then
          some { process with drain := some (drainRound process.connection) }
        else none
    | .goOn party choice => process.resume config party choice
    | .registers index => process.registers index
    | .ends index => process.ends index

/-! ### What an update may end -/

/-- The task is about to send a cordon on the connection. -/
def sends (connection : Nat) : Task → Bool
  | .statement (.send channel (.cordonChanged _)) _ => channel == connection
  | _ => false

def installs : Task → Bool
  | .statement .install _ => true
  | _ => false

namespace Process

/-- The party is about to send a cordon on the connection there is. -/
def Pends (process : Process) (party : Party) : Prop :=
  ∃ program ∈ process.program party, sends process.connection program = true

instance (process : Process) (party : Party) : Decidable (process.Pends party) := by
  unfold Pends
  infer_instance

/-- Some other party is about to send a cordon. -/
def PendsBeside (process : Process) (party : Party) : Prop :=
  ∃ other ∈ process.parties, other ≠ party ∧ process.Pends other

instance (process : Process) (party : Party) : Decidable (process.PendsBeside party) := by
  unfold PendsBeside
  infer_instance

/-- A connection is up, and no task of the process has anything left to do but
to install. -/
structure Quiescent (process : Process) : Prop where
  running : process.exited = none
  connected : process.connected = true
  reader : atRest process.reader = true
  drain : ∀ program ∈ process.drain, atRest program = true
  installers : ∀ installer ∈ process.installers, installs installer.program = true

end Process

/-- What the node promises of an update.  No install but one that was asked for
ends a loop job, no two installers run, a deferral is proceeded with once, and
the control plane has been told of the cordon there is. -/
structure Right (process : Process) : Prop where
  harmless : ∀ reason, process.exited = some reason → reason ≠ .asked → process.jobs = []
  alone : process.installers.length ≤ 1
  once : process.proceeds ≤ 1
  told : process.Quiescent → process.lastSent = some (current process.deferral)

/-- What a task has to find when it gets to a statement.

An installer is spawned where none runs, and one that nobody asked for where no
job is in flight; no job is taken while such an installer runs.  A deferral is
retargeted only before its install.  A cordon that is sent is the one there is,
and one that a failed install lifts is reported on the connection there is,
unless somebody else is about to send one. -/
def Process.Allows (process : Process) (party : Party) : Statement → Prop
  | .spawnSelfupdate reason connection _ =>
      connection ∉ process.updating →
        process.installers = [] ∧ (reason ≠ .asked → process.jobs = [])
  | .spawnJob _ => ∀ installer ∈ process.installers, installer.reason = .asked
  | .deferUpdate _ _ => ∀ deferral ∈ process.deferral, deferral.installing = false
  | .send connection (.cordonChanged cordon) =>
      process.connected = true → connection = process.connection →
        cordon = current process.deferral ∨ process.PendsBeside party
  | .installFailed =>
      process.connected = true → process.deferral ≠ none →
        (∀ installer ∈ process.installers, installer.connection = process.connection) ∨
          process.PendsBeside party
  | _ => True

instance (process : Process) (party : Party) (statement : Statement) :
    Decidable (process.Allows party statement) := by
  unfold Process.Allows
  split <;> infer_instance

/-- The step finds what its statement has to find. -/
def Fit (process : Process) : Step → Process → Prop
  | .goOn party _, _ =>
      match process.program party with
      | some (.statement statement _) => process.Allows party statement
      | _ => True
  | _, _ => True

instance (process : Process) (label : Step) (after : Process) :
    Decidable (Fit process label after) := by
  unfold Fit
  split
  · split <;> infer_instance
  · infer_instance

/-! ### Tasks that tell of what they change -/

/-- The reply says that the cordon is another one now. -/
def Moves : (statement : Statement) → statement.Reply → Prop
  | .clear, _ => True
  | .deferUpdate _ _, _ => True
  | .tick _, .waiting _ changed => changed = true
  | .tick _, .proceed _ => True
  | .installFailed, lifted => lifted = true
  | _, _ => False

/-- What the read loop and the drain task do: neither spawns the drain task or
lifts a failed install, and a spawned installer reports on its own channel. -/
def Plain : Statement → Prop
  | .spawnDrain | .installFailed => False
  | .spawnSelfupdate _ connection deferredCtl => ∀ channel ∈ deferredCtl, channel = connection
  | _ => True

/-- A task that sends a cordon right after each access that moves it. -/
def Tidy (connection : Nat) : Task → Prop
  | .answer _ => True
  | .statement statement next =>
      Plain statement ∧
        ∀ reply, (Moves statement reply → sends connection (next reply) = true) ∧
          Tidy connection (next reply)

theorem tidy_idle (connection : Nat) : Tidy connection idle := trivial

variable {connection : Nat}

theorem sends_bind {program : Task} {next : Unit → Task}
    (sending : sends connection program = true) :
    sends connection (program.bind next) = true := by
  cases program with
  | answer value => cases sending
  | statement statement rest =>
      cases statement with
      | send channel message =>
          cases message with
          | cordonChanged cordon => exact sending
          | jobRefused jobId reason => cases sending
      | _ => cases sending

theorem Tidy.bind {program : Task} {next : Unit → Task}
    (tidy : Tidy connection program) (rest : ∀ value, Tidy connection (next value)) :
    Tidy connection (program.bind next) := by
  induction program with
  | answer value => exact rest value
  | statement statement following ih =>
      refine ⟨tidy.1, fun reply => ⟨fun moves => ?_, ?_⟩⟩
      · exact sends_bind ((tidy.2 reply).1 moves)
      · exact ih reply (tidy.2 reply).2

/-- A statement that moves nothing, whatever is replied. -/
theorem Tidy.request {statement : Statement} {next : statement.Reply → Task}
    (plain : Plain statement) (still : ∀ reply, ¬ Moves statement reply)
    (rest : ∀ reply, Tidy connection (next reply)) :
    Tidy connection (.statement statement next) :=
  ⟨plain, fun reply => ⟨fun moves => absurd moves (still reply), rest reply⟩⟩

theorem tidy_send (connection channel : Nat) (message : NodeToControl) :
    Tidy connection (request (.send channel message)) :=
  Tidy.request trivial (fun _ moves => moves) fun _ => tidy_idle connection

theorem tidy_spawnSelfupdate (connection : Nat) (reason : Reason) (deferredCtl : Option Nat)
    (own : ∀ channel ∈ deferredCtl, channel = connection) :
    Tidy connection (request (.spawnSelfupdate reason connection deferredCtl)) :=
  Tidy.request own (fun _ moves => moves) fun _ => tidy_idle connection

theorem tidy_liftRolledBack (config : NodeConfig) (connection : Nat) (expected : Option String) :
    Tidy connection (liftRolledBack config connection expected) := by
  unfold liftRolledBack
  split
  · exact tidy_idle connection
  · refine Tidy.request trivial (fun _ moves => moves) fun cordon => ?_
    change Tidy connection (if cordon.isSome then _ else _)
    split
    · exact ⟨trivial, fun _ => ⟨fun _ => beq_self_eq_true connection, tidy_send _ _ _⟩⟩
    · exact tidy_idle connection

theorem tidy_followExpected (config : NodeConfig) (connection : Nat)
    (expected : Option String) : Tidy connection (followExpected config connection expected) := by
  unfold followExpected
  split
  · refine Tidy.request trivial (fun _ moves => moves) fun inFlight => ?_
    change Tidy connection (if 0 < inFlight then _ else _)
    split
    · exact ⟨trivial, fun _ => ⟨fun _ => beq_self_eq_true connection, tidy_send _ _ _⟩⟩
    · exact tidy_spawnSelfupdate connection .differs none fun _ none => by cases none
  · exact tidy_idle connection

theorem tidy_handle (config : NodeConfig) (connection : Nat) (message : ControlToNode) :
    Tidy connection (handle config connection message) := by
  cases message with
  | updateAgent =>
      exact tidy_spawnSelfupdate connection .asked none fun _ none => by cases none
  | registerAck expected =>
      exact (tidy_liftRolledBack config connection expected).bind fun _ =>
        tidy_followExpected config connection expected
  | runLoopJob job =>
      refine Tidy.request trivial (fun _ moves => moves) fun cordon => ?_
      cases cordon with
      | some cordon => exact tidy_send _ _ _
      | none => exact Tidy.request trivial (fun _ moves => moves) fun _ => tidy_idle connection

theorem tidy_drainRound (connection : Nat) : Tidy connection (drainRound connection) := by
  refine Tidy.request trivial (fun _ moves => moves) fun inFlight => ?_
  refine ⟨trivial, fun tick => ?_⟩
  cases tick with
  | idle => exact ⟨fun moves => moves.elim, tidy_idle connection⟩
  | waiting cordon changed =>
      cases changed with
      | false => exact ⟨fun moves => Bool.noConfusion moves, tidy_idle connection⟩
      | true => exact ⟨fun _ => beq_self_eq_true connection, tidy_send _ _ _⟩
  | proceed cordon =>
      refine ⟨fun _ => beq_self_eq_true connection, ?_⟩
      refine Tidy.request trivial (fun _ moves => moves) fun _ => ?_
      exact tidy_spawnSelfupdate connection .quiet (some connection) fun _ own => by
        cases own
        rfl

/-- Where the start of a connection stands. -/
inductive Connecting (connection : Nat) : Task → Prop
  | asks : Connecting connection (connectOnce connection)
  | tells (cordon : Option NodeCordon) :
      Connecting connection (.statement (.send connection (.cordonChanged cordon)) fun _ =>
        request .spawnDrain)
  | spawns : Connecting connection (request .spawnDrain)

/-- Where an installer stands. -/
inductive Selfupdating (connection : Nat) : Task → Prop
  | installs (deferredCtl : Option Nat) (own : ∀ channel ∈ deferredCtl, channel = connection) :
      Selfupdating connection (selfupdate connection deferredCtl)
  | lifts :
      Selfupdating connection (.statement .installFailed fun lifted =>
        if lifted then
          .statement (.send connection (.cordonChanged none)) fun _ =>
            request (.storeUpdating connection)
        else request (.storeUpdating connection))
  | tells :
      Selfupdating connection (.statement (.send connection (.cordonChanged none)) fun _ =>
        request (.storeUpdating connection))
  | stores : Selfupdating connection (request (.storeUpdating connection))

/-- An install that failed goes on to lift the cordon where it is one that was
held back. -/
theorem selfupdating_after (connection : Nat) (deferredCtl : Option Nat)
    (own : ∀ channel ∈ deferredCtl, channel = connection) :
    ∃ rest, selfupdate connection deferredCtl = .statement .install (fun _ => rest) ∧
      Selfupdating connection rest := by
  cases deferredCtl with
  | none => exact ⟨_, rfl, .stores⟩
  | some channel =>
      obtain rfl := own channel rfl
      exact ⟨_, rfl, .lifts⟩

/-! ### What one access leaves -/

section Accesses

variable {config : NodeConfig} {process : Process} {choice : Choice} {why : Reason}
  {statement : Statement} {party other : Party} {program : Task}

/-- No access of a task moves the connection or the read loop's task. -/
theorem execute_frame (config : NodeConfig) (process : Process) (choice : Choice) (why : Reason)
    (statement : Statement) :
    (execute config process choice why statement).1.connection = process.connection ∧
      (execute config process choice why statement).1.connected = process.connected ∧
      (execute config process choice why statement).1.reader = process.reader := by
  cases statement with
  | send channel message =>
      cases message with
      | cordonChanged cordon =>
          simp only [execute, Process.sent]
          split <;> exact ⟨rfl, rfl, rfl⟩
      | jobRefused jobId reason => exact ⟨rfl, rfl, rfl⟩
  | spawnSelfupdate reason connection deferredCtl =>
      simp only [execute, Process.spawnSelfupdate]
      split <;> exact ⟨rfl, rfl, rfl⟩
  | install =>
      simp only [execute]
      split <;> exact ⟨rfl, rfl, rfl⟩
  | _ => exact ⟨rfl, rfl, rfl⟩

/-- Installers are only ever added, by a spawn whose flag was not set. -/
theorem execute_installers (config : NodeConfig) (process : Process) (choice : Choice)
    (why : Reason) (statement : Statement) :
    (execute config process choice why statement).1.installers = process.installers ∨
      ∃ reason connection deferredCtl,
        statement = .spawnSelfupdate reason connection deferredCtl ∧
          connection ∉ process.updating ∧
          (execute config process choice why statement).1.installers = process.installers ++
            [⟨reason, connection, selfupdate connection deferredCtl⟩] := by
  cases statement with
  | send channel message =>
      left
      cases message with
      | cordonChanged cordon =>
          simp only [execute, Process.sent]
          split <;> rfl
      | jobRefused jobId reason => rfl
  | spawnSelfupdate reason connection deferredCtl =>
      by_cases set : connection ∈ process.updating
      · left
        simp only [execute, Process.spawnSelfupdate, if_pos set]
      · right
        refine ⟨reason, connection, deferredCtl, rfl, set, ?_⟩
        simp only [execute, Process.spawnSelfupdate, if_neg set]
  | install =>
      left
      simp only [execute]
      split <;> rfl
  | _ => exact .inl rfl

theorem execute_drain (notSpawn : statement ≠ .spawnDrain) :
    (execute config process choice why statement).1.drain = process.drain := by
  cases statement with
  | spawnDrain => exact absurd rfl notSpawn
  | send channel message =>
      cases message with
      | cordonChanged cordon =>
          simp only [execute, Process.sent]
          split <;> rfl
      | jobRefused jobId reason => rfl
  | spawnSelfupdate reason connection deferredCtl =>
      simp only [execute, Process.spawnSelfupdate]
      split <;> rfl
  | install =>
      simp only [execute]
      split <;> rfl
  | _ => rfl

/-- No access but the spawn of the drain task changes what a task has left. -/
theorem execute_program (notSpawn : statement ≠ .spawnDrain)
    (present : process.program party = some program) :
    (execute config process choice why statement).1.program party = some program := by
  cases party with
  | reader =>
      simp only [Process.program] at present ⊢
      rw [(execute_frame config process choice why statement).2.2]
      exact present
  | drain =>
      simp only [Process.program] at present ⊢
      rw [execute_drain notSpawn]
      exact present
  | installer index =>
      simp only [Process.program, Option.map_eq_some_iff] at present ⊢
      obtain ⟨installer, found, same⟩ := present
      refine ⟨installer, ?_, same⟩
      obtain kept | ⟨reason, connection, deferredCtl, -, -, added⟩ :=
        execute_installers config process choice why statement
      · rw [kept]
        exact found
      · rw [added, List.getElem?_append_left (List.getElem?_eq_some_iff.mp found).1]
        exact found

theorem pends_execute (notSpawn : statement ≠ .spawnDrain) (pends : process.Pends other) :
    (execute config process choice why statement).1.Pends other := by
  obtain ⟨left, present, sending⟩ := pends
  refine ⟨left, execute_program notSpawn present, ?_⟩
  rw [(execute_frame config process choice why statement).1]
  exact sending

/-- A task that is about to send a cordon pends. -/
theorem pends_setProgram {old : Task} (present : process.program party = some old)
    (sending : sends process.connection program = true) :
    (process.setProgram program party).Pends party := by
  cases party with
  | reader | drain => exact ⟨program, rfl, sending⟩
  | installer index =>
      simp only [Process.program, Option.map_eq_some_iff] at present
      obtain ⟨installer, found, -⟩ := present
      cases program with
      | answer value => cases sending
      | statement statement next =>
          refine ⟨.statement statement next, ?_, sending⟩
          simp only [Process.program, Process.setProgram, List.getElem?_modify_eq, found]
          rfl

/-- The other tasks pend as they did: no two installers are there to be moved
by one another's end. -/
theorem pends_other (alone : process.installers.length ≤ 1) (different : other ≠ party)
    (pends : process.Pends other) : (process.setProgram program party).Pends other := by
  obtain ⟨left, present, sending⟩ := pends
  cases party with
  | reader =>
      cases other with
      | reader => exact absurd rfl different
      | drain | installer => exact ⟨left, present, sending⟩
  | drain =>
      cases other with
      | reader => exact ⟨left, present, sending⟩
      | drain => exact absurd rfl different
      | installer index => exact ⟨left, present, sending⟩
  | installer index =>
      cases other with
      | reader | drain => exact ⟨left, present, sending⟩
      | installer position =>
          obtain ⟨installer, found, -⟩ := Option.map_eq_some_iff.mp present
          have there := (List.getElem?_eq_some_iff.mp found).1
          have apart : position ≠ index := fun same => different (by rw [same])
          have beyond : process.installers.length ≤ index := by omega
          refine ⟨left, Eq.trans ?_ present, sending⟩
          cases program with
          | answer value =>
              simp only [Process.program, Process.setProgram,
                List.eraseIdx_of_length_le beyond]
          | statement statement next =>
              simp only [Process.program, Process.setProgram,
                List.modify_eq_self beyond]

end Accesses

/-! ### The invariant -/

/-- How often a deferral has been proceeded with. -/
def proceeded : Option Deferral → Nat
  | some deferral => if deferral.installing then 1 else 0
  | none => 0

/-- What does not depend on where the tasks stand. -/
structure Steady (process : Process) : Prop where
  alone : process.installers.length ≤ 1
  clear : ∀ installer ∈ process.installers, installer.reason ≠ .asked → process.jobs = []
  once : process.proceeds = proceeded process.deferral
  harmless : ∀ reason, process.exited = some reason → reason ≠ .asked → process.jobs = []

/-- The control plane has been told of the cordon, or is about to be. -/
def Process.Told (process : Process) : Prop :=
  process.lastSent = some (current process.deferral) ∨ ∃ party, process.Pends party

structure Sound (process : Process) : Prop where
  steady : Steady process
  installers : ∀ installer ∈ process.installers,
    Selfupdating installer.connection installer.program
  reader : process.connected = true → Tidy process.connection process.reader ∨
    process.drain = none ∧ Connecting process.connection process.reader
  drain : process.connected = true → ∀ program ∈ process.drain, Tidy process.connection program
  away : process.connected = false → atRest process.reader = true ∧ process.drain = none
  told : process.connected = true →
    process.Told ∨ process.reader = connectOnce process.connection

section Preservation

variable {config : NodeConfig} {process after : Process} {choice : Choice}
  {statement : Statement} {party : Party} {program : Task}

theorem Steady.start : Steady launched where
  alone := Nat.zero_le 1
  clear _ member := nomatch member
  once := rfl
  harmless _ exited := nomatch exited

/-- A tick proceeds only with a deferral that had not been proceeded with. -/
theorem proceeded_tick {held : Option Deferral} {now : Instant} {inFlight deadline : Nat} :
    proceeded (tickAt now inFlight deadline held).1 =
      match (tickAt now inFlight deadline held).2 with
      | .proceed _ => proceeded held + 1
      | _ => proceeded held := by
  obtain ⟨same, said⟩ | ⟨deferral, rfl, waits, ticked⟩ | ⟨deferral, rfl, waits, -, ticked⟩ :=
    tickAt_cases now inFlight deadline held
  · rw [same]
    obtain said | ⟨cordon, said⟩ := said
    · rw [said]
    · rw [said]
  · rw [ticked]
    simp only [proceeded, Deferral.wait, waits]
  · rw [ticked]
    simp only [proceeded, Deferral.install, waits, if_pos, Bool.false_eq_true, if_false]

/-- The install a task runs is the one it was spawned for, and no task but an
installer has a reason that was not asked for. -/
theorem Steady.reason (steady : Steady process) (party : Party)
    (unasked : process.reason party ≠ .asked) : process.jobs = [] := by
  cases party with
  | reader | drain => exact absurd rfl unasked
  | installer index =>
      simp only [Process.reason] at unasked
      cases found : process.installers[index]? with
      | none =>
          rw [found] at unasked
          exact absurd rfl unasked
      | some installer =>
          rw [found] at unasked
          exact steady.clear installer (List.mem_of_getElem? found) unasked

theorem Steady.execute (steady : Steady process) (running : process.exited = none)
    (party : Party) (allows : process.Allows party statement) :
    Steady (execute config process choice (process.reason party) statement).1 := by
  cases statement with
  | clear => exact { steady with once := rfl }
  | deferUpdate expected jobs =>
      refine { steady with once := ?_ }
      have once := steady.once
      change process.proceeds = 0
      rw [once]
      cases held : process.deferral with
      | none => rfl
      | some deferral =>
          have waits := allows deferral held
          simp only [proceeded, waits, Bool.false_eq_true, if_false]
  | tick inFlight =>
      refine { steady with once := ?_ }
      have once := steady.once
      have ticked := @proceeded_tick process.deferral choice.now inFlight config.drainDeadline
      simp only [Agent.execute]
      rw [ticked, once]
  | installFailed => exact { steady with once := rfl }
  | send channel message =>
      cases message with
      | cordonChanged cordon =>
          simp only [Agent.execute, Process.sent]
          split
          · exact { steady with }
          · exact steady
      | jobRefused jobId reason => exact steady
  | spawnSelfupdate reason connection deferredCtl =>
      by_cases set : connection ∈ process.updating
      · simp only [Agent.execute, Process.spawnSelfupdate, if_pos set]
        exact steady
      · obtain ⟨none, quiet⟩ := allows set
        simp only [Agent.execute, Process.spawnSelfupdate, if_neg set, none]
        refine { steady with alone := Nat.le_refl 1, clear := ?_ }
        intro installer member unasked
        obtain rfl := List.mem_singleton.mp member
        exact quiet unasked
  | spawnJob job =>
      refine { steady with clear := ?_, harmless := ?_ }
      · intro installer member unasked
        exact absurd (allows installer member) unasked
      · intro reason exited
        cases running.symm.trans exited
  | install =>
      simp only [Agent.execute]
      split
      · refine { steady with harmless := ?_ }
        intro reason exited unasked
        obtain rfl := Option.some.inj exited
        exact steady.reason party unasked
      · exact steady
  | _ => exact { steady with }

/-- An update of one element that the map does not see. -/
theorem map_modify_same {First Second : Type} {update : First → First} {view : First → Second}
    (same : ∀ element, view (update element) = view element) (elements : List First)
    (index : Nat) : (elements.modify index update).map view = elements.map view := by
  induction elements generalizing index with
  | nil => simp
  | cons element rest ih =>
      cases index with
      | zero => simp [same]
      | succ index => simp [ih]

/-- The installers that are left after a step of a task are there for the
reasons they were there. -/
theorem setProgram_reasons :
    ((process.setProgram program party).installers.map Installer.reason).Sublist
      (process.installers.map Installer.reason) := by
  cases party with
  | reader | drain => exact List.Sublist.refl _
  | installer index =>
      cases program with
      | answer value => exact (List.eraseIdx_sublist process.installers index).map _
      | statement statement next =>
          have same : (process.installers.modify index fun installer =>
              { installer with program := .statement statement next }).map Installer.reason =
              process.installers.map Installer.reason :=
            map_modify_same (by intro; rfl) process.installers index
          exact same ▸ List.Sublist.refl _

theorem Steady.setProgram (steady : Steady process) :
    Steady (process.setProgram program party) := by
  have reasons := @setProgram_reasons process party program
  have jobs : (process.setProgram program party).jobs = process.jobs := by
    cases party <;> rfl
  have alone : (process.setProgram program party).installers.length ≤ 1 := by
    have shorter := reasons.length_le
    rw [List.length_map, List.length_map] at shorter
    exact Nat.le_trans shorter steady.alone
  refine ⟨alone, ?_, ?_, ?_⟩
  · intro installer member unasked
    obtain ⟨old, there, same⟩ :=
      List.mem_map.mp (reasons.subset (List.mem_map_of_mem member))
    rw [jobs]
    exact steady.clear old there (same ▸ unasked)
  · cases party <;> exact steady.once
  · rw [jobs]
    cases party <;> exact steady.harmless

/-- A step that leaves the cordon as it is, by a task that was not about to
send one. -/
theorem Process.Told.same (told : process.Told) (deferral : after.deferral = process.deferral)
    (lastSent : after.lastSent = process.lastSent) (silent : ¬ process.Pends party)
    (others : ∀ other, other ≠ party → process.Pends other → after.Pends other) :
    after.Told := by
  obtain said | ⟨other, pends⟩ := told
  · left
    rw [lastSent, deferral]
    exact said
  · right
    refine ⟨other, others other ?_ pends⟩
    rintro rfl
    exact silent pends

theorem Process.Told.besides (beside : process.PendsBeside party)
    (others : ∀ other, other ≠ party → process.Pends other → after.Pends other) :
    after.Told := by
  obtain ⟨other, -, different, pends⟩ := beside
  exact .inr ⟨other, others other different pends⟩

/-- An access that moves nothing and sends no cordon leaves the cordon, and
what was last sent. -/
theorem execute_still {why : Reason}
    (still : ¬ Moves statement (execute config process choice why statement).2)
    (notSent : ∀ channel cordon, statement ≠ .send channel (.cordonChanged cordon)) :
    (execute config process choice why statement).1.deferral = process.deferral ∧
      (execute config process choice why statement).1.lastSent = process.lastSent := by
  cases statement with
  | clear | deferUpdate => exact absurd trivial still
  | tick inFlight =>
      refine ⟨?_, rfl⟩
      simp only [Agent.execute] at still ⊢
      obtain ⟨same, -⟩ | ⟨deferral, -, -, ticked⟩ | ⟨deferral, -, -, -, ticked⟩ :=
        tickAt_cases choice.now inFlight config.drainDeadline process.deferral
      · exact same
      · rw [ticked] at still
        exact absurd rfl still
      · rw [ticked] at still
        exact absurd trivial still
  | installFailed =>
      refine ⟨?_, rfl⟩
      simp only [Agent.execute, installFailed, Moves, Bool.not_eq_true,
        Option.isSome_eq_false_iff, Option.isNone_iff_eq_none] at still ⊢
      exact still.symm
  | send channel message =>
      cases message with
      | cordonChanged cordon => exact absurd rfl (notSent channel cordon)
      | jobRefused jobId reason => exact ⟨rfl, rfl⟩
  | spawnSelfupdate reason connection deferredCtl =>
      simp only [Agent.execute, Process.spawnSelfupdate]
      split <;> exact ⟨rfl, rfl⟩
  | install =>
      simp only [Agent.execute]
      split <;> exact ⟨rfl, rfl⟩
  | _ => exact ⟨rfl, rfl⟩

theorem sends_iff {next : statement.Reply → Task} :
    sends connection (.statement statement next) = true ↔
      ∃ cordon, statement = .send connection (.cordonChanged cordon) := by
  constructor
  · intro sending
    cases statement with
    | send channel message =>
        cases message with
        | cordonChanged cordon =>
            obtain rfl : channel = connection := beq_iff_eq.mp sending
            exact ⟨cordon, rfl⟩
        | jobRefused jobId reason => cases sending
    | _ => cases sending
  · rintro ⟨cordon, rfl⟩
    exact beq_self_eq_true connection

theorem setProgram_frame (process : Process) (program : Task) (party : Party) :
    (process.setProgram program party).deferral = process.deferral ∧
      (process.setProgram program party).lastSent = process.lastSent ∧
      (process.setProgram program party).connection = process.connection ∧
      (process.setProgram program party).connected = process.connected := by
  cases party <;> exact ⟨rfl, rfl, rfl, rfl⟩

/-- The control plane stays told: whoever moves the cordon is about to send
it, and what is sent is the cordon there is. -/
theorem Process.Told.goOn {why : Reason} {next : statement.Reply → Task} (told : process.Told)
    (connected : process.connected = true)
    (present : process.program party = some (.statement statement next))
    (notSpawn : statement ≠ .spawnDrain)
    (alone : (execute config process choice why statement).1.installers.length ≤ 1)
    (allows : process.Allows party statement)
    (tells : Moves statement (execute config process choice why statement).2 →
      sends process.connection (next (execute config process choice why statement).2) = true ∨
        process.PendsBeside party) :
    ((execute config process choice why statement).1.setProgram
      (next (execute config process choice why statement).2) party).Told := by
  obtain ⟨sameConnection, -, -⟩ := execute_frame config process choice why statement
  have others : ∀ other, other ≠ party → process.Pends other →
      ((execute config process choice why statement).1.setProgram
        (next (execute config process choice why statement).2) party).Pends other :=
    fun other different pends => pends_other alone different (pends_execute notSpawn pends)
  by_cases moves : Moves statement (execute config process choice why statement).2
  · obtain sending | beside := tells moves
    · refine .inr ⟨party, pends_setProgram (execute_program notSpawn present) ?_⟩
      rw [sameConnection]
      exact sending
    · exact Process.Told.besides beside others
  have silentUnless : (∀ cordon, statement ≠ .send process.connection (.cordonChanged cordon)) →
      ¬ process.Pends party := by
    rintro silent ⟨left, here, sending⟩
    obtain rfl := Option.some.inj (present.symm.trans here)
    obtain ⟨cordon, same⟩ := sends_iff.mp sending
    exact silent cordon same
  obtain ⟨keptDeferral, keptSent, -, -⟩ := setProgram_frame
    (execute config process choice why statement).1
    (next (execute config process choice why statement).2) party
  by_cases cordonSent : ∃ channel cordon, statement = .send channel (.cordonChanged cordon)
  · obtain ⟨channel, cordon, rfl⟩ := cordonSent
    by_cases here : channel = process.connection
    · obtain now | beside := allows connected here
      · left
        rw [keptDeferral, keptSent]
        simp only [Agent.execute, Process.sent, if_pos (And.intro connected here), now]
      · exact Process.Told.besides beside others
    · refine told.same ?_ ?_ (silentUnless fun other same => ?_) others
      · rw [keptDeferral]
        simp only [Agent.execute, Process.sent, if_neg (fun both => here (And.right both))]
      · rw [keptSent]
        simp only [Agent.execute, Process.sent, if_neg (fun both => here (And.right both))]
      · cases same
        exact here rfl
  · have notSent : ∀ channel cordon, statement ≠ .send channel (.cordonChanged cordon) :=
      fun channel cordon same => cordonSent ⟨channel, cordon, same⟩
    obtain ⟨sameDeferral, sameSent⟩ := execute_still moves notSent
    exact told.same (keptDeferral.trans sameDeferral) (keptSent.trans sameSent)
      (silentUnless fun cordon => notSent _ cordon) others

theorem Sound.start : Sound launched where
  steady := Steady.start
  installers _ member := nomatch member
  reader connected := nomatch connected
  drain connected := nomatch connected
  away _ := ⟨rfl, rfl⟩
  told connected := nomatch connected

/-- What an installer is when its task goes on: the only one. -/
theorem Sound.installer (sound : Sound process) {index : Nat}
    (present : process.program (.installer index) = some program) :
    index = 0 ∧ ∃ installer, process.installers = [installer] ∧ installer.program = program := by
  obtain ⟨installer, found, same⟩ := Option.map_eq_some_iff.mp present
  have alone := sound.steady.alone
  cases installers : process.installers with
  | nil =>
      rw [installers] at found
      cases found
  | cons first rest =>
      rw [installers] at found alone
      obtain rfl : rest = [] :=
        List.length_eq_zero_iff.mp (Nat.le_zero.mp (Nat.le_of_succ_le_succ alone))
      cases index with
      | zero =>
          obtain rfl := Option.some.inj found
          exact ⟨rfl, _, rfl, same⟩
      | succ index => cases found

/-- The start of a connection is not tidy: it spawns the drain task. -/
theorem not_tidy_connectOnce (connection channel : Nat) :
    ¬ Tidy connection (connectOnce channel) :=
  fun tidy => (((tidy.2 none).2).2 ()).2.1

/-- The installers of a task that spawns plainly stand where they should. -/
theorem Sound.spawned (sound : Sound process) {why : Reason} (plain : Plain statement) :
    ∀ installer ∈ (execute config process choice why statement).1.installers,
      Selfupdating installer.connection installer.program := by
  intro installer member
  obtain kept | ⟨reason, connection, deferredCtl, rfl, -, added⟩ :=
    execute_installers config process choice why statement
  · rw [kept] at member
    exact sound.installers installer member
  · rw [added] at member
    obtain old | new := List.mem_append.mp member
    · exact sound.installers installer old
    · obtain rfl := List.mem_singleton.mp new
      exact .installs deferredCtl plain

section Turns

variable {next : statement.Reply → Task}

/-- The read loop goes on with a message. -/
theorem Sound.reads (sound : Sound process) (running : process.exited = none)
    (connected : process.connected = true) (reader : process.reader = .statement statement next)
    (tidy : Tidy process.connection process.reader) (allows : process.Allows .reader statement) :
    Sound ((execute config process choice .asked statement).1.setProgram
      (next (execute config process choice .asked statement).2) .reader) := by
  have steady : Steady (execute config process choice .asked statement).1 :=
    sound.steady.execute running .reader allows
  obtain ⟨sameConnection, sameConnected, -⟩ :=
    execute_frame config process choice .asked statement
  rw [reader] at tidy
  have notSpawn : statement ≠ .spawnDrain := fun same => by
    subst same
    exact tidy.1
  have rest := tidy.2 (execute config process choice .asked statement).2
  refine ⟨steady.setProgram, sound.spawned tidy.1, fun _ => .inl ?_, fun _ => ?_, fun gone => ?_,
    fun _ => .inl ?_⟩
  · change Tidy (execute config process choice .asked statement).1.connection _
    rw [sameConnection]
    exact rest.2
  · change ∀ program ∈ (execute config process choice .asked statement).1.drain,
      Tidy (execute config process choice .asked statement).1.connection program
    rw [sameConnection, execute_drain notSpawn]
    exact sound.drain connected
  · change (execute config process choice .asked statement).1.connected = false at gone
    rw [sameConnected, connected] at gone
    cases gone
  · obtain told | connecting := sound.told connected
    · refine told.goOn connected (congrArg some reader) notSpawn steady.alone allows fun moves =>
        .inl (rest.1 moves)
    · rw [← reader, connecting] at tidy
      exact absurd tidy (not_tidy_connectOnce _ _)

/-- The drain task goes on with a round. -/
theorem Sound.drains (sound : Sound process) (running : process.exited = none)
    (connected : process.connected = true)
    (drain : process.drain = some (.statement statement next))
    (allows : process.Allows .drain statement) :
    Sound ((execute config process choice .asked statement).1.setProgram
      (next (execute config process choice .asked statement).2) .drain) := by
  have steady : Steady (execute config process choice .asked statement).1 :=
    sound.steady.execute running .drain allows
  obtain ⟨sameConnection, sameConnected, sameReader⟩ :=
    execute_frame config process choice .asked statement
  have tidy := sound.drain connected _ drain
  have notSpawn : statement ≠ .spawnDrain := fun same => by
    subst same
    exact tidy.1
  have rest := tidy.2 (execute config process choice .asked statement).2
  have reader : Tidy process.connection process.reader := by
    obtain tidy | ⟨none, -⟩ := sound.reader connected
    · exact tidy
    · rw [none] at drain
      cases drain
  refine ⟨steady.setProgram, sound.spawned tidy.1, fun _ => .inl ?_, fun _ => ?_, fun gone => ?_,
    fun _ => .inl ?_⟩
  · change Tidy (execute config process choice .asked statement).1.connection
      (execute config process choice .asked statement).1.reader
    rw [sameConnection, sameReader]
    exact reader
  · intro program member
    obtain rfl := Option.some.inj member
    change Tidy (execute config process choice .asked statement).1.connection _
    rw [sameConnection]
    exact rest.2
  · change (execute config process choice .asked statement).1.connected = false at gone
    rw [sameConnected, connected] at gone
    cases gone
  · obtain told | connecting := sound.told connected
    · refine told.goOn connected drain notSpawn steady.alone allows fun moves =>
        .inl (rest.1 moves)
    · rw [connecting] at reader
      exact absurd reader (not_tidy_connectOnce _ _)

/-- The start of a connection goes on. -/
theorem Sound.connects (sound : Sound process) (running : process.exited = none)
    (connected : process.connected = true) (reader : process.reader = .statement statement next)
    (undrained : process.drain = none) (connecting : Connecting process.connection process.reader)
    (allows : process.Allows .reader statement) :
    Sound ((execute config process choice .asked statement).1.setProgram
      (next (execute config process choice .asked statement).2) .reader) := by
  rw [reader] at connecting
  cases connecting with
  | asks =>
      refine ⟨sound.steady.setProgram, sound.installers, fun _ => .inr ⟨undrained, .tells _⟩,
        sound.drain, fun gone => ?_, fun _ => .inl (.inr ⟨.reader, ?_⟩)⟩
      · cases connected.symm.trans gone
      · exact pends_setProgram rfl (beq_self_eq_true process.connection)
  | tells cordon =>
      have told : process.Told :=
        .inr ⟨.reader, _, congrArg some reader, beq_self_eq_true process.connection⟩
      have steady : Steady (execute config process choice .asked
          (.send process.connection (.cordonChanged cordon))).1 :=
        sound.steady.execute running .reader allows
      have present : process.program .reader = some (.statement
          (.send process.connection (.cordonChanged cordon)) fun _ => request .spawnDrain) :=
        congrArg some reader
      have after := told.goOn connected present (by nofun) steady.alone allows
        fun moves => moves.elim
      have sent : (execute config process choice .asked
          (.send process.connection (.cordonChanged cordon))).1 =
            { process with lastSent := some cordon } :=
        if_pos ⟨connected, rfl⟩
      rw [sent] at steady after ⊢
      refine ⟨steady.setProgram, sound.installers, fun _ => .inr ⟨undrained, .spawns⟩,
        sound.drain, fun gone => ?_, fun _ => .inl after⟩
      cases connected.symm.trans gone
  | spawns =>
      refine ⟨{ sound.steady with }, sound.installers, fun _ => .inl (tidy_idle _),
        fun _ program member => ?_, fun gone => ?_, fun _ => .inl ?_⟩
      · obtain rfl := Option.some.inj member
        exact tidy_idle _
      · cases connected.symm.trans gone
      · obtain told | asking := sound.told connected
        · refine told.same rfl rfl (?silent : ¬ process.Pends .reader)
            fun other different pends => ?_
          · rintro ⟨left, here, sending⟩
            obtain rfl := Option.some.inj ((congrArg some reader).symm.trans here)
            cases sending
          · cases other with
            | reader => exact absurd rfl different
            | drain =>
                obtain ⟨left, here, -⟩ := pends
                cases undrained.symm.trans here
            | installer index => exact pends
        · cases reader.symm.trans asking

/-- What an installer may be at: it moves the cordon only where it lifts it,
and then reports on its own channel. -/
structure Installs (connection : Nat) (statement : Statement) (next : statement.Reply → Task) :
    Prop where
  notDrain : statement ≠ .spawnDrain
  notSpawn : ∀ reason flag deferredCtl, statement ≠ .spawnSelfupdate reason flag deferredCtl
  lifts : ∀ reply, Moves statement reply →
    statement = .installFailed ∧ sends connection (next reply) = true
  goesOn : ∀ reply, atRest (next reply) = false → Selfupdating connection (next reply)

theorem Selfupdating.installs_of
    (standing : Selfupdating connection program) (same : program = .statement statement next) :
    Installs connection statement next := by
  cases standing with
  | installs deferredCtl own =>
      obtain ⟨rest, whole, following⟩ := selfupdating_after connection deferredCtl own
      rw [whole] at same
      cases same
      exact ⟨nofun, nofun, fun _ moves => moves.elim, fun _ _ => following⟩
  | lifts =>
      cases same
      refine ⟨nofun, nofun, fun lifted moves => ⟨rfl, ?_⟩, fun lifted left => ?_⟩
      · obtain rfl : lifted = true := moves
        exact beq_self_eq_true connection
      · cases lifted with
        | true => exact .tells
        | false => exact .stores
  | tells =>
      cases same
      exact ⟨nofun, nofun, fun _ moves => moves.elim, fun _ _ => .stores⟩
  | stores =>
      cases same
      exact ⟨nofun, nofun, fun _ moves => moves.elim, fun _ left => by cases left⟩

/-- The installer goes on. -/
theorem Sound.installs (sound : Sound process) (running : process.exited = none) {index : Nat}
    (present : process.program (.installer index) = some (.statement statement next))
    (allows : process.Allows (.installer index) statement) :
    Sound ((execute config process choice (process.reason (.installer index))
        statement).1.setProgram
      (next (execute config process choice (process.reason (.installer index)) statement).2)
      (.installer index)) := by
  have steady : Steady (execute config process choice (process.reason (.installer index))
      statement).1 := sound.steady.execute running (.installer index) allows
  generalize process.reason (.installer index) = why at steady ⊢
  obtain ⟨rfl, installer, only, same⟩ := sound.installer present
  have standing := (sound.installers installer
    (by rw [only]; exact List.mem_singleton_self _)).installs_of same
  obtain ⟨sameConnection, sameConnected, sameReader⟩ :=
    execute_frame config process choice why statement
  have sameDrain : (execute config process choice why statement).1.drain = process.drain :=
    execute_drain standing.notDrain
  have sameInstallers :
      (execute config process choice why statement).1.installers = [installer] := by
    obtain kept | ⟨reason, flag, deferredCtl, spawned, -⟩ :=
      execute_installers config process choice why statement
    · exact kept.trans only
    · exact absurd spawned (standing.notSpawn reason flag deferredCtl)
  refine ⟨steady.setProgram, ?_, fun connected => ?_, fun connected => ?_, fun gone => ?_,
    fun connected => ?_⟩
  · intro left member
    cases rest : next (execute config process choice why statement).2 with
    | answer value =>
        simp only [Process.setProgram, rest, sameInstallers] at member
        cases member
    | statement following onward =>
        simp only [Process.setProgram, rest, sameInstallers, List.modify_zero_cons] at member
        obtain rfl := List.mem_singleton.mp member
        have goesOn := standing.goesOn (execute config process choice why statement).2
        rw [rest] at goesOn
        exact goesOn rfl
  · change (execute config process choice why statement).1.connected = true at connected
    change Tidy (execute config process choice why statement).1.connection
        (execute config process choice why statement).1.reader ∨
      (execute config process choice why statement).1.drain = none ∧
        Connecting (execute config process choice why statement).1.connection
          (execute config process choice why statement).1.reader
    rw [sameConnection, sameReader, sameDrain]
    exact sound.reader (sameConnected.symm.trans connected)
  · change (execute config process choice why statement).1.connected = true at connected
    change ∀ program ∈ (execute config process choice why statement).1.drain,
      Tidy (execute config process choice why statement).1.connection program
    rw [sameConnection, sameDrain]
    exact sound.drain (sameConnected.symm.trans connected)
  · change (execute config process choice why statement).1.connected = false at gone
    change atRest (execute config process choice why statement).1.reader = true ∧
      (execute config process choice why statement).1.drain = none
    rw [sameReader, sameDrain]
    exact sound.away (sameConnected.symm.trans gone)
  · change (execute config process choice why statement).1.connected = true at connected
    have wasConnected := sameConnected.symm.trans connected
    obtain told | asking := sound.told wasConnected
    · left
      refine told.goOn wasConnected present standing.notDrain steady.alone allows fun moves => ?_
      obtain ⟨rfl, sending⟩ := standing.lifts _ moves
      have held : process.deferral ≠ none := fun none => by
        simp only [Agent.execute, installFailed, none] at moves
        cases moves
      obtain own | beside := allows wasConnected held
      · left
        rw [← own installer (by rw [only]; exact List.mem_singleton_self _)]
        exact sending
      · exact .inr beside
    · right
      change (execute config process choice why statement).1.reader =
        connectOnce (execute config process choice why statement).1.connection
      rw [sameReader, sameConnection]
      exact asking

end Turns

/-- A task that goes on keeps the process sound where it finds what it has to
find. -/
theorem Sound.resume (sound : Sound process) (running : process.exited = none)
    (fit : Fit process (.goOn party choice) after)
    (resumed : process.resume config party choice = some after) : Sound after := by
  unfold Process.resume at resumed
  split at resumed
  case h_2 => cases resumed
  case h_1 statement next present =>
    obtain rfl := Option.some.inj resumed
    have allows : process.Allows party statement := by
      simp only [Fit, present] at fit
      exact fit
    cases party with
    | reader =>
        have reader : process.reader = .statement statement next := Option.some.inj present
        have connected : process.connected = true := by
          by_contra gone
          have rest := (sound.away (Bool.eq_false_iff.mpr gone)).1
          rw [reader] at rest
          cases rest
        obtain tidy | ⟨undrained, connecting⟩ := sound.reader connected
        · exact sound.reads running connected reader tidy allows
        · exact sound.connects running connected reader undrained connecting allows
    | drain =>
        have connected : process.connected = true := by
          by_contra gone
          have none := (sound.away (Bool.eq_false_iff.mpr gone)).2
          cases none.symm.trans present
        exact sound.drains running connected present allows
    | installer index => exact sound.installs running present allows

/-- A job that starts or ends its run leaves none where there was none. -/
theorem Sound.jobs (sound : Sound process) (jobs : List Admitted) (runningJobs : List String)
    (none : process.jobs = [] → jobs = []) :
    Sound { process with jobs := jobs, runningJobs := runningJobs } := by
  refine { sound with steady := { sound.steady with clear := ?_, harmless := ?_ } }
  · intro installer member unasked
    exact none (sound.steady.clear installer member unasked)
  · intro reason exited unasked
    exact none (sound.steady.harmless reason exited unasked)

/-- A task with nothing left is not about to send a cordon. -/
theorem silent_of_atRest (party : Party) (present : process.program party = some program)
    (rest : atRest program = true) : ¬ process.Pends party := by
  rintro ⟨left, here, sending⟩
  obtain rfl := Option.some.inj (present.symm.trans here)
  cases program with
  | answer value => cases sending
  | statement statement next => cases rest

/-- A message starts an arm of the read loop. -/
theorem Sound.receives (sound : Sound process) (reading : process.reading = true)
    (message : ControlToNode) :
    Sound { process with reader := handle config process.connection message } := by
  obtain ⟨connected, rest⟩ := Bool.and_eq_true_iff.mp reading
  refine { sound with
    steady := { sound.steady with }, reader := fun _ => ?_, away := fun gone => ?_,
    told := fun _ => .inl ?_ }
  · exact .inl (tidy_handle config process.connection message)
  · cases connected.symm.trans gone
  · obtain told | asking := sound.told connected
    · refine told.same rfl rfl (silent_of_atRest .reader rfl rest) ?_
      intro other different pends
      cases other with
      | reader => exact absurd rfl different
      | drain | installer => exact pends
    · rw [asking] at rest
      cases rest

/-- A tick starts a round of the drain task. -/
theorem Sound.ticks (sound : Sound process) (draining : process.draining = true) :
    Sound { process with drain := some (drainRound process.connection) } := by
  have drain : ∃ program, process.drain = some program ∧ atRest program = true := by
    unfold Process.draining at draining
    cases here : process.drain with
    | none =>
        rw [here] at draining
        cases draining
    | some program =>
        rw [here] at draining
        exact ⟨program, rfl, draining⟩
  obtain ⟨program, present, rest⟩ := drain
  refine { sound with
    steady := { sound.steady with }, reader := fun connected => ?_, drain := fun _ => ?_,
    away := fun gone => ?_, told := fun connected => ?_ }
  · obtain tidy | ⟨none, -⟩ := sound.reader connected
    · exact .inl tidy
    · cases none.symm.trans present
  · intro round member
    obtain rfl := Option.some.inj member
    exact tidy_drainRound process.connection
  · cases (sound.away gone).2.symm.trans present
  · obtain told | asking := sound.told connected
    · left
      refine told.same rfl rfl (silent_of_atRest .drain present rest) ?_
      intro other different pends
      cases other with
      | reader => exact pends
      | drain => exact absurd rfl different
      | installer index => exact pends
    · exact .inr asking

theorem Sound.step (sound : Sound process) {label : Step} (fit : Fit process label after)
    (taken : step config process label = some after) : Sound after := by
  unfold Agent.step at taken
  split at taken
  case isTrue => cases taken
  case isFalse alive =>
    have running : process.exited = none := by
      simpa only [Bool.not_eq_true, Option.isSome_eq_false_iff, Option.isNone_iff_eq_none]
        using alive
    cases label with
    | connect =>
        dsimp only at taken
        split at taken
        case isTrue => cases taken
        case isFalse gone =>
          obtain rfl := Option.some.inj taken
          exact { sound with
            steady := { sound.steady with }
            reader := fun _ => .inr ⟨rfl, .asks⟩
            drain := fun _ _ member => nomatch member
            away := fun lost => nomatch lost
            told := fun _ => .inr rfl }
    | disconnect =>
        dsimp only at taken
        split at taken
        case isFalse => cases taken
        case isTrue reading =>
          obtain rfl := Option.some.inj taken
          exact { sound with
            steady := { sound.steady with }
            reader := fun connected => nomatch connected
            drain := fun connected => nomatch connected
            away := fun _ => ⟨(Bool.and_eq_true_iff.mp reading).2, rfl⟩
            told := fun connected => nomatch connected }
    | receive message =>
        dsimp only at taken
        split at taken
        case isFalse => cases taken
        case isTrue reading =>
          obtain rfl := Option.some.inj taken
          exact sound.receives reading message
    | drainTick =>
        dsimp only at taken
        split at taken
        case isFalse => cases taken
        case isTrue draining =>
          obtain rfl := Option.some.inj taken
          exact sound.ticks draining
    | goOn party choice => exact sound.resume running fit taken
    | registers index =>
        simp only [Process.registers] at taken
        split at taken
        case h_2 => cases taken
        case h_1 job here =>
          obtain rfl := Option.some.inj taken
          refine sound.jobs _ _ fun none => ?_
          rw [none] at here
          cases here
    | ends index =>
        simp only [Process.ends] at taken
        split at taken
        case h_2 => cases taken
        case h_1 job here =>
          obtain rfl := Option.some.inj taken
          refine sound.jobs _ _ fun none => ?_
          rw [none] at here
          cases here

theorem proceeded_le (held : Option Deferral) : proceeded held ≤ 1 := by
  cases held with
  | none => exact Nat.zero_le 1
  | some deferral =>
      by_cases installing : deferral.installing = true
      · simp only [proceeded, if_pos installing, Nat.le_refl]
      · simp only [proceeded, if_neg installing, Nat.zero_le]

/-- What is sound is right. -/
theorem Sound.right (sound : Sound process) : Right process where
  harmless := sound.steady.harmless
  alone := sound.steady.alone
  once := by
    rw [sound.steady.once]
    exact proceeded_le process.deferral
  told quiescent := by
    obtain (said | ⟨party, pends⟩) | asking := sound.told quiescent.connected
    · exact said
    · obtain ⟨program, present, sending⟩ := pends
      cases party with
      | reader =>
          exact absurd ⟨program, present, sending⟩
            (silent_of_atRest .reader rfl quiescent.reader)
      | drain =>
          exact absurd ⟨program, present, sending⟩
            (silent_of_atRest .drain present (quiescent.drain program present))
      | installer index =>
          obtain ⟨installer, found, rfl⟩ := Option.map_eq_some_iff.mp present
          have installing := quiescent.installers installer (List.mem_of_getElem? found)
          cases left : installer.program with
          | answer value =>
              rw [left] at installing
              cases installing
          | statement statement next =>
              rw [left] at installing sending
              obtain ⟨cordon, rfl⟩ := sends_iff.mp sending
              cases installing
    · have rest := quiescent.reader
      rw [asking] at rest
      cases rest

end Preservation

/-- Every state of a run whose steps find what they have to find is right. -/
theorem update_right (config : NodeConfig) (labels : List Step) (final : Process)
    (ran : run (step config) launched labels = some final)
    (fit : Along (step config) Fit launched labels) : Right final :=
  (fit.run_invariant Sound (fun _ _ _ sound taken fits => sound.step fits taken)
    Sound.start ran).right

/-! ### Runs of a machine -/

/-- A supervised node that runs 0.6.6. -/
def machine : NodeConfig where
  nodeName := "atlas"
  service := some "systemd-user"
  supervisorDetected := false
  version := "0.6.6"
  drainDeadline := 21600

/-- A task goes on; an install that is tried fails. -/
def goes (party : Party) : Step := .goOn party ⟨0, false⟩

def connects : List Step := [.connect, goes .reader, goes .reader, goes .reader]

/-- The node takes a job, whose run has not started. -/
def takes (name : String) : List Step :=
  [.receive (.runLoopJob ⟨name, name⟩), goes .reader, goes .reader]

/-- The control plane expects 0.6.7 of a node with jobs in flight. -/
def defers : List Step :=
  [.receive (.registerAck (some "0.6.7")), goes .reader, goes .reader, goes .reader]

/-- A drain tick finds no job, and spawns the installer. -/
def proceeds : List Step :=
  [.drainTick, goes .drain, goes .drain, goes .drain, goes .drain]

/-- An update is held back until the one job has ended, and lands. -/
def heldBack : List Step :=
  connects ++ takes "a" ++ [.registers 0] ++ defers ++ [.ends 0] ++ proceeds ++
    [.goOn (.installer 0) ⟨0, true⟩]

theorem update_right_heldBack :
    ∃ final, run (step machine) launched heldBack = some final ∧
      final.exited = some .quiet ∧ Right final := by
  have ran : ((run (step machine) launched heldBack).map (·.exited)) = some (some .quiet) := by
    decide +kernel
  obtain ⟨final, reached, exited⟩ := Option.map_eq_some_iff.mp ran
  exact ⟨final, reached, exited,
    update_right machine heldBack final reached (by decide +kernel)⟩

/-- Nothing is in flight, so the update is installed at once and nothing
refuses the job that comes while it is. -/
def taken : List Step :=
  connects ++ [.receive (.registerAck (some "0.6.7")), goes .reader, goes .reader] ++
    takes "a" ++ [.registers 0, .goOn (.installer 0) ⟨0, true⟩]

/-- The flag of a connection goes with it, and the installer does not. -/
def twice : List Step :=
  connects ++ [.receive .updateAgent, goes .reader, .disconnect] ++
    connects ++ [.receive .updateAgent, goes .reader]

/-- A job that was taken before the cordon registers after the tick. -/
def again : List Step :=
  connects ++ takes "a" ++ [.registers 0] ++ takes "b" ++ defers ++ [.ends 0] ++ proceeds ++
    [.registers 0] ++ defers ++ [.ends 0, .drainTick, goes .drain, goes .drain]

/-- The install fails after a reconnect, and the lift is reported on the
connection that is gone. -/
def unheard : List Step :=
  connects ++ takes "a" ++ [.registers 0] ++ defers ++ [.ends 0] ++ proceeds ++ [.disconnect] ++
    connects ++
    [goes (.installer 0), goes (.installer 0), goes (.installer 0), goes (.installer 0)]

/-- An install nobody asked for has ended a job. -/
def harms (process : Process) : Bool :=
  decide (process.exited = some .differs) && !process.jobs.isEmpty

/-- The process is at rest on a connection, and the cordon it last sent is not
the one there is. -/
def misleads (process : Process) : Bool :=
  decide (process.exited = none) && process.connected && atRest process.reader &&
    process.draining && process.installers.isEmpty &&
    decide (process.lastSent ≠ some (current process.deferral))

theorem Right.not_harms {process : Process} (right : Right process) : harms process = false := by
  by_contra wrong
  obtain ⟨exited, jobs⟩ := Bool.and_eq_true_iff.mp (Bool.not_eq_false _ ▸ wrong)
  have none := right.harmless .differs (of_decide_eq_true exited) nofun
  rw [none] at jobs
  cases jobs

theorem Right.not_misleads {process : Process} (right : Right process) :
    misleads process = false := by
  by_contra wrong
  simp only [misleads, Bool.not_eq_false, Bool.and_eq_true, decide_eq_true_eq,
    List.isEmpty_iff] at wrong
  obtain ⟨⟨⟨⟨⟨running, connected⟩, reader⟩, draining⟩, installers⟩, differs⟩ := wrong
  refine differs (right.told ⟨running, connected, reader, fun program here => ?_,
    fun installer member => ?_⟩)
  · simp only [Process.draining, Option.mem_def.mp here] at draining
    exact draining
  · rw [installers] at member
    cases member

/-- None of the four holds of every run. -/
theorem update_wrong :
    (∃ labels final, run (step machine) launched labels = some final ∧ harms final = true ∧
      ¬ Right final) ∧
    (∃ labels final, run (step machine) launched labels = some final ∧
      1 < final.installers.length ∧ ¬ Right final) ∧
    (∃ labels final, run (step machine) launched labels = some final ∧
      1 < final.proceeds ∧ ¬ Right final) ∧
    (∃ labels final, run (step machine) launched labels = some final ∧
      misleads final = true ∧ ¬ Right final) := by
  refine ⟨?_, ?_, ?_, ?_⟩
  · have ran : ((run (step machine) launched taken).map harms) = some true := by decide +kernel
    obtain ⟨final, reached, wrong⟩ := Option.map_eq_some_iff.mp ran
    refine ⟨taken, final, reached, wrong, fun right => ?_⟩
    cases right.not_harms.symm.trans wrong
  · have ran : ((run (step machine) launched twice).map (·.installers.length)) = some 2 := by
      decide +kernel
    obtain ⟨final, reached, two⟩ := Option.map_eq_some_iff.mp ran
    refine ⟨twice, final, reached, by omega, fun right => ?_⟩
    have alone := right.alone
    omega
  · have ran : ((run (step machine) launched again).map (·.proceeds)) = some 2 := by
      decide +kernel
    obtain ⟨final, reached, two⟩ := Option.map_eq_some_iff.mp ran
    refine ⟨again, final, reached, by omega, fun right => ?_⟩
    have once := right.once
    omega
  · have ran : ((run (step machine) launched unheard).map misleads) = some true := by
      decide +kernel
    obtain ⟨final, reached, wrong⟩ := Option.map_eq_some_iff.mp ran
    refine ⟨unheard, final, reached, wrong, fun right => ?_⟩
    cases right.not_misleads.symm.trans wrong

end NookOs.Agent
