/-
Module: NookOs.Ws.Sessions
Purpose: One session's row under a user's Stop, viewers coming and going, the reports of
  nodes, and the two halves of a node's Register.
Trusted boundary: the `uuid` crate's text of a session id, as a parameter
Main exports: Session, SessionStep, Sessions.step, Timely, endings_last
-/
import NookOs.Lib.Run
import NookOs.Tasks.Task
import Mathlib.Data.List.Basic

namespace NookOs.Ws

open Lib Tasks

inductive SessionInterface where
  | terminal
  | chat
deriving DecidableEq

/-- The columns of a session's row that the steps read. -/
structure Session (SessionId NodeId : Type) where
  id : SessionId
  nodeId : NodeId
  interface : SessionInterface
  status : SessionStatus
  tmuxSession : Option (List Char)
deriving DecidableEq

/-- `LIVE`. -/
def isLive : SessionStatus → Bool
  | .starting | .running | .detached => true
  | .exited | .error | .stopped => false

/-- What the `uuid` crate makes of a session id, and of a text. -/
structure UuidText (SessionId : Type) where
  simple : SessionId → List Char
  parseStr : List Char → Option SessionId

/-- `TMUX_SESSION_PREFIX`. -/
def tmuxSessionPrefix : List Char := ['n', 'o', 'o', 'k', '_']

/-- What a node is told about a session. -/
inductive SessionOrder (SessionId : Type) where
  | startSession (session : SessionId) (attempt : UInt8)
  | killSession (session : SessionId)
deriving DecidableEq

/-- A `Register` between its statements: the names it came with and, once they are
read, the sessions it believes live. -/
structure Sweep (SessionId NodeId : Type) where
  node : NodeId
  names : List (List Char)
  believed : Option (List SessionId)
deriving DecidableEq

/-- A `PortsUnavailable` that has released the old leases and waits for new ones. -/
structure PortRetry (NodeId : Type) where
  node : NodeId
  attempt : UInt8
deriving DecidableEq

/-- The row, the handlers between two of their statements, and what nodes were told. -/
structure Sessions (SessionId NodeId : Type) where
  row : Session SessionId NodeId
  leasing : List (PortRetry NodeId)
  sweeping : List (Sweep SessionId NodeId)
  sent : List (NodeId × SessionOrder SessionId)
deriving DecidableEq

/-- A step on the row.  `others` are the other sessions that the database has live on
the node, and `found` says whether the allocator found ports. -/
inductive SessionStep (SessionId NodeId : Type) where
  | stop
  | viewerPresence (watched : Bool)
  | sessionStarted (node : NodeId)
  | sessionExited (node : NodeId)
  | sessionFailed (node : NodeId)
  | portsUnavailable (node : NodeId) (attempt : UInt8)
  | leased (retry : PortRetry NodeId) (found : Bool)
  | register (node : NodeId) (names : List (List Char))
  | believe (node : NodeId) (names : List (List Char)) (others : List SessionId)
  | sweep (node : NodeId) (names : List (List Char)) (believed : List SessionId)
deriving DecidableEq

section Statements

variable {SessionId NodeId : Type} [DecidableEq SessionId] [DecidableEq NodeId]

namespace Session

/-- The row is live on the node. -/
def LiveOn (node : NodeId) (session : Session SessionId NodeId) : Prop :=
  session.nodeId = node ∧ isLive session.status = true

instance (node : NodeId) (session : Session SessionId NodeId) :
    Decidable (session.LiveOn node) :=
  inferInstanceAs (Decidable (_ ∧ _))

def markStopped (session : Session SessionId NodeId) : Session SessionId NodeId :=
  if isLive session.status then { session with status := .stopped } else session

def markViewerPresence (watched : Bool) (session : Session SessionId NodeId) :
    Session SessionId NodeId :=
  if watched then
    if session.status = .detached then { session with status := .running } else session
  else
    if session.status = .running then { session with status := .detached } else session

/-- The statement has no guard on the status. -/
def markSessionRunning (node : NodeId) (tmuxSession : Option (List Char))
    (session : Session SessionId NodeId) : Session SessionId NodeId :=
  if session.nodeId = node then
    { session with status := .running, tmuxSession := tmuxSession }
  else session

def markSessionExited (node : NodeId) (session : Session SessionId NodeId) :
    Session SessionId NodeId :=
  if session.LiveOn node then { session with status := .exited } else session

/-- The statement has no guard on the status. -/
def markSessionFailed (node : NodeId) (session : Session SessionId NodeId) :
    Session SessionId NodeId :=
  if session.nodeId = node then { session with status := .error } else session

/-- The WHERE clause's `tmux_session IS NULL OR tmux_session != ALL(names)`. -/
def missingFrom (names : List (List Char)) (session : Session SessionId NodeId) : Bool :=
  match session.tmuxSession with
  | none => true
  | some name => !names.contains name

def expireMissingFromTmux (node : NodeId) (names : List (List Char))
    (session : Session SessionId NodeId) : Session SessionId NodeId :=
  if session.LiveOn node ∧ session.missingFrom names then
    { session with status := .exited }
  else session

end Session

/-- The name the node gives a session's tmux. -/
def tmuxName (uuid : UuidText SessionId) (session : SessionId) : List Char :=
  tmuxSessionPrefix ++ uuid.simple session

/-- The `tmux_session` of the node's SessionStarted: empty for a chat. -/
def reportedTmux (uuid : UuidText SessionId) (session : Session SessionId NodeId) :
    List Char :=
  match session.interface with
  | .terminal => tmuxName uuid session.id
  | .chat => []

/-- The sessions of the names that no believed session accounts for, in order. -/
def orphaned (uuid : UuidText SessionId) (names : List (List Char))
    (believed : List SessionId) : List SessionId :=
  names.filterMap fun name => do
    let rest ← tmuxSessionPrefix.isPrefixOf? name
    let session ← uuid.parseStr rest
    if believed.contains session then none else some session

/-- The ids that `live_session_ids` answers. -/
def liveSessionIds (node : NodeId) (others : List SessionId)
    (session : Session SessionId NodeId) : List SessionId :=
  if session.LiveOn node then session.id :: others else others

/-- `MAX_ATTEMPTS`. -/
def maxAttempts : UInt8 := 3

namespace Sessions

/-- The row as `create` inserts it. -/
def created (id : SessionId) (nodeId : NodeId) (interface : SessionInterface) :
    Sessions SessionId NodeId where
  row :=
    { id := id
      nodeId := nodeId
      interface := interface
      status := .starting
      tmuxSession := none }
  leasing := []
  sweeping := []
  sent := []

def setRow (write : Session SessionId NodeId → Session SessionId NodeId)
    (system : Sessions SessionId NodeId) : Sessions SessionId NodeId :=
  { system with row := write system.row }

def send (node : NodeId) (orders : List (SessionOrder SessionId))
    (system : Sessions SessionId NodeId) : Sessions SessionId NodeId :=
  { system with sent := system.sent ++ orders.map fun order => (node, order) }

def step (uuid : UuidText SessionId) (system : Sessions SessionId NodeId) :
    SessionStep SessionId NodeId → Option (Sessions SessionId NodeId)
  | .stop =>
      if isLive system.row.status then
        some ((system.setRow Session.markStopped).send system.row.nodeId
          [.killSession system.row.id])
      else some system
  | .viewerPresence watched =>
      some (system.setRow (Session.markViewerPresence watched))
  | .sessionStarted node =>
      -- an empty name is a chat saying that it has none
      let name := reportedTmux uuid system.row
      some (system.setRow
        (Session.markSessionRunning node (if name.isEmpty then none else some name)))
  | .sessionExited node => some (system.setRow (Session.markSessionExited node))
  | .sessionFailed node => some (system.setRow (Session.markSessionFailed node))
  | .portsUnavailable node attempt =>
      -- the row is read for its tenant and runtime; its status is not looked at
      if attempt + 1 ≥ maxAttempts then
        some (system.setRow (Session.markSessionFailed node))
      else some { system with leasing := system.leasing ++ [⟨node, attempt⟩] }
  | .leased retry found =>
      if retry ∈ system.leasing then
        let settled := { system with leasing := system.leasing.erase retry }
        if found then
          some (settled.send retry.node [.startSession system.row.id (retry.attempt + 1)])
        else some (settled.setRow (Session.markSessionFailed retry.node))
      else none
  | .register node names =>
      let expired := system.setRow (Session.expireMissingFromTmux node names)
      some { expired with sweeping := expired.sweeping ++ [⟨node, names, none⟩] }
  | .believe node names others =>
      if ⟨node, names, none⟩ ∈ system.sweeping ∧ system.row.id ∉ others then
        let believed := liveSessionIds node others system.row
        some { system with
          sweeping := system.sweeping.erase ⟨node, names, none⟩ ++
            [⟨node, names, some believed⟩] }
      else none
  | .sweep node names believed =>
      if ⟨node, names, some believed⟩ ∈ system.sweeping then
        let swept :=
          { system with sweeping := system.sweeping.erase ⟨node, names, some believed⟩ }
        some (swept.send node ((orphaned uuid names believed).map .killSession))
      else none

end Sessions

/-! ## What a step may do to the row -/

/-- The node reports the tmux of a terminal. -/
def Session.Reported (uuid : UuidText SessionId) (names : List (List Char))
    (session : Session SessionId NodeId) : Prop :=
  session.interface = .terminal ∧ tmuxName uuid session.id ∈ names

instance (uuid : UuidText SessionId) (names : List (List Char))
    (session : Session SessionId NodeId) : Decidable (session.Reported uuid names) :=
  inferInstanceAs (Decidable (_ ∧ _))

/-- What a node's list of names should make of the row: it ends a live session of the
node that has no tmux, and leaves every other row alone. -/
def Reconciled (uuid : UuidText SessionId) (node : NodeId) (names : List (List Char))
    (before after : Session SessionId NodeId) : Prop :=
  if before.LiveOn node ∧ ¬ before.Reported uuid names then after.status = .exited
  else after = before

instance (uuid : UuidText SessionId) (node : NodeId) (names : List (List Char))
    (before after : Session SessionId NodeId) :
    Decidable (Reconciled uuid node names before after) :=
  inferInstanceAs (Decidable (ite _ _ _))

def SessionOrder.starts : SessionOrder SessionId → Bool
  | .startSession _ _ => true
  | .killSession _ => false

namespace Sessions

/-- What the step has sent. -/
def newOrders (before after : Sessions SessionId NodeId) :
    List (NodeId × SessionOrder SessionId) :=
  after.sent.drop before.sent.length

/-- What a Register's statements may do, one at a time. -/
def Spares (uuid : UuidText SessionId) (before after : Sessions SessionId NodeId) :
    SessionStep SessionId NodeId → Prop
  | .register node names => Reconciled uuid node names before.row after.row
  | .believe _ _ _ => after.row = before.row
  | .sweep node _ _ =>
      after.row = before.row ∧
        ((node, .killSession before.row.id) ∈ before.newOrders after →
          ¬ before.row.LiveOn node)
  | _ => True

instance (uuid : UuidText SessionId) (before after : Sessions SessionId NodeId)
    (label : SessionStep SessionId NodeId) : Decidable (Spares uuid before after label) :=
  match label with
  | .register node names =>
      inferInstanceAs (Decidable (Reconciled uuid node names before.row after.row))
  | .believe _ _ _ => inferInstanceAs (Decidable (after.row = before.row))
  | .sweep _ _ _ => inferInstanceAs (Decidable (_ ∧ (_ → ¬ _)))
  | .stop | .viewerPresence _ | .sessionStarted _ | .sessionExited _ | .sessionFailed _
  | .portsUnavailable _ _ | .leased _ _ => isTrue trivial

/-- An ended session stays ended and is not started, and a Register ends or kills no
session that its node has. -/
def Keeps (uuid : UuidText SessionId) (before : Sessions SessionId NodeId)
    (label : SessionStep SessionId NodeId) (after : Sessions SessionId NodeId) : Prop :=
  (isLive before.row.status = false → isLive after.row.status = false) ∧
    (isLive before.row.status = false →
      ∀ sent ∈ before.newOrders after, sent.2.starts = false) ∧
    Spares uuid before after label

instance (uuid : UuidText SessionId) (before : Sessions SessionId NodeId)
    (label : SessionStep SessionId NodeId) (after : Sessions SessionId NodeId) :
    Decidable (Keeps uuid before label after) :=
  inferInstanceAs (Decidable (_ ∧ _ ∧ _))

/-! ## When reports come in time -/

/-- The step is one that ends the row, where it is live. -/
def Ends (uuid : UuidText SessionId) (before : Sessions SessionId NodeId) :
    SessionStep SessionId NodeId → Prop
  | .stop => True
  | .sessionExited node | .sessionFailed node => before.row.nodeId = node
  | .portsUnavailable node attempt =>
      attempt + 1 ≥ maxAttempts ∧ before.row.nodeId = node
  | .leased retry found => found = false ∧ before.row.nodeId = retry.node
  | .register node names =>
      before.row.nodeId = node ∧ ¬ before.row.Reported uuid names
  | .viewerPresence _ | .sessionStarted _ | .believe _ _ _ | .sweep _ _ _ => False

instance (uuid : UuidText SessionId) (before : Sessions SessionId NodeId)
    (label : SessionStep SessionId NodeId) : Decidable (Ends uuid before label) :=
  match label with
  | .stop => isTrue trivial
  | .sessionExited _ | .sessionFailed _ => inferInstanceAs (Decidable (_ = _))
  | .portsUnavailable _ _ | .leased _ _ | .register _ _ =>
      inferInstanceAs (Decidable (_ ∧ _))
  | .viewerPresence _ | .sessionStarted _ | .believe _ _ _ | .sweep _ _ _ =>
      isFalse fun impossible => impossible

/-- The port retries in flight, apart from the one that the step settles. -/
def otherRetries (before : Sessions SessionId NodeId) :
    SessionStep SessionId NodeId → List (PortRetry NodeId)
  | .leased retry _ => before.leasing.erase retry
  | _ => before.leasing

/-- The report finds the row as it was when the node wrote it: live, and with the name
of a tmux that the node now lists. -/
def UpToDate (uuid : UuidText SessionId) (before : Sessions SessionId NodeId) :
    SessionStep SessionId NodeId → Prop
  | .sessionStarted node => before.row.nodeId = node → isLive before.row.status = true
  | .portsUnavailable _ attempt =>
      attempt + 1 < maxAttempts → isLive before.row.status = true
  | .register node names =>
      before.row.LiveOn node → before.row.Reported uuid names →
        before.row.tmuxSession ≠ none
  | _ => True

instance (uuid : UuidText SessionId) (before : Sessions SessionId NodeId)
    (label : SessionStep SessionId NodeId) : Decidable (UpToDate uuid before label) :=
  match label with
  | .sessionStarted _ | .portsUnavailable _ _ => inferInstanceAs (Decidable (_ → _))
  | .register _ _ => inferInstanceAs (Decidable (_ → _ → _ ≠ _))
  | .stop | .viewerPresence _ | .sessionExited _ | .sessionFailed _ | .leased _ _
  | .believe _ _ _ | .sweep _ _ _ => isTrue trivial

/-- Reports are up to date, and nothing ends the session between the release of its
ports and the end of the retry. -/
def Timely (uuid : UuidText SessionId) (before : Sessions SessionId NodeId)
    (label : SessionStep SessionId NodeId) (_after : Sessions SessionId NodeId) : Prop :=
  before.UpToDate uuid label ∧ (before.Ends uuid label → before.otherRetries label = [])

instance (uuid : UuidText SessionId) (before : Sessions SessionId NodeId)
    (label : SessionStep SessionId NodeId) (after : Sessions SessionId NodeId) :
    Decidable (Timely uuid before label after) :=
  inferInstanceAs (Decidable (_ ∧ (_ → _)))

end Sessions

end Statements

/-! ## What is true in every run -/

namespace Sessions

section Preservation

variable {SessionId NodeId : Type}

/-- The stored name is the terminal's own, a port retry waits for a live session only,
and a Register whose beliefs leave the session out is not at a node where it lives. -/
structure Sound (uuid : UuidText SessionId) (system : Sessions SessionId NodeId) :
    Prop where
  named : ∀ name ∈ system.row.tmuxSession,
    system.row.interface = .terminal ∧ name = tmuxName uuid system.row.id
  retried : system.leasing ≠ [] → isLive system.row.status = true
  judged : ∀ sweep ∈ system.sweeping, ∀ believed ∈ sweep.believed,
    system.row.id ∉ believed → ¬ system.row.LiveOn sweep.node

variable {uuid : UuidText SessionId} {before after system : Sessions SessionId NodeId}
  {label : SessionStep SessionId NodeId}

theorem created_sound (id : SessionId) (nodeId : NodeId)
    (interface : SessionInterface) : (created id nodeId interface).Sound uuid where
  named := by intro name stored; cases stored
  retried := by intro waiting; exact absurd rfl waiting
  judged := by intro sweep member; cases member

/-- A write of a status alone, that brings nothing back to life and ends nothing a port
retry waits for. -/
theorem Sound.setStatus (sound : system.Sound uuid) (status : SessionStatus)
    (alive : isLive status = true → isLive system.row.status = true)
    (free : isLive status = false → system.leasing = []) :
    ({ system with row := { system.row with status := status } } :
      Sessions SessionId NodeId).Sound uuid where
  named := sound.named
  retried := by
    intro waiting
    cases live : isLive status with
    | true => rfl
    | false => exact absurd (free live) waiting
  judged := by
    intro sweep member believed read absent lives
    exact sound.judged sweep member believed read absent ⟨lives.1, alive lives.2⟩

/-- Nothing in the invariant speaks of what was sent. -/
theorem Sound.send (sound : system.Sound uuid) (node : NodeId)
    (orders : List (SessionOrder SessionId)) : (system.send node orders).Sound uuid where
  named := sound.named
  retried := sound.retried
  judged := sound.judged

theorem Sound.addSweep (sound : system.Sound uuid) (sweep : Sweep SessionId NodeId)
    (judged : ∀ believed ∈ sweep.believed, system.row.id ∉ believed →
      ¬ system.row.LiveOn sweep.node) :
    ({ system with sweeping := system.sweeping ++ [sweep] } :
      Sessions SessionId NodeId).Sound uuid where
  named := sound.named
  retried := sound.retried
  judged := by
    intro other member
    rcases List.mem_append.mp member with inList | isNew
    · exact sound.judged other inList
    · cases List.mem_singleton.mp isNew
      exact judged

theorem Sound.markViewerPresence (sound : system.Sound uuid) (watched : Bool) :
    (system.setRow (Session.markViewerPresence watched)).Sound uuid := by
  unfold setRow Session.markViewerPresence
  split
  · split
    · next detached =>
      apply sound.setStatus .running
      · intro _
        rw [detached]
        rfl
      · intro impossible
        cases impossible
    · exact sound
  · split
    · next running =>
      apply sound.setStatus .detached
      · intro _
        rw [running]
        rfl
      · intro impossible
        cases impossible
    · exact sound

theorem reportedTmux_stored (session : Session SessionId NodeId) (name : List Char)
    (stored : name ∈ (if (reportedTmux uuid session).isEmpty then none
      else some (reportedTmux uuid session))) :
    session.interface = .terminal ∧ name = tmuxName uuid session.id := by
  cases interface : session.interface with
  | terminal =>
      simp only [reportedTmux, interface] at stored
      constructor
      · rfl
      · split at stored
        · cases stored
        · exact (Option.mem_some.mp stored).symm
  | chat =>
      simp only [reportedTmux, interface, List.isEmpty_nil, ↓reduceIte] at stored
      cases stored

/-- A live session that is missing from the names is one the node does not report, when
a reported terminal has its name stored. -/
theorem not_reported_of_missing (sound : system.Sound uuid) {names : List (List Char)}
    (recorded : system.row.Reported uuid names → system.row.tmuxSession ≠ none)
    (missing : system.row.missingFrom names = true) :
    ¬ system.row.Reported uuid names := by
  intro reported
  cases stored : system.row.tmuxSession with
  | none => exact recorded reported stored
  | some name =>
      have own := (sound.named name (by rw [stored]; rfl)).2
      simp only [Session.missingFrom, stored, own, Bool.not_eq_eq_eq_not, Bool.not_true,
        List.contains_eq_mem, decide_eq_false_iff_not] at missing
      exact missing reported.2

/-- A session that the node does not report has no name, or one that is missing. -/
theorem missing_of_not_reported (sound : system.Sound uuid) {names : List (List Char)}
    (unreported : ¬ system.row.Reported uuid names) :
    system.row.missingFrom names = true := by
  cases stored : system.row.tmuxSession with
  | none => simp only [Session.missingFrom, stored]
  | some name =>
      obtain ⟨terminal, own⟩ := sound.named name (by rw [stored]; rfl)
      simp only [Session.missingFrom, stored, own, Bool.not_eq_eq_eq_not, Bool.not_true,
        List.contains_eq_mem, decide_eq_false_iff_not]
      intro listed
      exact unreported ⟨terminal, listed⟩

variable [DecidableEq NodeId]

theorem Sound.settle (sound : system.Sound uuid) (retry : PortRetry NodeId) :
    ({ system with leasing := system.leasing.erase retry } :
      Sessions SessionId NodeId).Sound uuid where
  named := sound.named
  retried := by
    intro waiting
    apply sound.retried
    intro none
    rw [none] at waiting
    exact waiting rfl
  judged := sound.judged

theorem Sound.markSessionFailed (sound : system.Sound uuid) (node : NodeId)
    (free : system.row.nodeId = node → system.leasing = []) :
    (system.setRow (Session.markSessionFailed node)).Sound uuid := by
  unfold setRow Session.markSessionFailed
  split
  · next onNode =>
    apply sound.setStatus .error
    · intro impossible
      cases impossible
    · intro _
      exact free onNode
  · exact sound

theorem Sound.markSessionExited (sound : system.Sound uuid) (node : NodeId)
    (free : system.row.nodeId = node → system.leasing = []) :
    (system.setRow (Session.markSessionExited node)).Sound uuid := by
  unfold setRow Session.markSessionExited
  split
  · next lives =>
    apply sound.setStatus .exited
    · intro impossible
      cases impossible
    · intro _
      exact free lives.1
  · exact sound

theorem Sound.expireMissingFromTmux (sound : system.Sound uuid) (node : NodeId)
    (names : List (List Char))
    (free : system.row.LiveOn node → system.row.missingFrom names = true → system.leasing = []) :
    (system.setRow (Session.expireMissingFromTmux node names)).Sound uuid := by
  unfold setRow Session.expireMissingFromTmux
  split
  · next expired =>
    apply sound.setStatus .exited
    · intro impossible
      cases impossible
    · intro _
      exact free expired.1 expired.2
  · exact sound

/-- A session that lives and says so stays as sound as it was. -/
theorem Sound.markSessionRunning (sound : system.Sound uuid) (node : NodeId)
    (live : system.row.nodeId = node → isLive system.row.status = true) :
    (system.setRow (Session.markSessionRunning node
      (if (reportedTmux uuid system.row).isEmpty then none
        else some (reportedTmux uuid system.row)))).Sound uuid := by
  unfold setRow Session.markSessionRunning
  split
  · next onNode =>
    exact
      { named := by
          intro name stored
          exact reportedTmux_stored system.row name stored
        retried := by
          intro _
          rfl
        judged := by
          intro sweep member believed read absent lives
          exact sound.judged sweep member believed read absent
            ⟨lives.1, live onNode⟩ }
  · exact sound

variable [DecidableEq SessionId]

theorem Sound.dropSweep (sound : system.Sound uuid) (sweep : Sweep SessionId NodeId) :
    ({ system with sweeping := system.sweeping.erase sweep } :
      Sessions SessionId NodeId).Sound uuid where
  named := sound.named
  retried := sound.retried
  judged := by
    intro other member
    exact sound.judged other (List.mem_of_mem_erase member)

variable {session : Session SessionId NodeId}

omit [DecidableEq SessionId] in
/-- What `live_session_ids` leaves out does not live there. -/
theorem not_liveOn_of_not_believed {node : NodeId} {others : List SessionId}
    (absent : session.id ∉ liveSessionIds node others session) :
    ¬ session.LiveOn node := by
  intro lives
  rw [liveSessionIds, if_pos lives] at absent
  exact absent (List.mem_cons_self ..)

theorem step_sound (sound : before.Sound uuid) (taken : step uuid before label = some after)
    (timely : before.Timely uuid label after) : after.Sound uuid := by
  obtain ⟨upToDate, free⟩ := timely
  cases label with
  | stop =>
      simp only [step] at taken
      split at taken
      · next lives =>
        cases taken
        apply Sound.send
        unfold setRow Session.markStopped
        rw [if_pos lives]
        apply sound.setStatus .stopped
        · intro impossible
          cases impossible
        · intro _
          exact free trivial
      · cases taken
        exact sound
  | viewerPresence watched =>
      cases taken
      exact sound.markViewerPresence watched
  | sessionStarted node =>
      cases taken
      exact sound.markSessionRunning node upToDate
  | sessionExited node =>
      cases taken
      exact sound.markSessionExited node free
  | sessionFailed node =>
      cases taken
      exact sound.markSessionFailed node free
  | portsUnavailable node attempt =>
      simp only [step] at taken
      split at taken
      · next exhausted =>
        cases taken
        exact sound.markSessionFailed node fun onNode => free ⟨exhausted, onNode⟩
      · next remaining =>
        cases taken
        exact
          { named := sound.named
            retried := fun _ => upToDate (UInt8.not_le.mp remaining)
            judged := sound.judged }
  | leased retry found =>
      simp only [step] at taken
      split at taken
      · split at taken
        · cases taken
          exact (sound.settle retry).send _ _
        · next notFound =>
          cases taken
          apply (sound.settle retry).markSessionFailed
          intro onNode
          exact free ⟨Bool.eq_false_iff.mpr notFound, onNode⟩
      · cases taken
  | register node names =>
      cases taken
      apply Sound.addSweep
      · apply sound.expireMissingFromTmux
        intro lives missing
        exact free ⟨lives.1, not_reported_of_missing sound (upToDate lives) missing⟩
      · intro believed read
        cases read
  | believe node names others =>
      simp only [step] at taken
      split at taken
      · cases taken
        apply (sound.dropSweep _).addSweep
        intro believed read absent
        cases read
        exact not_liveOn_of_not_believed absent
      · cases taken
  | sweep node names believed =>
      simp only [step] at taken
      split at taken
      · cases taken
        exact (sound.dropSweep _).send _ _
      · cases taken

/-! ## An ended session stays ended -/

omit [DecidableEq SessionId] in
theorem markSessionFailed_ended (node : NodeId) (ended : isLive session.status = false) :
    isLive (session.markSessionFailed node).status = false := by
  unfold Session.markSessionFailed
  split
  · rfl
  · exact ended

omit [DecidableEq SessionId] in
theorem markSessionExited_ended (node : NodeId) (ended : isLive session.status = false) :
    isLive (session.markSessionExited node).status = false := by
  unfold Session.markSessionExited
  split
  · rfl
  · exact ended

omit [DecidableEq SessionId] in
theorem expireMissingFromTmux_ended (node : NodeId) (names : List (List Char))
    (ended : isLive session.status = false) :
    isLive (session.expireMissingFromTmux node names).status = false := by
  unfold Session.expireMissingFromTmux
  split
  · rfl
  · exact ended

omit [DecidableEq NodeId] [DecidableEq SessionId] in
theorem nothing_sent (same : after.sent = before.sent) :
    ∀ sent ∈ before.newOrders after, sent.2.starts = false := by
  intro sent member
  rw [newOrders, same, List.drop_length] at member
  cases member

/-- A timely step does not bring an ended session back. -/
theorem step_stays_ended (taken : step uuid before label = some after)
    (upToDate : before.UpToDate uuid label) (ended : isLive before.row.status = false) :
    isLive after.row.status = false := by
  cases label with
  | stop =>
      simp only [step, ended, Bool.false_eq_true, ↓reduceIte] at taken
      cases taken
      exact ended
  | viewerPresence watched =>
      cases taken
      unfold setRow Session.markViewerPresence
      cases watched with
      | true =>
          have notDetached : before.row.status ≠ .detached := by
            intro detached
            rw [detached] at ended
            cases ended
          simp only [↓reduceIte, if_neg notDetached]
          exact ended
      | false =>
          have notRunning : before.row.status ≠ .running := by
            intro running
            rw [running] at ended
            cases ended
          simp only [Bool.false_eq_true, ↓reduceIte, if_neg notRunning]
          exact ended
  | sessionStarted node =>
      cases taken
      have elsewhere : before.row.nodeId ≠ node := by
        intro onNode
        rw [upToDate onNode] at ended
        cases ended
      unfold setRow Session.markSessionRunning
      dsimp only
      rw [if_neg elsewhere]
      exact ended
  | sessionExited node =>
      cases taken
      exact markSessionExited_ended node ended
  | sessionFailed node =>
      cases taken
      exact markSessionFailed_ended node ended
  | portsUnavailable node attempt =>
      simp only [step] at taken
      split at taken
      · cases taken
        exact markSessionFailed_ended node ended
      · cases taken
        exact ended
  | leased retry found =>
      simp only [step] at taken
      split at taken
      · split at taken
        · cases taken
          exact ended
        · cases taken
          exact markSessionFailed_ended retry.node ended
      · cases taken
  | register node names =>
      cases taken
      exact expireMissingFromTmux_ended node names ended
  | believe | sweep =>
      simp only [step] at taken
      split at taken
      · cases taken
        exact ended
      · cases taken

/-- Nothing is started for a session that no port retry waits for. -/
theorem step_starts_nothing (taken : step uuid before label = some after)
    (none : before.leasing = []) :
    ∀ sent ∈ before.newOrders after, sent.2.starts = false := by
  cases label with
  | stop =>
      simp only [step] at taken
      split at taken
      · cases taken
        intro sent member
        simp only [newOrders, send, setRow, List.drop_left, List.map_cons, List.map_nil,
          List.mem_singleton] at member
        rw [member]
        rfl
      · cases taken
        exact nothing_sent rfl
  | viewerPresence | sessionStarted | sessionExited | sessionFailed =>
      cases taken
      exact nothing_sent rfl
  | portsUnavailable node attempt =>
      simp only [step] at taken
      split at taken
      · cases taken
        exact nothing_sent rfl
      · cases taken
        exact nothing_sent rfl
  | leased retry found =>
      simp only [step, none, List.not_mem_nil, ↓reduceIte] at taken
      cases taken
  | register node names =>
      cases taken
      exact nothing_sent rfl
  | believe node names others =>
      simp only [step] at taken
      split at taken
      · cases taken
        exact nothing_sent rfl
      · cases taken
  | sweep node names believed =>
      simp only [step] at taken
      split at taken
      · cases taken
        intro sent member
        simp only [newOrders, send, List.drop_left] at member
        obtain ⟨order, kill, same⟩ := List.mem_map.mp member
        obtain ⟨session, orphan, same'⟩ := List.mem_map.mp kill
        rw [← same, ← same']
        rfl
      · cases taken

omit [DecidableEq SessionId] in
/-- The UPDATE of a Register ends the live sessions of the node that it does not
report, and no others. -/
theorem expireMissingFromTmux_reconciled (sound : system.Sound uuid) (node : NodeId)
    (names : List (List Char))
    (recorded : system.row.LiveOn node → system.row.Reported uuid names →
      system.row.tmuxSession ≠ none) :
    Reconciled uuid node names system.row
      (system.row.expireMissingFromTmux node names) := by
  unfold Reconciled Session.expireMissingFromTmux
  by_cases lives : system.row.LiveOn node
  · by_cases reported : system.row.Reported uuid names
    · have listed : ¬ system.row.missingFrom names = true := by
        intro missing
        exact not_reported_of_missing sound (recorded lives) missing reported
      rw [if_neg fun both => both.2 reported, if_neg fun both => listed both.2]
    · have missing := missing_of_not_reported sound reported
      rw [if_pos ⟨lives, reported⟩, if_pos ⟨lives, missing⟩]
  · rw [if_neg fun both => lives both.1, if_neg fun both => lives both.1]

/-- A session that a Register is about to kill is believed to live by none. -/
theorem not_mem_believed_of_orphaned {names : List (List Char)}
    {believed : List SessionId} {session : SessionId}
    (orphan : session ∈ orphaned uuid names believed) : session ∉ believed := by
  obtain ⟨name, listed, read⟩ := List.mem_filterMap.mp orphan
  cases stripped : tmuxSessionPrefix.isPrefixOf? name with
  | none => simp only [stripped, Option.bind_eq_bind, Option.bind_none, reduceCtorEq] at read
  | some rest =>
      cases parsed : uuid.parseStr rest with
      | none =>
          simp only [stripped, parsed, Option.bind_eq_bind, Option.bind_some,
            Option.bind_none, reduceCtorEq] at read
      | some id =>
          simp only [stripped, parsed, Option.bind_eq_bind, Option.bind_some,
            List.contains_eq_mem, decide_eq_true_eq] at read
          split at read
          · cases read
          · next absent =>
            cases read
            exact absent

theorem step_spares (sound : before.Sound uuid) (taken : step uuid before label = some after)
    (upToDate : before.UpToDate uuid label) : Spares uuid before after label := by
  cases label with
  | register node names =>
      cases taken
      exact expireMissingFromTmux_reconciled sound node names upToDate
  | believe node names others =>
      simp only [step] at taken
      split at taken
      · cases taken
        rfl
      · cases taken
  | sweep node names believed =>
      simp only [step] at taken
      split at taken
      · next waiting =>
        cases taken
        constructor
        · rfl
        · intro killed
          simp only [newOrders, send, List.drop_left, List.mem_map, Prod.mk.injEq,
            exists_eq_right_right, SessionOrder.killSession.injEq, exists_eq_right] at killed
          exact sound.judged _ waiting believed rfl
            (not_mem_believed_of_orphaned killed.1)
      · cases taken
  | stop | viewerPresence _ | sessionStarted _ | sessionExited _ | sessionFailed _
  | portsUnavailable _ _ | leased _ _ => trivial

theorem step_keeps (sound : before.Sound uuid) (taken : step uuid before label = some after)
    (timely : before.Timely uuid label after) : before.Keeps uuid label after := by
  constructor
  · intro ended
    exact step_stays_ended taken timely.1 ended
  · constructor
    · intro ended
      apply step_starts_nothing taken
      by_contra waiting
      rw [sound.retried waiting] at ended
      cases ended
    · exact step_spares sound taken timely.1

/-- When every report finds the row up to date and nothing ends the session under a port
retry, then in every run an ended session stays ended and is not started, and a Register
ends exactly the live sessions of its node that have no tmux and kills none that lives. -/
theorem endings_last (uuid : UuidText SessionId) (id : SessionId) (nodeId : NodeId)
    (interface : SessionInterface) (labels : List (SessionStep SessionId NodeId))
    (timely : Along (step uuid) (Timely uuid) (created id nodeId interface) labels) :
    Along (step uuid) (Keeps uuid) (created id nodeId interface) labels := by
  apply timely.of_invariant (Sound uuid)
  · intro before label after sound taken timely
    exact step_sound sound taken timely
  · intro before label after sound taken timely
    exact step_keeps sound taken timely
  · exact created_sound id nodeId interface

end Preservation

/-! ## Reports that come late -/

/-- Ids that are their own simple form: 32 digits in lower case. -/
def simpleUuid : UuidText (List Char) where
  simple := fun session => session
  parseStr := fun text =>
    if text.length = 32 ∧ text.all fun digit => digit.isDigit || "abcdef".contains digit
    then some text else none

def shell : List Char := List.replicate 32 'a'

/-- A terminal whose ports clash once, that starts, is left, survives a reconnect of its
node, is watched again and exits. -/
theorem endings_last_in_order :
    Along (step simpleUuid) (Keeps simpleUuid) (created shell 0 .terminal)
      [.portsUnavailable 0 0, .leased ⟨0, 0⟩ true, .sessionStarted 0,
        .viewerPresence false, .register 0 [tmuxName simpleUuid shell],
        .believe 0 [tmuxName simpleUuid shell] [],
        .sweep 0 [tmuxName simpleUuid shell] [shell], .viewerPresence true,
        .sessionExited 0] :=
  endings_last simpleUuid shell 0 .terminal _ (by decide +kernel)

/-- A SessionStarted that arrives after a Stop brings the row back; a PortsUnavailable
that arrives after a Stop starts the session again; and a Register that lists the
terminal's tmux ends its row when SessionStarted was lost. -/
theorem endings_undone :
    ¬ Along (step simpleUuid) (Keeps simpleUuid) (created shell 0 .terminal)
      [.stop, .sessionStarted 0] ∧
    ¬ Along (step simpleUuid) (Keeps simpleUuid) (created shell 0 .terminal)
      [.stop, .portsUnavailable 0 0, .leased ⟨0, 0⟩ true] ∧
    ¬ Along (step simpleUuid) (Keeps simpleUuid) (created shell 0 .terminal)
      [.register 0 [tmuxName simpleUuid shell]] := by
  decide +kernel

end Sessions

end NookOs.Ws
