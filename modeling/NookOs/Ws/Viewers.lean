/-
Module: NookOs.Ws.Viewers
Purpose: The viewers of the sessions that a replica owns, the driver among them,
  and the sizes that the driver gives the terminal.
Trusted boundary: none
Main exports: SessionViewers, Viewers, Viewers.handleBus, ViewerMessage.InOrder, driver_views
-/
import NookOs.Lib.Run
import NookOs.Lib.Table
import Mathlib.Data.Finset.Max

namespace NookOs.Ws

open Lib

section Data

abbrev Grid := UInt16 × UInt16

/-- A viewer of any replica: `instance` and `id`. -/
structure ViewerKey where
  replica : Nat
  id : UInt64
deriving DecidableEq

/-- An entry of the map of viewers, with its key. -/
structure ViewerInfo where
  key : ViewerKey
  size : Option Grid
  lastActive : Nat
deriving DecidableEq

structure SessionViewers where
  viewers : List ViewerInfo := []
  driver : Option ViewerKey := none
deriving DecidableEq

/-- What a viewer does. -/
inductive ViewerEvent where
  | attached
  | resize (cols rows : UInt16)
  | input
  | detached
deriving DecidableEq

variable {Session : Type} [DecidableEq Session]

/-- `BusMessage::Viewer`. -/
structure ViewerMessage (Session : Type) where
  session : Session
  key : ViewerKey
  event : ViewerEvent
deriving DecidableEq

/-- The time of an event, and which of the viewers that were active last an
iteration over the map comes to last. -/
structure Moment where
  now : Nat := 0
  pick : Nat := 0
deriving DecidableEq

/-- The map from sessions to their viewers. -/
abbrev Viewers (Session : Type) := Session → Option SessionViewers

namespace SessionViewers

def viewer (session : SessionViewers) (key : ViewerKey) : Option ViewerInfo :=
  Table.find ViewerInfo.key session.viewers key

/-- `max_by_key` of the last activity. -/
def mostRecent (session : SessionViewers) (pick : Nat) : Option ViewerInfo :=
  let latest := session.viewers.filter fun info =>
    session.viewers.all fun other => other.lastActive ≤ info.lastActive
  latest[pick % latest.length]?

end SessionViewers

namespace Viewers

/-- The current agreed grid, the last size of the driver. -/
def currentSize (viewers : Viewers Session) (session : Session) : Option Grid := do
  let entry ← viewers session
  let driver ← entry.driver
  (← entry.viewer driver).size

def viewerAttachedKey (viewers : Viewers Session) (session : Session) (key : ViewerKey)
    (moment : Moment) : Viewers Session :=
  let entry := (viewers session).getD {}
  Function.update viewers session (some
    { viewers := Table.upsert ViewerInfo.key ⟨key, none, moment.now⟩
        (fun info => { info with size := none, lastActive := moment.now }) entry.viewers
      driver := entry.driver <|> some key })

def viewerResizeKey (viewers : Viewers Session) (session : Session) (key : ViewerKey)
    (cols rows : UInt16) (moment : Moment) : Viewers Session × Option Grid :=
  let entry := (viewers session).getD {}
  let driver := entry.driver <|> some key
  (Function.update viewers session (some
    { viewers := Table.upsert ViewerInfo.key ⟨key, none, moment.now⟩
        (fun info => { info with size := some (cols, rows) }) entry.viewers
      driver := driver }),
    if driver = some key then some (cols, rows) else none)

def viewerInputKey (viewers : Viewers Session) (session : Session) (key : ViewerKey)
    (moment : Moment) : Viewers Session × Option Grid :=
  match viewers session with
  | none => (viewers, none)
  | some entry =>
      (Function.update viewers session (some
        { viewers := Table.update ViewerInfo.key key
            (fun info => { info with lastActive := moment.now }) entry.viewers
          driver := some key }),
        if entry.driver = some key then none else (entry.viewer key).bind ViewerInfo.size)

def viewerDetachedKey (viewers : Viewers Session) (session : Session) (key : ViewerKey)
    (moment : Moment) : Viewers Session × Option Grid :=
  match viewers session with
  | none => (viewers, none)
  | some entry =>
      let remaining := { entry with
        viewers := Table.delete ViewerInfo.key key entry.viewers }
      if remaining.viewers.isEmpty then (Function.update viewers session none, none)
      else if entry.driver = some key then
        let next := remaining.mostRecent moment.pick
        (Function.update viewers session (some
          { remaining with driver := next.map ViewerInfo.key }),
          next.bind ViewerInfo.size)
      else (Function.update viewers session (some remaining), none)

/-- `handle_bus` of a viewer's message: the map, and the size that the terminal
is given. -/
def handleBus (viewers : Viewers Session) (moment : Moment) (message : ViewerMessage Session) :
    Viewers Session × Option Grid :=
  match message.event with
  | .attached => (viewers.viewerAttachedKey message.session message.key moment, none)
  | .resize cols rows =>
      viewers.viewerResizeKey message.session message.key cols rows moment
  | .input => viewers.viewerInputKey message.session message.key moment
  | .detached => viewers.viewerDetachedKey message.session message.key moment

/-- The entry of a viewer of a session. -/
def viewer (viewers : Viewers Session) (session : Session) (key : ViewerKey) :
    Option ViewerInfo :=
  (viewers session).bind fun entry => entry.viewer key

def driver (viewers : Viewers Session) (session : Session) : Option ViewerKey :=
  (viewers session).bind SessionViewers.driver

end Viewers

/-- The map, and the messages that it has handled, the newest first. -/
structure Viewing (Session : Type) where
  viewers : Viewers Session := fun _ => none
  log : List (ViewerMessage Session) := []

def Viewing.step (state : Viewing Session) (label : Moment × ViewerMessage Session) :
    Option (Viewing Session) :=
  some ⟨(state.viewers.handleBus label.1 label.2).1, label.2 :: state.log⟩

/-- The size that a viewer has told last, since it was detached last. -/
def lastReported (session : Session) (key : ViewerKey) :
    List (ViewerMessage Session) → Option Grid
  | [] => none
  | message :: earlier =>
      if session = message.session ∧ key = message.key then
        match message.event with
        | .resize cols rows => some (cols, rows)
        | .detached => none
        | .attached | .input => lastReported session key earlier
      else lastReported session key earlier

/-- A viewer attaches before it tells a size, and who types is a viewer. -/
def ViewerMessage.InOrder (message : ViewerMessage Session) (viewers : Viewers Session) :
    Prop :=
  match message.event with
  | .attached => (viewers.viewer message.session message.key).bind ViewerInfo.size = none
  | .input => viewers message.session = none ∨
      (viewers.viewer message.session message.key).isSome = true
  | .resize .. | .detached => True

instance (message : ViewerMessage Session) (viewers : Viewers Session) :
    Decidable (message.InOrder viewers) := by
  unfold ViewerMessage.InOrder
  split <;> infer_instance

end Data

section Entries

variable {session : SessionViewers} {info : ViewerInfo} {pick : Nat}

/-- Of some viewers, one was active last. -/
theorem SessionViewers.mostRecent_isSome (nonempty : session.viewers ≠ []) :
    (session.mostRecent pick).isSome = true := by
  obtain ⟨latest, isViewer, isLatest⟩ :
      ∃ info ∈ session.viewers, ∀ other ∈ session.viewers, other.lastActive ≤ info.lastActive := by
    have present : session.viewers.toFinset.Nonempty := by
      simpa [Finset.nonempty_iff_ne_empty] using nonempty
    obtain ⟨latest, isViewer, isLatest⟩ :=
      session.viewers.toFinset.exists_max_image ViewerInfo.lastActive present
    exact ⟨latest, by simpa using isViewer, by simpa using isLatest⟩
  have positive : 0 < (session.viewers.filter fun info =>
      session.viewers.all fun other => other.lastActive ≤ info.lastActive).length := by
    apply List.length_pos_of_mem (a := latest)
    simpa using And.intro isViewer isLatest
  unfold SessionViewers.mostRecent
  rw [List.getElem?_eq_getElem (Nat.mod_lt _ positive)]
  rfl

theorem SessionViewers.mostRecent_mem (recent : session.mostRecent pick = some info) :
    info ∈ session.viewers :=
  List.mem_of_mem_filter (List.mem_of_getElem? recent)

end Entries

section Driving

variable {Session : Type} [DecidableEq Session] {viewers : Viewers Session}
  {session : Session} {key : ViewerKey} {moment : Moment}

namespace Viewers

/-- Each entry has a driver, who is one of its viewers. -/
structure Driven (viewers : Viewers Session) : Prop where
  keyed : ∀ session entry, viewers session = some entry →
    Table.Keyed ViewerInfo.key entry.viewers
  driver : ∀ session entry, viewers session = some entry →
    ∃ driver, entry.driver = some driver ∧ (entry.viewer driver).isSome = true

theorem Driven.update (driven : viewers.Driven) (session : Session) {entry : SessionViewers}
    (keyed : Table.Keyed ViewerInfo.key entry.viewers)
    (driver : ∃ driver, entry.driver = some driver ∧ (entry.viewer driver).isSome = true) :
    Driven (Function.update viewers session (some entry)) := by
  constructor
  · intro place present isEntry
    by_cases same : place = session
    · cases same
      rw [Function.update_self] at isEntry
      cases isEntry
      exact keyed
    · rw [Function.update_of_ne same] at isEntry
      exact driven.keyed place present isEntry
  · intro place present isEntry
    by_cases same : place = session
    · cases same
      rw [Function.update_self] at isEntry
      cases isEntry
      exact driver
    · rw [Function.update_of_ne same] at isEntry
      exact driven.driver place present isEntry

theorem Driven.remove (driven : viewers.Driven) (session : Session) :
    Driven (Function.update viewers session none) := by
  have kept {place entry} (isEntry : Function.update viewers session none place = some entry) :
      viewers place = some entry := by
    by_cases same : place = session
    · cases same
      rw [Function.update_self] at isEntry
      cases isEntry
    · rwa [Function.update_of_ne same] at isEntry
  exact ⟨fun place entry isEntry => driven.keyed place entry (kept isEntry),
    fun place entry isEntry => driven.driver place entry (kept isEntry)⟩

omit [DecidableEq Session] in
/-- The entry that `entry(session).or_default()` gives. -/
theorem Driven.entry (driven : viewers.Driven) (session : Session) :
    Table.Keyed ViewerInfo.key ((viewers session).getD {}).viewers ∧
      ∀ driver ∈ ((viewers session).getD {}).driver,
        (((viewers session).getD {}).viewer driver).isSome = true := by
  cases isEntry : viewers session with
  | none => exact ⟨Table.keyed_nil, nofun⟩
  | some entry =>
      obtain ⟨driver, isDriver, isViewer⟩ := driven.driver session entry isEntry
      refine ⟨driven.keyed session entry isEntry, ?_⟩
      rintro other isOther
      cases isDriver.symm.trans isOther
      exact isViewer

/-- A viewer that is put into the map drives where nobody does. -/
theorem Driven.put (driven : viewers.Driven) (session : Session) {fresh : ViewerInfo}
    {change : ViewerInfo → ViewerInfo} (keeps : ∀ info, (change info).key = info.key) :
    Driven (Function.update viewers session (some
      { viewers := Table.upsert ViewerInfo.key fresh change
          ((viewers session).getD {}).viewers
        driver := ((viewers session).getD {}).driver <|> some fresh.key })) := by
  obtain ⟨keyed, isViewer⟩ := driven.entry session
  apply driven.update session (keyed.upsert keeps)
  cases isDriver : ((viewers session).getD {}).driver with
  | none =>
      refine ⟨fresh.key, rfl, ?_⟩
      simp only [SessionViewers.viewer, Table.find_upsert keeps, if_true, Option.isSome_some]
  | some driver =>
      refine ⟨driver, rfl, ?_⟩
      simp only [SessionViewers.viewer, Table.find_upsert keeps]
      split
      case isTrue => rfl
      case isFalse => exact isViewer driver isDriver

/-- Who types drives, where it is a viewer. -/
theorem Driven.input (driven : viewers.Driven)
    (isViewer : viewers session = none ∨ (viewers.viewer session key).isSome = true) :
    (viewers.viewerInputKey session key moment).1.Driven := by
  unfold viewerInputKey
  cases isEntry : viewers session with
  | none => exact driven
  | some entry =>
      have keyed := @Table.Keyed.update _ _ _ _ _ key
        (fun info => { info with lastActive := moment.now }) (driven.keyed session entry isEntry)
        fun _ _ => rfl
      apply driven.update session keyed
      refine ⟨key, rfl, ?_⟩
      have present : (entry.viewer key).isSome = true := by
        simpa [viewer, isEntry] using isViewer
      simpa [SessionViewers.viewer, Table.find_update] using present

/-- Where the driver leaves, the viewer that was active last takes its place. -/
theorem Driven.detached (driven : viewers.Driven) :
    (viewers.viewerDetachedKey session key moment).1.Driven := by
  unfold viewerDetachedKey
  cases isEntry : viewers session with
  | none => exact driven
  | some entry =>
      have keyed := @Table.Keyed.delete _ _ _ _ _ key (driven.keyed session entry isEntry)
      dsimp only
      split
      case isTrue => exact driven.remove session
      case isFalse remains =>
        split
        case isTrue =>
          have promoted := @SessionViewers.mostRecent_isSome
            { entry with viewers := Table.delete ViewerInfo.key key entry.viewers } moment.pick
            (by simpa using remains)
          obtain ⟨next, isNext⟩ := Option.isSome_iff_exists.mp promoted
          apply driven.update session keyed
          refine ⟨next.key, by rw [isNext]; rfl, ?_⟩
          simp only [SessionViewers.viewer]
          rw [keyed.find_of_mem (SessionViewers.mostRecent_mem isNext)]
          rfl
        case isFalse other =>
          obtain ⟨driver, isDriver, present⟩ := driven.driver session entry isEntry
          apply driven.update session keyed
          refine ⟨driver, isDriver, ?_⟩
          have stays : driver ≠ key := by
            rintro rfl
            exact other isDriver
          simpa [SessionViewers.viewer, Table.find_delete, stays] using present

/-- An event keeps the driver among the viewers; who types has to be one. -/
theorem Driven.step (driven : viewers.Driven) {message : ViewerMessage Session}
    (inOrder : message.InOrder viewers) : (viewers.handleBus moment message).1.Driven := by
  obtain ⟨session, key, event⟩ := message
  cases event with
  | attached | resize => exact driven.put session fun _ => rfl
  | input => exact driven.input inOrder
  | detached => exact driven.detached

end Viewers

end Driving

section Sizes

variable {Session : Type} [DecidableEq Session] {viewers : Viewers Session}
  {session place : Session} {key other : ViewerKey} {moment : Moment}

namespace Viewers

/-- The size that is kept of a viewer. -/
def size (viewers : Viewers Session) (session : Session) (key : ViewerKey) : Option Grid :=
  (viewers.viewer session key).bind ViewerInfo.size

omit [DecidableEq Session] in
theorem size_entry {entry : SessionViewers} (isEntry : viewers session = some entry) :
    viewers.size session key = (entry.viewer key).bind ViewerInfo.size := by
  rw [size, viewer, isEntry]
  rfl

theorem size_update {entry : SessionViewers} :
    size (Function.update viewers session (some entry)) place other =
      if place = session then (entry.viewer other).bind ViewerInfo.size
      else viewers.size place other := by
  split
  case isTrue same =>
    cases same
    exact size_entry (Function.update_self ..)
  case isFalse differs =>
    simp only [size, viewer, Function.update_of_ne differs]

/-- A viewer that is put into the map gets its size, and no other does. -/
theorem size_put {driver : Option ViewerKey} {fresh : ViewerInfo}
    {change : ViewerInfo → ViewerInfo} (keeps : ∀ info, (change info).key = info.key)
    {told : Option Grid} (sets : ∀ info, (change info).size = told) :
    size (Function.update viewers session (some
      { viewers := Table.upsert ViewerInfo.key fresh change
          ((viewers session).getD {}).viewers
        driver := driver })) place other =
      if place = session ∧ other = fresh.key then told else viewers.size place other := by
  rw [size_update]
  by_cases same : place = session
  · cases same
    rw [if_pos rfl, SessionViewers.viewer, Table.find_upsert keeps]
    by_cases isKey : other = fresh.key
    · rw [if_pos isKey, if_pos ⟨rfl, isKey⟩, Option.bind_some, sets]
    · rw [if_neg isKey, if_neg fun both => isKey both.2, size, viewer]
      cases viewers session <;> rfl
  · rw [if_neg same, if_neg fun both => same both.1]

theorem size_attached :
    (viewers.viewerAttachedKey session key moment).size place other =
      if place = session ∧ other = key then none else viewers.size place other :=
  @size_put _ _ _ _ _ _ _ ⟨key, none, moment.now⟩
    (fun info => { info with size := none, lastActive := moment.now }) (fun _ => rfl) _
    fun _ => rfl

theorem size_resize {cols rows : UInt16} :
    (viewers.viewerResizeKey session key cols rows moment).1.size place other =
      if place = session ∧ other = key then some (cols, rows) else viewers.size place other :=
  @size_put _ _ _ _ _ _ _ ⟨key, none, moment.now⟩
    (fun info => { info with size := some (cols, rows) }) (fun _ => rfl) _ fun _ => rfl

theorem size_input :
    (viewers.viewerInputKey session key moment).1.size place other =
      viewers.size place other := by
  unfold viewerInputKey
  cases isEntry : viewers session with
  | none => rfl
  | some entry =>
      rw [size_update]
      split
      case isTrue same =>
        cases same
        have active := @Table.find_update _ _ _ ViewerInfo.key entry.viewers key other
          (fun info => { info with lastActive := moment.now }) fun _ _ => rfl
        rw [size_entry isEntry, SessionViewers.viewer, active, SessionViewers.viewer]
        split
        case isTrue => cases Table.find ViewerInfo.key entry.viewers other <;> rfl
        case isFalse => rfl
      case isFalse => rfl

/-- Who leaves takes its size along. -/
theorem size_detached :
    (viewers.viewerDetachedKey session key moment).1.size place other =
      if place = session ∧ other = key then none else viewers.size place other := by
  have without {entry : SessionViewers} {driver : Option ViewerKey}
      (isEntry : viewers session = some entry) :
      size (Function.update viewers session (some
        { viewers := Table.delete ViewerInfo.key key entry.viewers, driver := driver }))
          place other =
        if place = session ∧ other = key then none else viewers.size place other := by
    rw [size_update]
    by_cases same : place = session
    · cases same
      rw [if_pos rfl, SessionViewers.viewer, Table.find_delete, size_entry isEntry]
      by_cases isKey : other = key
      · rw [if_pos isKey, if_pos ⟨rfl, isKey⟩]
        rfl
      · rw [if_neg isKey, if_neg fun both => isKey both.2, SessionViewers.viewer]
    · rw [if_neg same, if_neg fun both => same both.1]
  unfold viewerDetachedKey
  cases isEntry : viewers session with
  | none =>
      dsimp only
      split
      case isTrue same =>
        rw [same.1, size, viewer, isEntry]
        rfl
      case isFalse => rfl
  | some entry =>
      dsimp only
      split
      case isTrue nobody =>
        -- An entry without viewers leaves the map; it had no sizes but this viewer's.
        have emptied : size (Function.update viewers session none) place other =
            size (Function.update viewers session (some
              { viewers := Table.delete ViewerInfo.key key entry.viewers
                driver := entry.driver })) place other := by
          by_cases same : place = session
          · cases same
            simp only [size, viewer, Function.update_self, SessionViewers.viewer,
              List.isEmpty_iff.mp nobody]
            rfl
          · simp only [size, viewer, Function.update_of_ne same]
        rw [emptied]
        exact without isEntry
      case isFalse =>
        split
        case isTrue => exact without isEntry
        case isFalse => exact without isEntry

/-- Each viewer's size is the one that it has told last. -/
def Sized (viewers : Viewers Session) (log : List (ViewerMessage Session)) : Prop :=
  ∀ session key, viewers.size session key = lastReported session key log

theorem Sized.step {log : List (ViewerMessage Session)} (sized : viewers.Sized log)
    {message : ViewerMessage Session} (inOrder : message.InOrder viewers) :
    (viewers.handleBus moment message).1.Sized (message :: log) := by
  obtain ⟨session, key, event⟩ := message
  intro place other
  rw [lastReported, ← sized place other]
  cases event with
  | attached =>
      refine size_attached.trans ?_
      split
      case isTrue same =>
        obtain ⟨rfl, rfl⟩ := same
        exact inOrder.symm
      case isFalse => rfl
  | resize cols rows => exact size_resize
  | input => exact size_input.trans (ite_self _).symm
  | detached => exact size_detached

omit [DecidableEq Session] in
/-- The grid is the kept size of the driver. -/
theorem currentSize_eq :
    viewers.currentSize session = (viewers.driver session).bind (viewers.size session) := by
  unfold currentSize driver size viewer
  cases viewers session with
  | none => rfl
  | some entry => cases entry.driver <;> rfl

theorem applied_resize {cols rows : UInt16} {grid : Grid}
    (gives : (viewers.viewerResizeKey session key cols rows moment).2 = some grid) :
    (viewers.viewerResizeKey session key cols rows moment).1.currentSize session =
      some grid := by
  have drives : (viewers.viewerResizeKey session key cols rows moment).1.driver session =
      some key ∧ (cols, rows) = grid := by
    simp only [viewerResizeKey, Option.ite_none_right_eq_some, Option.some.injEq] at gives
    simp only [driver, viewerResizeKey, Function.update_self, Option.bind_some]
    exact gives
  rw [currentSize_eq, drives.1, Option.bind_some, size_resize, if_pos ⟨rfl, rfl⟩, drives.2]

theorem applied_input {grid : Grid}
    (gives : (viewers.viewerInputKey session key moment).2 = some grid) :
    (viewers.viewerInputKey session key moment).1.currentSize session = some grid := by
  have drives : (viewers.viewerInputKey session key moment).1.driver session = some key ∧
      viewers.size session key = some grid := by
    unfold viewerInputKey at gives ⊢
    cases isEntry : viewers session with
    | none =>
        rw [isEntry] at gives
        cases gives
    | some entry =>
        simp only [isEntry, Option.ite_none_left_eq_some] at gives
        refine ⟨?_, (size_entry isEntry).trans gives.2⟩
        simp only [driver, Function.update_self, Option.bind_some]
  rw [currentSize_eq, drives.1, Option.bind_some, size_input, drives.2]

theorem Driven.applied_detached (driven : viewers.Driven) {grid : Grid}
    (gives : (viewers.viewerDetachedKey session key moment).2 = some grid) :
    (viewers.viewerDetachedKey session key moment).1.currentSize session = some grid := by
  unfold viewerDetachedKey at gives ⊢
  cases isEntry : viewers session with
  | none =>
      rw [isEntry] at gives
      cases gives
  | some entry =>
      simp only [isEntry] at gives ⊢
      split at gives
      case isTrue => cases gives
      case isFalse remains =>
        rw [if_neg remains]
        split at gives
        case isFalse => cases gives
        case isTrue drove =>
          rw [if_pos drove]
          obtain ⟨next, isNext, isSize⟩ := Option.bind_eq_some_iff.mp gives
          have keyed := @Table.Keyed.delete _ _ _ _ _ key (driven.keyed session entry isEntry)
          have present := keyed.find_of_mem (SessionViewers.mostRecent_mem isNext)
          simp only [currentSize, Function.update_self, isNext, SessionViewers.viewer]
          exact (congrArg (fun found => found.bind ViewerInfo.size) present).trans isSize

/-- A size that the terminal is given is that of who drives then. -/
theorem Driven.applied (driven : viewers.Driven) {message : ViewerMessage Session} {grid : Grid}
    (gives : (viewers.handleBus moment message).2 = some grid) :
    (viewers.handleBus moment message).1.currentSize message.session = some grid := by
  obtain ⟨session, key, event⟩ := message
  cases event with
  | attached => cases gives
  | resize cols rows => exact applied_resize gives
  | input => exact applied_input gives
  | detached => exact driven.applied_detached gives

end Viewers

end Sizes

section Runs

variable {Session : Type} [DecidableEq Session]

open Lib (Along run)

/-- What is promised of every session: it has a driver where it has viewers, who is
one of them, and its grid is the size that the driver has told last. -/
structure Viewing.Promised (state : Viewing Session) : Prop where
  driver : ∀ session entry, state.viewers session = some entry → entry.viewers ≠ [] →
    ∃ driver, entry.driver = some driver ∧ (entry.viewer driver).isSome = true
  currentSize : ∀ session, state.viewers.currentSize session =
    (state.viewers.driver session).bind fun driver => lastReported session driver state.log

/-- What a run in order keeps. -/
structure Viewing.Sound (state : Viewing Session) : Prop where
  driven : state.viewers.Driven
  sized : state.viewers.Sized state.log

theorem Viewing.Sound.start : Viewing.Sound ({} : Viewing Session) :=
  ⟨⟨nofun, nofun⟩, fun _ _ => rfl⟩

theorem Viewing.Sound.promised {state : Viewing Session} (sound : state.Sound) :
    state.Promised where
  driver session entry isEntry _ := sound.driven.driver session entry isEntry
  currentSize session := by
    rw [Viewers.currentSize_eq, funext (sound.sized session)]

theorem Viewing.Sound.step {before after : Viewing Session} (sound : before.Sound)
    {label : Moment × ViewerMessage Session} (taken : before.step label = some after)
    (inOrder : label.2.InOrder before.viewers) : after.Sound := by
  cases taken
  exact ⟨sound.driven.step inOrder, sound.sized.step inOrder⟩

/-- A message out of order breaks what a run in order keeps. -/
theorem Viewing.Sound.inOrder {before after : Viewing Session} (sound : before.Sound)
    {label : Moment × ViewerMessage Session} (taken : before.step label = some after)
    (stillSound : after.Sound) : label.2.InOrder before.viewers := by
  cases taken
  obtain ⟨moment, session, key, event⟩ := label
  cases event with
  | attached =>
      have told := stillSound.sized session key
      simp only [Viewers.handleBus, Viewers.size_attached, lastReported, true_and,
        if_true] at told
      exact (sound.sized session key).trans told.symm
  | input =>
      cases isEntry : before.viewers session with
      | none => exact .inl isEntry
      | some entry =>
          have present := stillSound.driven.driver session
          simp only [Viewers.handleBus, Viewers.viewerInputKey, isEntry, Function.update_self,
            Option.some.injEq, forall_eq', exists_eq_left', SessionViewers.viewer,
            @Table.find_update _ _ _ ViewerInfo.key entry.viewers key key
              (fun info => { info with lastActive := moment.now }) fun _ _ => rfl,
            if_true, Option.isSome_map] at present
          refine .inr ?_
          rw [Viewers.viewer, isEntry]
          exact present
  | resize | detached => trivial

/-- Where viewers attach before they tell a size and only viewers type, every session
with viewers is driven by one of them, the grid is what the driver told last, and each
size that the terminal is given is the size of the driver. -/
theorem driver_views {labels : List (Moment × ViewerMessage Session)} {final : Viewing Session}
    (ran : run Viewing.step {} labels = some final)
    (inOrder : Along Viewing.step (fun before label _ => label.2.InOrder before.viewers) {}
      labels) :
    final.Promised ∧
      Along Viewing.step (fun before label after => ∀ grid,
        (before.viewers.handleBus label.1 label.2).2 = some grid →
          after.viewers.currentSize label.2.session = some grid) {} labels := by
  constructor
  · exact (inOrder.run_invariant Viewing.Sound (fun _ _ _ sound => sound.step) .start ran).promised
  · apply inOrder.of_invariant Viewing.Sound (fun _ _ _ sound => sound.step) _ .start
    intro before label after sound taken _ grid gives
    cases taken
    exact sound.driven.applied gives

/-- Two viewers; the second takes the session over, and leaves. -/
def twoViewers : List (Moment × ViewerMessage Nat) :=
  [({}, ⟨0, ⟨1, 1⟩, .attached⟩), ({}, ⟨0, ⟨1, 1⟩, .resize 80 24⟩),
    ({}, ⟨0, ⟨2, 1⟩, .attached⟩), ({}, ⟨0, ⟨2, 1⟩, .resize 100 30⟩),
    (⟨1, 0⟩, ⟨0, ⟨2, 1⟩, .input⟩), (⟨2, 0⟩, ⟨0, ⟨2, 1⟩, .detached⟩)]

theorem driver_views_twoViewers : ∃ final : Viewing Nat,
    run Viewing.step {} twoViewers = some final ∧
    (final.Promised ∧ Along Viewing.step (fun before label after => ∀ grid,
      (before.viewers.handleBus label.1 label.2).2 = some grid →
        after.viewers.currentSize label.2.session = some grid) {} twoViewers) ∧
    final.viewers.currentSize 0 = some (80, 24) :=
  ⟨_, rfl, driver_views rfl (by decide +kernel), by decide +kernel⟩

/-- A viewer that types before it has attached, or after it has left, drives without
being a viewer; one that attaches after it has told its size drives without a size. -/
theorem driver_strays :
    (∃ final : Viewing Nat, run Viewing.step {} [({}, ⟨0, ⟨1, 1⟩, .attached⟩),
      ({}, ⟨0, ⟨2, 1⟩, .input⟩)] = some final ∧ ¬ final.Promised) ∧
    ∃ final : Viewing Nat, run Viewing.step {} [({}, ⟨0, ⟨1, 1⟩, .resize 80 24⟩),
      ({}, ⟨0, ⟨1, 1⟩, .attached⟩)] = some final ∧ ¬ final.Promised := by
  refine ⟨⟨_, rfl, ?_⟩, _, rfl, ?_⟩
  · intro promised
    obtain ⟨driver, isDriver, present⟩ := promised.driver 0 _ rfl nofun
    cases isDriver
    cases present
  · intro promised
    exact absurd (promised.currentSize 0) (by decide +kernel)

end Runs

end NookOs.Ws
