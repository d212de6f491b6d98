/-
Module: NookOs.Ws.TunnelRoutes
Purpose: The tunnel tables of any number of replicas, the announcements in flight
  between them, and when the tables come to agree.
Trusted boundary: none
Main exports: slugLabel, uniqueSubdomain, Tunnel, TunnelRoutes, Ordered, tables_right
-/
import NookOs.Lib.Broadcast
import NookOs.Lib.Run
import NookOs.Lib.Table
import NookOs.Jobs.LoopJob
import Mathlib.Data.Fintype.Basic
import Mathlib.Data.Finset.Card

namespace NookOs.Ws

open Lib
open Jobs (Instant TenantId NodeId)

abbrev SessionId := Nat

section Labels

/-- `MAX_LABEL`. -/
def maxLabel : Nat := 63

/-- What a character of a name becomes in a label. -/
def labelChar (c : Char) : Option Char :=
  let lower := c.toLower
  if lower.isAlphanum then some lower
  else if lower ∈ ['-', '_', '.', '/', ' '] then some '-'
  else none

/-- One round of the loop of `clean`: no two dashes in a row, and none first. -/
def cleanChar (state : List Char × Bool) (c : Char) : List Char × Bool :=
  match labelChar c with
  | none => state
  | some mapped =>
      if mapped = '-' && state.2 then state else (state.1 ++ [mapped], mapped = '-')

/-- `while out.ends_with('-')`. -/
def dropDashes (out : List Char) : List Char :=
  (out.reverse.dropWhile (· = '-')).reverse

/-- The cleaning half, which may return empty. -/
def clean (input : String) : List Char :=
  let out := (input.toList.foldl cleanChar ([], true)).1
  dropDashes ((dropDashes out).take maxLabel)

def slugLabel (input : String) : String :=
  if clean input = [] then "tunnel" else String.ofList (clean input)

/-- The stem with a number, which eats into the stem where there is no room. -/
def numbered (stem : String) (n : Nat) : String :=
  let suffix := "-" ++ toString n
  let room := maxLabel - suffix.length
  String.ofList (dropDashes (stem.toList.take room)) ++ suffix

/-- The labels `unique_subdomain` tries, in order. -/
def candidates (stem : String) : List String :=
  slugLabel stem :: (List.range' 2 9998).map (numbered (slugLabel stem))

/-- The first label not already taken, and the stem once all of them are. -/
def uniqueSubdomain (stem : String) (taken : String → Bool) : String :=
  ((candidates stem).find? (!taken ·)).getD (slugLabel stem)

theorem uniqueSubdomain_mem {stem : String} {taken : String → Bool} :
    uniqueSubdomain stem taken ∈ candidates stem := by
  unfold uniqueSubdomain
  cases found : (candidates stem).find? (!taken ·) with
  | some label => exact List.mem_of_find?_eq_some found
  | none =>
      rw [Option.getD_none]
      exact List.mem_cons_self ..

/-- The label is free exactly where one of those tried is. -/
theorem uniqueSubdomain_free_iff {stem : String} {taken : String → Bool} :
    taken (uniqueSubdomain stem taken) = false ↔
      ∃ label ∈ candidates stem, taken label = false := by
  unfold uniqueSubdomain
  cases found : (candidates stem).find? (!taken ·) with
  | some label =>
      have free : taken label = false := by simpa using List.find?_some found
      exact iff_of_true free ⟨label, List.mem_of_find?_eq_some found, free⟩
  | none =>
      have allTaken : ∀ label ∈ candidates stem, taken label = true := by
        intro label member
        simpa using List.find?_eq_none.mp found label member
      rw [Option.getD_none, allTaken _ (List.mem_cons_self ..)]
      apply iff_of_false (by decide)
      rintro ⟨label, member, free⟩
      rw [allTaken label member] at free
      cases free

end Labels

/-- A live tunnel: what one host under the tunnel domain resolves to. -/
structure Tunnel where
  label : String
  tenantId : TenantId
  nodeId : NodeId
  nodeName : String
  port : UInt16
  sessionId : Option SessionId
  createdAt : Instant
deriving DecidableEq

/-- A tunnel with the two clocks a replica keeps for it. -/
structure TunnelEntry where
  tunnel : Tunnel
  lastUsed : Instant
  lastAnnounced : Option Instant
deriving DecidableEq

def TunnelEntry.label (entry : TunnelEntry) : String := entry.tunnel.label

/-- The tunnel messages of the bus. -/
inductive BusMessage (Replica : Type) where
  | tunnelRoute (origin : Replica) (label : String) (tunnel : Option Tunnel)
  | tunnelUsed (origin : Replica) (label : String)
deriving DecidableEq

/-- The replica a message says it is from. -/
def BusMessage.origin {Replica : Type} : BusMessage Replica → Replica
  | .tunnelRoute origin _ _ | .tunnelUsed origin _ => origin

/-- The tables, the announcements in flight, and the tunnels that were opened and
not withdrawn. -/
structure TunnelRoutes (Replica : Type) where
  routes : Replica → List TunnelEntry
  mail : Mail Replica (BusMessage Replica)
  live : List Tunnel

/-- One call on one replica, or a message that arrives.  `build` of
`open_tunnel_route` is a tunnel that wants its label. -/
inductive TunnelStep (Replica : Type) where
  | openTunnelRoute (replica : Replica) (now : Instant) (stem : String) (build : Tunnel)
  | takeTunnelRoute (replica : Replica) (label : String)
  | touchTunnel (replica : Replica) (now : Instant) (label : String)
      (announceAfter : Int)
  | sweepIdleTunnels (replica : Replica) (now : Instant) (idle : Int)
  | takeTunnelsForNode (replica : Replica) (node : NodeId)
  | takeTunnelsForSession (replica : Replica) (session : SessionId)
  | deliver (sender receiver : Replica) (now : Instant)

namespace TunnelRoutes

variable {Replica : Type} [DecidableEq Replica]

/-- What a label points at on a replica. -/
def tunnelRoute (store : TunnelRoutes Replica) (replica : Replica) (label : String) :
    Option Tunnel :=
  (Table.find TunnelEntry.label (store.routes replica) label).map (·.tunnel)

/-- Replace a replica's table. -/
def onReplica (replica : Replica) (change : List TunnelEntry → List TunnelEntry)
    (store : TunnelRoutes Replica) : TunnelRoutes Replica :=
  { store with
    routes := Function.update store.routes replica (change (store.routes replica)) }

def putTunnelLocal (replica : Replica) (now : Instant) (tunnel : Tunnel) :
    TunnelRoutes Replica → TunnelRoutes Replica :=
  onReplica replica fun entries =>
    Table.delete TunnelEntry.label tunnel.label entries ++
      [{ tunnel, lastUsed := now, lastAnnounced := none }]

def takeTunnelLocal (replica : Replica) (label : String) :
    TunnelRoutes Replica → TunnelRoutes Replica :=
  onReplica replica (Table.delete TunnelEntry.label label)

/-- `Outbound::Broadcast`, which comes back to its sender too. -/
def queue (replica : Replica) (message : BusMessage Replica)
    (store : TunnelRoutes Replica) : TunnelRoutes Replica :=
  { store with mail := store.mail.broadcast replica message }

def announceRoute (replica : Replica) (label : String) (tunnel : Option Tunnel) :
    TunnelRoutes Replica → TunnelRoutes Replica :=
  queue replica (.tunnelRoute replica label tunnel)

def putTunnelRoute (replica : Replica) (now : Instant) (tunnel : Tunnel)
    (store : TunnelRoutes Replica) : TunnelRoutes Replica :=
  (store.announceRoute replica tunnel.label (some tunnel)).putTunnelLocal replica now
    tunnel

def takeTunnelRoute (replica : Replica) (label : String)
    (store : TunnelRoutes Replica) : TunnelRoutes Replica :=
  match store.tunnelRoute replica label with
  | none => store.takeTunnelLocal replica label
  | some gone =>
      let taken :=
        (store.takeTunnelLocal replica label).announceRoute replica label none
      { taken with live := taken.live.filter (· ≠ gone) }

/-- The label that `open_tunnel_route` claims. -/
def freeLabel (store : TunnelRoutes Replica) (replica : Replica) (stem : String) :
    String :=
  uniqueSubdomain stem fun label => (store.tunnelRoute replica label).isSome

def openTunnelRoute (replica : Replica) (now : Instant) (stem : String)
    (build : Tunnel) (store : TunnelRoutes Replica) : TunnelRoutes Replica :=
  let tunnel := { build with label := store.freeLabel replica stem }
  let opened := store.putTunnelRoute replica now tunnel
  { opened with live := opened.live.filter (· ≠ tunnel) ++ [tunnel] }

/-- The labels are collected first, and then taken. -/
def takeTunnelsWhere (replica : Replica) (hits : TunnelEntry → Bool)
    (store : TunnelRoutes Replica) : TunnelRoutes Replica :=
  (((store.routes replica).filter hits).map (·.label)).foldl
    (fun store label => store.takeTunnelRoute replica label) store

/-- A request came through: the clock of the tunnel, and, no more often than
asked, the word to the other replicas. -/
def touchTunnel (replica : Replica) (now : Instant) (label : String)
    (announceAfter : Int) (store : TunnelRoutes Replica) : TunnelRoutes Replica :=
  match Table.find TunnelEntry.label (store.routes replica) label with
  | none => store
  | some entry =>
      let announces := entry.lastAnnounced.all fun last => announceAfter ≤ now - last
      let touched := store.onReplica replica
        (Table.update TunnelEntry.label label fun entry =>
          { entry with
            lastUsed := now
            lastAnnounced := if announces then some now else entry.lastAnnounced })
      if announces then touched.queue replica (.tunnelUsed replica label) else touched

/-- The tunnel arms of `handle_bus`. -/
def handleBus (replica : Replica) (now : Instant) (message : BusMessage Replica)
    (store : TunnelRoutes Replica) : TunnelRoutes Replica :=
  match message with
  | .tunnelRoute origin label tunnel =>
      if origin = replica then store
      else
        match tunnel with
        | some tunnel =>
            if tunnel.label = label then store.putTunnelLocal replica now tunnel
            else store.takeTunnelLocal replica label
        | none => store.takeTunnelLocal replica label
  | .tunnelUsed origin label =>
      if origin = replica then store
      else
        store.onReplica replica
          (Table.update TunnelEntry.label label fun entry => { entry with lastUsed := now })

def step (store : TunnelRoutes Replica) :
    TunnelStep Replica → Option (TunnelRoutes Replica)
  | .openTunnelRoute replica now stem build =>
      some (store.openTunnelRoute replica now stem build)
  | .takeTunnelRoute replica label => some (store.takeTunnelRoute replica label)
  | .touchTunnel replica now label announceAfter =>
      some (store.touchTunnel replica now label announceAfter)
  | .sweepIdleTunnels replica now idle =>
      some (store.takeTunnelsWhere replica fun entry => idle ≤ now - entry.lastUsed)
  | .takeTunnelsForNode replica node =>
      some (store.takeTunnelsWhere replica fun entry => entry.tunnel.nodeId = node)
  | .takeTunnelsForSession replica session =>
      some (store.takeTunnelsWhere replica fun entry =>
        entry.tunnel.sessionId = some session)
  | .deliver sender receiver now => do
      let (message, mail) ← store.mail.deliver sender receiver
      some ({ store with mail }.handleBus receiver now message)

/-- Nothing is in flight to anybody else. -/
def Delivered (store : TunnelRoutes Replica) : Prop :=
  ∀ sender receiver, sender ≠ receiver → store.mail sender receiver = []

/-- What a step owes the tables. -/
structure TablesRight (before : TunnelRoutes Replica) (label : TunnelStep Replica)
    (after : TunnelRoutes Replica) : Prop where
  unheld : ∀ replica now stem build, label = .openTunnelRoute replica now stem build →
    before.tunnelRoute replica (before.freeLabel replica stem) = none
  agree : after.Delivered → ∀ first second name,
    after.tunnelRoute first name = after.tunnelRoute second name
  reachable : after.Delivered → ∀ tunnel ∈ after.live, ∀ replica,
    after.tunnelRoute replica tunnel.label = some tunnel

/-- The write of a label that a message carries. -/
def about (name : String) : BusMessage Replica → Option (Option Tunnel)
  | .tunnelRoute _ label tunnel =>
      if label = name then some (tunnel.filter (·.label = label)) else none
  | .tunnelUsed .. => none

/-- What other replicas have in flight about a label ends with what is written
now. -/
def InTurn (store : TunnelRoutes Replica) (writer : Replica) (name : String)
    (written : Option Tunnel) : Prop :=
  ∀ sender receiver, sender ≠ writer → sender ≠ receiver →
    ∀ seen ∈ (writesOf (about name) (store.mail sender receiver)).getLast?,
      seen = written

/-- What a step needs: an open finds a free label, and no write of a label
crosses another replica's write of it, unless both withdraw it. -/
def Ordered (before : TunnelRoutes Replica) : TunnelStep Replica → Prop
  | .openTunnelRoute replica _ stem build =>
      (∃ label ∈ candidates stem, before.tunnelRoute replica label = none) ∧
        before.InTurn replica (before.freeLabel replica stem)
          (some { build with label := before.freeLabel replica stem })
  | .takeTunnelRoute replica label =>
      (before.tunnelRoute replica label).isSome = true → before.InTurn replica label none
  | .sweepIdleTunnels replica now idle =>
      ∀ entry ∈ before.routes replica, idle ≤ now - entry.lastUsed →
        before.InTurn replica entry.label none
  | .takeTunnelsForNode replica node =>
      ∀ entry ∈ before.routes replica, entry.tunnel.nodeId = node →
        before.InTurn replica entry.label none
  | .takeTunnelsForSession replica session =>
      ∀ entry ∈ before.routes replica, entry.tunnel.sessionId = some session →
        before.InTurn replica entry.label none
  | .touchTunnel .. | .deliver .. => True

section Decidable

variable [Fintype Replica]

instance Delivered.decidable (store : TunnelRoutes Replica) :
    Decidable store.Delivered :=
  inferInstanceAs (Decidable (∀ sender receiver, sender ≠ receiver →
    store.mail sender receiver = []))

instance InTurn.decidable (store : TunnelRoutes Replica) (writer : Replica)
    (name : String) (written : Option Tunnel) :
    Decidable (store.InTurn writer name written) :=
  inferInstanceAs (Decidable (∀ sender receiver, sender ≠ writer → sender ≠ receiver →
    ∀ seen ∈ (writesOf (about name) (store.mail sender receiver)).getLast?,
      seen = written))

instance Ordered.decidable (before : TunnelRoutes Replica) :
    (label : TunnelStep Replica) → Decidable (before.Ordered label)
  | .openTunnelRoute .. => inferInstanceAs (Decidable (_ ∧ _))
  | .takeTunnelRoute .. => inferInstanceAs (Decidable (_ → _))
  | .sweepIdleTunnels .. => inferInstanceAs (Decidable (∀ _ ∈ _, _ → _))
  | .takeTunnelsForNode .. => inferInstanceAs (Decidable (∀ _ ∈ _, _ → _))
  | .takeTunnelsForSession .. => inferInstanceAs (Decidable (∀ _ ∈ _, _ → _))
  | .touchTunnel .. => isTrue trivial
  | .deliver .. => isTrue trivial

end Decidable

section Tables

variable {store : TunnelRoutes Replica} {replica other : Replica} {now : Instant}
  {tunnel : Tunnel} {label name : String}

omit [DecidableEq Replica] in
/-- An open finds a free label exactly where the replica holds no tunnel at one of
those tried. -/
theorem freeLabel_free_iff {stem : String} :
    store.tunnelRoute replica (store.freeLabel replica stem) = none ↔
      ∃ label ∈ candidates stem, store.tunnelRoute replica label = none := by
  have searched := @uniqueSubdomain_free_iff stem fun label =>
    (store.tunnelRoute replica label).isSome
  simp only [Option.isSome_eq_false_iff, Option.isNone_iff_eq_none] at searched
  exact searched

omit [DecidableEq Replica] in
/-- A route stands under its own label. -/
theorem label_of_tunnelRoute (found : store.tunnelRoute replica name = some tunnel) :
    tunnel.label = name := by
  obtain ⟨entry, isEntry, rfl⟩ := Option.map_eq_some_iff.mp found
  exact (Table.find_some isEntry).2

theorem routes_onReplica_self {change : List TunnelEntry → List TunnelEntry} :
    (store.onReplica replica change).routes replica = change (store.routes replica) :=
  Function.update_self ..

theorem tunnelRoute_onReplica_of_ne {change : List TunnelEntry → List TunnelEntry}
    (differs : other ≠ replica) :
    (store.onReplica replica change).tunnelRoute other name =
      store.tunnelRoute other name := by
  have sameRoutes : (store.onReplica replica change).routes other = store.routes other :=
    Function.update_of_ne differs ..
  rw [tunnelRoute, sameRoutes]
  rfl

theorem tunnelRoute_putTunnelLocal :
    (fun at_ => (store.putTunnelLocal replica now tunnel).tunnelRoute at_ name) =
      if tunnel.label = name then
        Function.update (fun at_ => store.tunnelRoute at_ name) replica (some tunnel)
      else fun at_ => store.tunnelRoute at_ name := by
  funext at_
  by_cases here : at_ = replica
  · subst here
    rw [putTunnelLocal, tunnelRoute, routes_onReplica_self, Table.find_insert,
      Table.find_delete]
    by_cases same : tunnel.label = name
    · simp [same, TunnelEntry.label]
    · simp [same, Ne.symm same, TunnelEntry.label, tunnelRoute]
  · rw [putTunnelLocal, tunnelRoute_onReplica_of_ne here]
    split
    · rw [Function.update_of_ne here]
    · rfl

theorem tunnelRoute_takeTunnelLocal :
    (fun at_ => (store.takeTunnelLocal replica label).tunnelRoute at_ name) =
      if label = name then
        Function.update (fun at_ => store.tunnelRoute at_ name) replica none
      else fun at_ => store.tunnelRoute at_ name := by
  funext at_
  by_cases here : at_ = replica
  · subst here
    rw [takeTunnelLocal, tunnelRoute, routes_onReplica_self, Table.find_delete]
    by_cases same : label = name
    · simp [same]
    · simp [same, Ne.symm same, tunnelRoute]
  · rw [takeTunnelLocal, tunnelRoute_onReplica_of_ne here]
    split
    · rw [Function.update_of_ne here]
    · rfl

/-- A change of the clocks changes no route. -/
theorem tunnelRoute_update {change : TunnelEntry → TunnelEntry}
    (keeps : ∀ entry, (change entry).tunnel = entry.tunnel) :
    (store.onReplica replica (Table.update TunnelEntry.label label change)).tunnelRoute =
      store.tunnelRoute := by
  funext at_ name
  by_cases here : at_ = replica
  · subst here
    have keepsLabel : ∀ entry, entry.label = label → (change entry).label = entry.label :=
      fun entry _ => congrArg Tunnel.label (keeps entry)
    rw [tunnelRoute, routes_onReplica_self, Table.find_update keepsLabel]
    split
    · rw [Option.map_map, tunnelRoute]
      congr 1
      funext entry
      exact keeps entry
    · rfl
  · exact tunnelRoute_onReplica_of_ne here

/-- A message of another replica writes the receiver's route of its label, and
nothing else. -/
theorem handleBus_tunnelRoute {origin : Replica} {written : Option Tunnel}
    (differs : origin ≠ replica) :
    ∃ routes,
      store.handleBus replica now (.tunnelRoute origin label written) =
        { store with routes } ∧
      ∀ name, (fun at_ => tunnelRoute { store with routes } at_ name) =
        (about name (.tunnelRoute origin label written)).elim
          (fun at_ => store.tunnelRoute at_ name)
          (Function.update (fun at_ => store.tunnelRoute at_ name) replica) := by
  have takes : ∀ name,
      (fun at_ => (store.takeTunnelLocal replica label).tunnelRoute at_ name) =
        (if label = name then some none else none).elim
          (fun at_ => store.tunnelRoute at_ name)
          (Function.update (fun at_ => store.tunnelRoute at_ name) replica) := by
    intro name
    rw [tunnelRoute_takeTunnelLocal]
    split <;> rfl
  unfold handleBus
  dsimp only
  rw [if_neg differs]
  cases written with
  | none => exact ⟨_, rfl, takes⟩
  | some tunnel =>
      by_cases same : tunnel.label = label
      · refine ⟨_, if_pos same, fun name => ?_⟩
        rw [about, Option.filter_some, if_pos (decide_eq_true same), ← same]
        refine Eq.trans tunnelRoute_putTunnelLocal ?_
        split <;> rfl
      · refine ⟨_, if_neg same, fun name => ?_⟩
        have refused : (some tunnel).filter (·.label = label) = none := by
          simp [same]
        rw [about, refused]
        exact takes name

end Tables

/-- What holds of the tables between two steps of an ordered run: for every label
they settle on the one live tunnel that has it. -/
structure Sound (store : TunnelRoutes Replica) : Prop where
  keyed : Table.Keyed Tunnel.label store.live
  settled : ∀ name, Settled (about name) (Table.find Tunnel.label store.live name)
    (fun replica => store.tunnelRoute replica name) store.mail
  origin : ∀ sender receiver, ∀ message ∈ store.mail sender receiver,
    message.origin = sender

section Invariant

variable {before after store : TunnelRoutes Replica} {replica : Replica} {now : Instant}
  {tunnel : Tunnel} {label name : String}

omit [DecidableEq Replica] in
/-- A replica whose turn it is sees the live tunnel of a label, or writes what is
live already. -/
theorem Sound.live_or (sound : store.Sound) {written : Option Tunnel}
    (inTurn : store.InTurn replica name written) :
    Table.find Tunnel.label store.live name = store.tunnelRoute replica name ∨
      Table.find Tunnel.label store.live name = written := by
  by_cases nothing : ∀ sender, sender ≠ replica →
      writesOf (about name) (store.mail sender replica) = []
  · exact .inl ((sound.settled name).arrived replica nothing).symm
  · right
    push Not at nothing
    obtain ⟨sender, differs, pending⟩ := nothing
    obtain ⟨seen, isLast⟩ : ∃ seen,
        (writesOf (about name) (store.mail sender replica)).getLast? = some seen :=
      ⟨_, List.getLast?_eq_some_getLast pending⟩
    have isLive := (sound.settled name).last sender replica differs seen isLast
    exact isLive.symm.trans (inTurn sender replica differs differs seen isLast)

/-- Taking the one live tunnel of a label out is taking the label out. -/
theorem filter_ne_eq_delete {live : List Tunnel} (keyed : Table.Keyed Tunnel.label live)
    (only : ∀ found ∈ Table.find Tunnel.label live tunnel.label, found = tunnel) :
    live.filter (· ≠ tunnel) = Table.delete Tunnel.label tunnel.label live := by
  apply List.filter_congr
  intro found member
  apply decide_eq_decide.mpr
  constructor
  · intro differs same
    exact differs (only found (same ▸ keyed.find_of_mem member))
  · rintro differs rfl
    exact differs rfl

theorem Sound.put (sound : store.Sound)
    (free : store.tunnelRoute replica tunnel.label = none)
    (inTurn : store.InTurn replica tunnel.label (some tunnel)) :
    Sound
      { store.putTunnelRoute replica now tunnel with
        live := store.live.filter (· ≠ tunnel) ++ [tunnel] } := by
  have only : ∀ found ∈ Table.find Tunnel.label store.live tunnel.label,
      found = tunnel := by
    intro found isFound
    rcases sound.live_or inTurn with isRoute | isTunnel
    · rw [isRoute, free] at isFound
      cases isFound
    · rw [isTunnel] at isFound
      exact (Option.some.inj isFound).symm
  have isDelete := filter_ne_eq_delete sound.keyed only
  constructor
  · rw [isDelete]
    apply sound.keyed.delete.insert
    rw [Table.find_delete, if_pos rfl]
  · intro name
    rw [isDelete, Table.find_insert, Table.find_delete]
    have copies : (fun at_ => (store.putTunnelRoute replica now tunnel).tunnelRoute at_
        name) = if tunnel.label = name then
          Function.update (fun at_ => store.tunnelRoute at_ name) replica (some tunnel)
        else fun at_ => store.tunnelRoute at_ name :=
      tunnelRoute_putTunnelLocal
    change Settled (about name) (Option.or _ _)
      (fun at_ => (store.putTunnelRoute replica now tunnel).tunnelRoute at_ name)
      (store.mail.broadcast replica (.tunnelRoute replica tunnel.label (some tunnel)))
    rw [copies]
    by_cases same : tunnel.label = name
    · subst same
      rw [if_pos rfl, if_pos rfl, if_pos rfl, Option.none_or]
      apply settled_write
      · simp [about]
      · exact inTurn
    · rw [if_neg same, if_neg same, if_neg (Ne.symm same), Option.or_none]
      apply (sound.settled name).broadcast_other
      simp [about, same]
  · intro sender receiver message member
    rcases Mail.mem_broadcast member with old | ⟨rfl, rfl⟩
    · exact sound.origin sender receiver message old
    · rfl

theorem Sound.take (sound : store.Sound)
    (inTurn : (store.tunnelRoute replica label).isSome = true →
      store.InTurn replica label none) :
    (store.takeTunnelRoute replica label).Sound := by
  unfold takeTunnelRoute
  have copies : ∀ name,
      (fun at_ => (store.takeTunnelLocal replica label).tunnelRoute at_ name) =
        if label = name then
          Function.update (fun at_ => store.tunnelRoute at_ name) replica none
        else fun at_ => store.tunnelRoute at_ name :=
    fun name => tunnelRoute_takeTunnelLocal
  cases held : store.tunnelRoute replica label with
  | none =>
      refine ⟨sound.keyed, fun name => ?_, sound.origin⟩
      change Settled (about name) _
        (fun at_ => (store.takeTunnelLocal replica label).tunnelRoute at_ name) store.mail
      rw [copies]
      by_cases same : label = name
      · subst same
        have unchanged : Function.update (fun at_ => store.tunnelRoute at_ label) replica
            none = fun at_ => store.tunnelRoute at_ label := by
          rw [← held]
          exact Function.update_eq_self ..
        rw [if_pos rfl, unchanged]
        exact sound.settled label
      · rw [if_neg same]
        exact sound.settled name
  | some gone =>
      have turn := inTurn (by rw [held]; rfl)
      have isLabel := label_of_tunnelRoute held
      have only : ∀ found ∈ Table.find Tunnel.label store.live gone.label,
          found = gone := by
        intro found isFound
        rw [isLabel] at isFound
        rcases sound.live_or turn with isRoute | isNone
        · rw [isRoute, held] at isFound
          exact (Option.some.inj isFound).symm
        · rw [isNone] at isFound
          cases isFound
      have isDelete := filter_ne_eq_delete sound.keyed only
      rw [isLabel] at isDelete
      constructor
      · change Table.Keyed Tunnel.label (store.live.filter (· ≠ gone))
        rw [isDelete]
        exact sound.keyed.delete
      · intro name
        change Settled (about name)
          (Table.find Tunnel.label (store.live.filter (· ≠ gone)) name)
          (fun at_ => (store.takeTunnelLocal replica label).tunnelRoute at_ name)
          (store.mail.broadcast replica (.tunnelRoute replica label none))
        rw [isDelete, Table.find_delete, copies]
        by_cases same : label = name
        · subst same
          rw [if_pos rfl, if_pos rfl]
          apply settled_write
          · simp [about]
          · exact turn
        · rw [if_neg same, if_neg (Ne.symm same)]
          apply (sound.settled name).broadcast_other
          simp [about, same]
      · intro sender receiver message member
        rcases Mail.mem_broadcast member with old | ⟨rfl, rfl⟩
        · exact sound.origin sender receiver message old
        · rfl

/-- What a replica sends does not put it out of turn. -/
theorem InTurn.take (inTurn : store.InTurn replica name none) :
    (store.takeTunnelRoute replica label).InTurn replica name none := by
  unfold takeTunnelRoute
  split
  · exact inTurn
  · intro sender receiver other differs seen isLast
    apply inTurn sender receiver other differs seen
    have sameMail : store.mail.broadcast replica (.tunnelRoute replica label none) sender
        receiver = store.mail sender receiver := if_neg other
    rw [← sameMail]
    exact isLast

theorem Sound.takeWhere (sound : store.Sound) {hits : TunnelEntry → Bool}
    (inTurn : ∀ entry ∈ store.routes replica, hits entry = true →
      store.InTurn replica entry.label none) :
    (store.takeTunnelsWhere replica hits).Sound := by
  have turns : ∀ label ∈ ((store.routes replica).filter hits).map (·.label),
      store.InTurn replica label none := by
    intro label member
    obtain ⟨entry, isHit, rfl⟩ := List.mem_map.mp member
    obtain ⟨isEntry, isHit⟩ := List.mem_filter.mp isHit
    exact inTurn entry isEntry isHit
  unfold takeTunnelsWhere
  generalize ((store.routes replica).filter hits).map (·.label) = labels at turns ⊢
  clear inTurn
  induction labels generalizing store with
  | nil => exact sound
  | cons label labels ih =>
      rw [List.foldl_cons]
      apply ih
      · exact sound.take fun _ => turns label (List.mem_cons_self ..)
      · intro other member
        exact (turns other (List.mem_cons_of_mem label member)).take

/-- The clocks do not matter. -/
theorem Sound.clocks (sound : store.Sound) {change : TunnelEntry → TunnelEntry}
    (keeps : ∀ entry, (change entry).tunnel = entry.tunnel) :
    (store.onReplica replica (Table.update TunnelEntry.label label change)).Sound := by
  refine ⟨sound.keyed, fun name => ?_, sound.origin⟩
  rw [tunnelRoute_update keeps]
  exact sound.settled name

theorem Sound.touch (sound : store.Sound) {announceAfter : Int} :
    (store.touchTunnel replica now label announceAfter).Sound := by
  unfold touchTunnel
  split
  · exact sound
  · dsimp only
    split
    case isFalse => exact sound.clocks fun _ => rfl
    case isTrue =>
      have touched : (store.onReplica replica (Table.update TunnelEntry.label label
          fun entry => { entry with lastUsed := now, lastAnnounced := some now })).Sound :=
        sound.clocks fun _ => rfl
      refine ⟨touched.keyed, fun name => ?_, ?_⟩
      · exact (touched.settled name).broadcast_other rfl
      · intro sender receiver message member
        rcases Mail.mem_broadcast member with old | ⟨rfl, rfl⟩
        · exact touched.origin sender receiver message old
        · rfl

theorem Sound.deliver {sender receiver : Replica} {message : BusMessage Replica}
    {mail : Mail Replica (BusMessage Replica)} (sound : store.Sound)
    (taken : store.mail.deliver sender receiver = some (message, mail)) :
    ({ store with mail }.handleBus receiver now message).Sound := by
  obtain ⟨rest, queued, _⟩ := Mail.deliver_eq_some_iff.mp taken
  have isFrom : message.origin = sender := by
    apply sound.origin sender receiver
    rw [queued]
    exact List.mem_cons_self ..
  have origin : ∀ source target, ∀ other ∈ mail source target, other.origin = source :=
    fun source target other member =>
      sound.origin source target other (Mail.mem_deliver taken member)
  have settled := fun name => (sound.settled name).deliver taken
  cases message with
  | tunnelUsed from_ label =>
      have sameFrom : from_ = sender := isFrom
      subst sameFrom
      have delivered : Sound { store with mail } := by
        refine ⟨sound.keyed, fun name => ?_, origin⟩
        have arrived := settled name
        split at arrived <;> exact arrived
      unfold handleBus
      dsimp only
      split
      · exact delivered
      · exact delivered.clocks fun _ => rfl
  | tunnelRoute from_ label tunnel =>
      have sameFrom : from_ = sender := isFrom
      subst sameFrom
      by_cases own : from_ = receiver
      · unfold handleBus
        dsimp only
        rw [if_pos own]
        refine ⟨sound.keyed, fun name => ?_, origin⟩
        have arrived := settled name
        rw [if_pos own] at arrived
        exact arrived
      · simp only [if_neg own] at settled
        obtain ⟨routes, handled, copies⟩ :=
          @handleBus_tunnelRoute Replica _ { store with mail } receiver now label from_
            tunnel own
        rw [handled]
        refine ⟨sound.keyed, fun name => ?_, origin⟩
        rw [copies name]
        exact settled name

theorem Sound.step (sound : before.Sound) {taken : TunnelStep Replica}
    (ordered : before.Ordered taken) (stepped : before.step taken = some after) :
    after.Sound := by
  cases taken with
  | openTunnelRoute replica now stem build =>
      cases stepped
      exact sound.put (freeLabel_free_iff.mpr ordered.1) ordered.2
  | takeTunnelRoute replica label =>
      cases stepped
      exact sound.take ordered
  | touchTunnel replica now label announceAfter =>
      cases stepped
      exact sound.touch
  | sweepIdleTunnels replica now idle =>
      cases stepped
      exact sound.takeWhere fun entry member isIdle =>
        ordered entry member (of_decide_eq_true isIdle)
  | takeTunnelsForNode | takeTunnelsForSession =>
      cases stepped
      exact sound.takeWhere fun entry member isHere =>
        ordered entry member (of_decide_eq_true isHere)
  | deliver sender receiver now =>
      obtain ⟨⟨message, mail⟩, delivered, rest⟩ := Option.bind_eq_some_iff.mp stepped
      cases rest
      exact sound.deliver delivered

omit [DecidableEq Replica] in
theorem Sound.agree (sound : store.Sound) (delivered : store.Delivered)
    (replica : Replica) (name : String) :
    store.tunnelRoute replica name = Table.find Tunnel.label store.live name :=
  (sound.settled name).value_eq delivered replica

end Invariant

/-- Replicas that have just started: no tunnel, and nothing in flight. -/
def empty : TunnelRoutes Replica where
  routes := fun _ => []
  mail := Mail.empty
  live := []

omit [DecidableEq Replica] in
theorem sound_empty : (empty : TunnelRoutes Replica).Sound where
  keyed := List.Pairwise.nil
  settled := fun _ => settled_empty fun _ => rfl
  origin := fun _ _ _ member => nomatch member

/-- In every run whose steps are ordered the tables converge, no live tunnel is
lost, and no open publishes at a label that is held. -/
theorem tables_right {labels : List (TunnelStep Replica)}
    (ordered : Along step (fun before label _ => before.Ordered label) empty labels) :
    Along step TablesRight (empty : TunnelRoutes Replica) labels := by
  apply ordered.of_invariant Sound
  · intro before label after sound stepped isOrdered
    exact sound.step isOrdered stepped
  · intro before label after sound stepped isOrdered
    have afterSound := sound.step isOrdered stepped
    constructor
    · rintro replica now stem build rfl
      exact freeLabel_free_iff.mpr isOrdered.1
    · intro delivered first second name
      rw [afterSound.agree delivered first, afterSound.agree delivered second]
    · intro delivered tunnel member replica
      rw [afterSound.agree delivered replica]
      exact afterSound.keyed.find_of_mem member
  · exact sound_empty

section Exhausted

variable {store : TunnelRoutes Replica} {replica : Replica} {now : Instant}
  {stem : String} {build : Tunnel}

/-- The labels of a stem that a replica holds no tunnel at. -/
def freeLabels (store : TunnelRoutes Replica) (replica : Replica) (stem : String) :
    Finset String :=
  (candidates stem).toFinset.filter fun label => store.tunnelRoute replica label = none

/-- An open takes the label it publishes at from the free ones. -/
theorem freeLabels_openTunnelRoute :
    (store.openTunnelRoute replica now stem build).freeLabels replica stem =
      (store.freeLabels replica stem).erase (store.freeLabel replica stem) := by
  ext label
  have copies : (store.openTunnelRoute replica now stem build).tunnelRoute replica label =
      if store.freeLabel replica stem = label then
        some { build with label := store.freeLabel replica stem }
      else store.tunnelRoute replica label := by
    refine (congrFun tunnelRoute_putTunnelLocal replica).trans ?_
    dsimp only
    split
    · exact Function.update_self ..
    · rfl
  simp only [freeLabels, Finset.mem_filter, Finset.mem_erase, copies]
  by_cases same : store.freeLabel replica stem = label
  · simp [same]
  · simp [same, Ne.symm same]

/-- Nothing stops an open once every label is held: it publishes at the stem. -/
theorem not_tablesRight_of_exhausted {n : Nat}
    (few : (store.freeLabels replica stem).card ≤ n) :
    ¬Along step TablesRight store
      (List.replicate (n + 1) (.openTunnelRoute replica now stem build)) := by
  intro right
  induction n generalizing store with
  | zero =>
      have unheld := right.1.unheld replica now stem build rfl
      obtain ⟨label, member, free⟩ := freeLabel_free_iff.mp unheld
      have isFree : label ∈ store.freeLabels replica stem :=
        Finset.mem_filter.mpr ⟨List.mem_toFinset.mpr member, free⟩
      rw [Finset.card_eq_zero.mp (Nat.le_zero.mp few)] at isFree
      exact absurd isFree (Finset.notMem_empty label)
  | succ n ih =>
      have unheld := right.1.unheld replica now stem build rfl
      have isFree : store.freeLabel replica stem ∈ store.freeLabels replica stem :=
        Finset.mem_filter.mpr ⟨List.mem_toFinset.mpr uniqueSubdomain_mem, unheld⟩
      apply ih _ right.2
      rw [freeLabels_openTunnelRoute, Finset.card_erase_of_mem isFree]
      omega

end Exhausted

/-- A tunnel of one port. -/
def aTunnel (port : UInt16) : Tunnel where
  label := ""
  tenantId := 1
  nodeId := 1
  nodeName := "node"
  port := port
  sessionId := none
  createdAt := 0

/-- Two replicas that each open a tunnel for the same stem, before the word of the
other arrives. -/
def openedTogether : List (TunnelStep Bool) :=
  [.openTunnelRoute false 0 "web" (aTunnel 3000),
    .openTunnelRoute true 0 "web" (aTunnel 4000),
    .deliver false true 1, .deliver true false 1]

/-- Two replicas that both close an idle tunnel, the first of which opens the next
one at its label before the word of the second arrives. -/
def reopenedAcross : List (TunnelStep Bool) :=
  [.openTunnelRoute false 0 "web" (aTunnel 3000), .deliver false true 0,
    .sweepIdleTunnels false 900 600, .sweepIdleTunnels true 900 600,
    .openTunnelRoute false 901 "web" (aTunnel 4000),
    .deliver true false 902, .deliver false true 902, .deliver false true 902]

/-- The tables end swapped, the second tunnel is closed where it was opened, and
the ten thousandth tunnel of a stem replaces another. -/
theorem tables_wrong :
    ¬Along step TablesRight empty openedTogether ∧
      ¬Along step TablesRight empty reopenedAcross ∧
      ¬Along step TablesRight (empty : TunnelRoutes Unit)
        (List.replicate 10000 (.openTunnelRoute () 0 "web" (aTunnel 3000))) := by
  refine ⟨fun right => ?_, fun right => ?_, not_tablesRight_of_exhausted ?_⟩
  · obtain ⟨-, -, -, last, -⟩ := right
    exact absurd (last.agree (by decide) false true "web") (by decide)
  · obtain ⟨-, -, -, -, -, -, -, last, -⟩ := right
    exact absurd (last.agree (by decide) false true "web") (by decide)
  · apply (Finset.card_filter_le ..).trans
    apply (List.toFinset_card_le _).trans
    simp [candidates]

/-- Two opens of one stem and a withdrawal, each after the word of the last has
arrived. -/
def openedInTurn : List (TunnelStep Bool) :=
  [.openTunnelRoute false 0 "web" (aTunnel 3000), .deliver false true 1,
    .openTunnelRoute true 2 "web" (aTunnel 4000), .deliver true false 3,
    .takeTunnelRoute false "web", .deliver false true 4]

theorem tables_right_in_turn : Along step TablesRight empty openedInTurn := by
  apply tables_right
  decide

end TunnelRoutes

end NookOs.Ws
