/-
Module: NookOs.Ws.Requests
Purpose: Requests to a node from any replica and the way of the answers back, with
  the pending tables of every replica and the bus between them.
Trusted boundary: none
Main exports: DirectMessage, Registry, Requests, Requests.step, AnswersRight, answers_right
-/
import NookOs.Lib.Broadcast
import NookOs.Lib.Run
import NookOs.Ws.Wire
import Mathlib.Data.Fintype.Basic

namespace NookOs.Ws

open Lib

/-- The messages of the bus that carry requests and answers. -/
inductive DirectMessage (Replica : Type) where
  | toNode (replyTo : Option Replica) (message : ControlToNode)
  | opReply (requestId : RequestId) (payload : OpPayload)
  | gitReply (requestId : RequestId) (payload : GitStatusPayload)
  | tunnelFrame (requestId : RequestId) (frame : TunnelFrame)
deriving DecidableEq

/-- The request a message of the bus is about. -/
def DirectMessage.requestId {Replica : Type} : DirectMessage Replica → RequestId
  | .toNode _ message => message.requestId
  | .opReply requestId _ | .gitReply requestId _ | .tunnelFrame requestId _ => requestId

/-- The answer of a node that a message of the bus carries. -/
def DirectMessage.frame {Replica : Type} : DirectMessage Replica → Option NodeToControl
  | .toNode _ _ => none
  | .opReply requestId payload => some (.opResult requestId payload)
  | .gitReply requestId payload => some (.gitStatusResult requestId payload)
  | .tunnelFrame requestId frame => some (.tunnel requestId frame)

/-- The tables of a replica: `pending_ops`, `pending_git` and `pending_tunnels`,
and beside each the replica that a relayed request came from. -/
structure Registry (Replica : Type) where
  pending : RequestKind → RequestId → Bool
  remotePending : RequestKind → RequestId → Option Replica

/-- The replicas, the bus, and the node.  A request is known by its place in
`requests`; `unread` counts the frames of a tunnel that wait in the channel for its
caller, `answered` is what the node has sent, `resolved` what an entry of a replica was
given, and `abandoned` the exchanges whose caller gave up. -/
structure Requests (Replica : Type) where
  registries : Replica → Registry Replica
  mail : Mail Replica (DirectMessage Replica)
  working : List ControlToNode
  socket : List NodeToControl
  unread : RequestId → Nat
  requests : List (Replica × Verb)
  answered : List NodeToControl
  resolved : List (Replica × NodeToControl)
  abandoned : List RequestId

/-- One call on a replica, a message that arrives at one, a frame the node sends, one
that its owner reads, or one that the caller of a tunnel takes from its channel.
`lease` is the owner a replica believes in, and
`takes` says whether the channel of the node has room. -/
inductive RequestStep (Replica : Type) where
  | requestOp (replica : Replica) (verb : Verb) (lease : Option Replica) (takes : Bool)
  | requestGitStatus (replica : Replica) (lease : Option Replica) (takes : Bool)
  | openTunnel (replica : Replica) (upgrade : Bool) (lease : Option Replica)
      (takes : Bool)
  | deliver (sender receiver : Replica) (takes : Bool)
  | answer (message : ControlToNode) (frame : NodeToControl)
  | receive
  | read (requestId : RequestId)
  | closeTunnel (replica : Replica) (requestId : RequestId)

namespace Requests

variable {Replica : Type} [DecidableEq Replica]

def onRegistry (replica : Replica) (change : Registry Replica → Registry Replica)
    (store : Requests Replica) : Requests Replica :=
  { store with
    registries :=
      Function.update store.registries replica (change (store.registries replica)) }

def setPending (replica : Replica) (kind : RequestKind) (requestId : RequestId)
    (waits : Bool) : Requests Replica → Requests Replica :=
  onRegistry replica fun registry =>
    { registry with
      pending := fun table key =>
        if table = kind ∧ key = requestId then waits else registry.pending table key }

def setRemotePending (replica : Replica) (kind : RequestKind) (requestId : RequestId)
    (requester : Option Replica) : Requests Replica → Requests Replica :=
  onRegistry replica fun registry =>
    { registry with
      remotePending := fun table key =>
        if table = kind ∧ key = requestId then requester
        else registry.remotePending table key }

/-- `Outbound::Direct`. -/
def post (sender receiver : Replica) (message : DirectMessage Replica)
    (store : Requests Replica) : Requests Replica :=
  { store with mail := store.mail.post sender receiver message }

/-- The entry of a replica is given a frame. -/
def resolve (replica : Replica) (frame : NodeToControl) (store : Requests Replica) :
    Requests Replica :=
  { store with resolved := store.resolved ++ [(replica, frame)] }

/-- `try_send`: a channel that is full drops the frame. -/
def handOver (replica : Replica) (requestId : RequestId) (frame : TunnelFrame)
    (store : Requests Replica) : Requests Replica :=
  if store.unread requestId < channelRoom then
    { store.resolve replica (.tunnel requestId frame) with
      unread := Function.update store.unread requestId (store.unread requestId + 1) }
  else store

/-- The message reaches the node. -/
def reach (message : ControlToNode) (store : Requests Replica) : Requests Replica :=
  { store with working := store.working ++ [message] }

/-- Straight to the node where the replica has its socket, else by the bus to the
replica that is believed to. -/
def sendToNode (owner replica : Replica) (lease : Option Replica) (takes : Bool)
    (message : ControlToNode) (store : Requests Replica) : Bool × Requests Replica :=
  if replica = owner then
    if takes then (true, store.reach message) else (false, store)
  else
    match lease.filter (· ≠ replica) with
    | none => (false, store)
    | some target =>
        let replyTo := (requestKind message).map fun _ => replica
        (true, store.post replica target (.toNode replyTo message))

/-- Wait in the table of the family under a fresh id. -/
def register (replica : Replica) (verb : Verb) (store : Requests Replica) :
    Requests Replica :=
  { store with requests := store.requests ++ [(replica, verb)] }.setPending replica
    verb.family store.requests.length true

/-- Wait, and send; the entry goes where nothing was sent. -/
def request (owner replica : Replica) (verb : Verb) (lease : Option Replica)
    (takes : Bool) (store : Requests Replica) : Requests Replica :=
  let requestId := store.requests.length
  let (sent, after) :=
    (store.register replica verb).sendToNode owner replica lease takes ⟨requestId, verb⟩
  if sent then after else after.setPending replica verb.family requestId false

def requestOp (owner replica : Replica) (verb : Verb) (lease : Option Replica)
    (takes : Bool) (store : Requests Replica) : Option (Requests Replica) :=
  if verb.family = .op then some (store.request owner replica verb lease takes) else none

def requestGitStatus (owner replica : Replica) (lease : Option Replica) (takes : Bool) :
    Requests Replica → Requests Replica :=
  request owner replica .getGitStatus lease takes

/-- `open_tunnel` and the request or the upgrade that is sent next. -/
def openTunnel (owner replica : Replica) (upgrade : Bool) (lease : Option Replica)
    (takes : Bool) : Requests Replica → Requests Replica :=
  request owner replica (if upgrade then .tunnelUpgrade else .tunnelRequest) lease takes

/-- An answer that is the whole of it: to the entry that waits here, or back to the
replica that asked. -/
def complete (replica : Replica) (kind : RequestKind) (frame : NodeToControl)
    (reply : DirectMessage Replica) (store : Requests Replica) : Requests Replica :=
  let requestId := frame.requestId
  if (store.registries replica).pending kind requestId then
    (store.setPending replica kind requestId false).resolve replica frame
  else
    match (store.registries replica).remotePending kind requestId with
    | some requester =>
        (store.setRemotePending replica kind requestId none).post replica requester reply
    | none => store

def completeOp (replica : Replica) (requestId : RequestId) (payload : OpPayload) :
    Requests Replica → Requests Replica :=
  complete replica .op (.opResult requestId payload) (.opReply requestId payload)

def completeGitStatus (replica : Replica) (requestId : RequestId)
    (payload : GitStatusPayload) : Requests Replica → Requests Replica :=
  complete replica .git (.gitStatusResult requestId payload) (.gitReply requestId payload)

def closeTunnel (replica : Replica) (requestId : RequestId) (store : Requests Replica) :
    Requests Replica :=
  (store.setPending replica .tunnel requestId false).setRemotePending replica .tunnel
    requestId none

/-- A frame of an exchange, whose terminal frame closes the entries. -/
def tunnelFrame (replica : Replica) (requestId : RequestId) (frame : TunnelFrame)
    (store : Requests Replica) : Requests Replica :=
  let registry := store.registries replica
  let handed :=
    if registry.pending .tunnel requestId then store.handOver replica requestId frame
    else
      match registry.remotePending .tunnel requestId with
      | some requester => store.post replica requester (.tunnelFrame requestId frame)
      | none => store
  if frame.terminal then handed.closeTunnel replica requestId else handed

/-- Who asked is remembered for the families of the list. -/
def remember (replica : Replica) (replyTo : Option Replica) (message : ControlToNode)
    (store : Requests Replica) : Requests Replica :=
  match replyTo.filter (· ≠ replica) with
  | none => store
  | some requester =>
      match requestKind message with
      | some (requestId, kind) =>
          store.setRemotePending replica kind requestId (some requester)
      | none => store

/-- The request arms of `handle_bus`. -/
def handleBus (owner replica : Replica) (takes : Bool) (message : DirectMessage Replica)
    (store : Requests Replica) : Requests Replica :=
  match message with
  | .toNode replyTo message =>
      let remembered := store.remember replica replyTo message
      if replica = owner ∧ takes = true then remembered.reach message else remembered
  | .opReply requestId payload => store.completeOp replica requestId payload
  | .gitReply requestId payload => store.completeGitStatus replica requestId payload
  | .tunnelFrame requestId frame => store.tunnelFrame replica requestId frame

/-- The answers among what the owner reads from the socket of the node. -/
def handleNode (owner : Replica) (frame : NodeToControl) (store : Requests Replica) :
    Requests Replica :=
  match frame with
  | .opResult requestId payload => store.completeOp owner requestId payload
  | .gitStatusResult requestId payload => store.completeGitStatus owner requestId payload
  | .tunnel requestId frame => store.tunnelFrame owner requestId frame

/-- A frame the node sends about a request it is working on, in the family of the
request. -/
def answer (message : ControlToNode) (frame : NodeToControl) (store : Requests Replica) :
    Option (Requests Replica) :=
  if message ∈ store.working ∧ frame.requestId = message.requestId ∧
      frame.family = message.verb.family then
    some
      { store with
        working :=
          if frame.final then store.working.filter (· ≠ message) else store.working
        socket := store.socket ++ [frame]
        answered := store.answered ++ [frame] }
  else none

/-- The caller of a tunnel takes the next frame from its channel. -/
def read (requestId : RequestId) (store : Requests Replica) : Option (Requests Replica) :=
  if 0 < store.unread requestId then
    some
      { store with
        unread := Function.update store.unread requestId (store.unread requestId - 1) }
  else none

/-- The caller of a tunnel gives up. -/
def giveUp (replica : Replica) (requestId : RequestId) (store : Requests Replica) :
    Option (Requests Replica) :=
  if (store.registries replica).pending .tunnel requestId then
    some
      { store.closeTunnel replica requestId with
        abandoned := requestId :: store.abandoned }
  else none

def step (owner : Replica) (store : Requests Replica) :
    RequestStep Replica → Option (Requests Replica)
  | .requestOp replica verb lease takes => store.requestOp owner replica verb lease takes
  | .requestGitStatus replica lease takes =>
      some (store.requestGitStatus owner replica lease takes)
  | .openTunnel replica upgrade lease takes =>
      some (store.openTunnel owner replica upgrade lease takes)
  | .deliver sender receiver takes => do
      let (message, mail) ← store.mail.deliver sender receiver
      some ({ store with mail }.handleBus owner receiver takes message)
  | .answer message frame => store.answer message frame
  | .receive =>
      match store.socket with
      | [] => none
      | frame :: socket => some ({ store with socket }.handleNode owner frame)
  | .read requestId => store.read requestId
  | .closeTunnel replica requestId => store.giveUp replica requestId

/-- Replicas that have just started. -/
def empty : Requests Replica where
  registries := fun _ => ⟨fun _ _ => false, fun _ _ => none⟩
  mail := Mail.empty
  working := []
  socket := []
  unread := fun _ => 0
  requests := []
  answered := []
  resolved := []
  abandoned := []

/-- The frames of a request among some. -/
def framesOf (requestId : RequestId) (frames : List NodeToControl) : List NodeToControl :=
  frames.filter (·.requestId = requestId)

/-- No frame of a request is on its way. -/
def Arrived (store : Requests Replica) (requestId : RequestId) : Prop :=
  framesOf requestId store.socket = [] ∧
    ∀ sender receiver, ∀ message ∈ store.mail sender receiver,
      message.requestId ≠ requestId

/-- What every answer owes the one who asked. -/
structure AnswersRight (store : Requests Replica) : Prop where
  own : ∀ handed ∈ store.resolved, ∃ verb,
    store.requests[handed.2.requestId]? = some (handed.1, verb) ∧
      handed.2.family = verb.family
  once : ∀ requestId,
    framesOf requestId (store.resolved.map Prod.snd) <+:
      framesOf requestId store.answered
  resolved : ∀ requestId, store.Arrived requestId → requestId ∉ store.abandoned →
    framesOf requestId (store.resolved.map Prod.snd) = framesOf requestId store.answered
  closed : ∀ handed ∈ store.resolved, handed.2.final = true → ∀ replica kind,
    (store.registries replica).pending kind handed.2.requestId = false

/-- A request to another replica's node is one that the list names. -/
def Listed (owner : Replica) : RequestStep Replica → Prop
  | .requestOp replica verb _ _ => replica = owner ∨ (requestKind ⟨0, verb⟩).isSome = true
  | _ => True

/-- The answer that a step brings to a replica. -/
def arriving (owner : Replica) (store : Requests Replica) :
    RequestStep Replica → Option (Replica × NodeToControl)
  | .deliver sender receiver _ =>
      ((store.mail sender receiver).head?.bind DirectMessage.frame).map (receiver, ·)
  | .receive => store.socket.head?.map (owner, ·)
  | _ => none

/-- Where the replica has the entry of a tunnel, a frame finds room in the channel. -/
def HasRoom (replica : Replica) (store : Requests Replica) : NodeToControl → Prop
  | .tunnel requestId _ =>
      (store.registries replica).pending .tunnel requestId = true →
        store.unread requestId < channelRoom
  | _ => True

/-- A frame that comes to the entry of a tunnel finds room in the channel. -/
def Roomy (owner : Replica) (store : Requests Replica) (label : RequestStep Replica) :
    Prop :=
  ∀ arrived ∈ store.arriving owner label, store.HasRoom arrived.1 arrived.2

/-- How an answer travels between replicas. -/
def reply : NodeToControl → DirectMessage Replica
  | .opResult requestId payload => .opReply requestId payload
  | .gitStatusResult requestId payload => .gitReply requestId payload
  | .tunnel requestId frame => .tunnelFrame requestId frame

omit [DecidableEq Replica] in
theorem requestId_reply {frame : NodeToControl} :
    (reply frame : DirectMessage Replica).requestId = frame.requestId := by
  cases frame <;> rfl

omit [DecidableEq Replica] in
theorem frame_reply {frame : NodeToControl} :
    (reply frame : DirectMessage Replica).frame = some frame := by
  cases frame <;> rfl

theorem handleBus_reply {owner replica : Replica} {takes : Bool} {frame : NodeToControl}
    {store : Requests Replica} :
    store.handleBus owner replica takes (reply frame) = store.handleNode replica frame := by
  cases frame <;> rfl

end Requests

/-- All that a store holds about one request. -/
structure Exchange (Replica : Type) where
  origin : Option (Replica × Verb)
  pending : Replica → RequestKind → Bool
  remotePending : Replica → RequestKind → Option Replica
  mail : Mail Replica (DirectMessage Replica)
  working : List ControlToNode
  socket : List NodeToControl
  answered : List NodeToControl
  resolved : List (Replica × NodeToControl)
  abandoned : Prop

namespace Requests

variable {Replica : Type} [DecidableEq Replica]

def exchange (store : Requests Replica) (requestId : RequestId) : Exchange Replica where
  origin := store.requests[requestId]?
  pending := fun replica kind => (store.registries replica).pending kind requestId
  remotePending := fun replica kind =>
    (store.registries replica).remotePending kind requestId
  mail := store.mail.only (·.requestId = requestId)
  working := store.working.filter (·.requestId = requestId)
  socket := framesOf requestId store.socket
  answered := framesOf requestId store.answered
  resolved := store.resolved.filter (·.2.requestId = requestId)
  abandoned := requestId ∈ store.abandoned

end Requests

namespace Exchange

variable {Replica : Type} [DecidableEq Replica]

def setPending (replica : Replica) (kind : RequestKind) (waits : Bool)
    (exchange : Exchange Replica) : Exchange Replica :=
  { exchange with
    pending := fun other table =>
      if other = replica ∧ table = kind then waits else exchange.pending other table }

def setRemotePending (replica : Replica) (kind : RequestKind)
    (requester : Option Replica) (exchange : Exchange Replica) : Exchange Replica :=
  { exchange with
    remotePending := fun other table =>
      if other = replica ∧ table = kind then requester
      else exchange.remotePending other table }

def post (sender receiver : Replica) (message : DirectMessage Replica)
    (exchange : Exchange Replica) : Exchange Replica :=
  { exchange with mail := exchange.mail.post sender receiver message }

def resolve (replica : Replica) (frame : NodeToControl) (exchange : Exchange Replica) :
    Exchange Replica :=
  { exchange with resolved := exchange.resolved ++ [(replica, frame)] }

def reach (message : ControlToNode) (exchange : Exchange Replica) : Exchange Replica :=
  { exchange with working := exchange.working ++ [message] }

/-- A frame at a replica: to the entry that waits there, or on to the replica it is
remembered for, and the entry goes with the final one. -/
def hand (replica : Replica) (frame : NodeToControl) (exchange : Exchange Replica) :
    Exchange Replica :=
  if exchange.pending replica frame.family then
    (if frame.final then exchange.setPending replica frame.family false
      else exchange).resolve replica frame
  else
    match exchange.remotePending replica frame.family with
    | some requester =>
        (if frame.final then exchange.setRemotePending replica frame.family none
          else exchange).post replica requester (Requests.reply frame)
    | none => exchange

section Entries

variable {exchange : Exchange Replica} {replica : Replica} {kind : RequestKind}

theorem setPending_false_of_not (absent : exchange.pending replica kind = false) :
    exchange.setPending replica kind false = exchange := by
  have same : (exchange.setPending replica kind false).pending = exchange.pending := by
    funext other table
    simp only [setPending]
    split
    case isFalse => rfl
    case isTrue here => rw [here.1, here.2, absent]
  rw [setPending] at same ⊢
  simp only at same
  rw [same]

theorem setRemotePending_none_of_none (absent : exchange.remotePending replica kind = none) :
    exchange.setRemotePending replica kind none = exchange := by
  have same : (exchange.setRemotePending replica kind none).remotePending =
      exchange.remotePending := by
    funext other table
    simp only [setRemotePending]
    split
    case isFalse => rfl
    case isTrue here => rw [here.1, here.2, absent]
  rw [setRemotePending] at same ⊢
  simp only at same
  rw [same]

end Entries

end Exchange

namespace Requests

section Projection

variable {Replica : Type} [DecidableEq Replica] {store : Requests Replica}
  {replica sender receiver : Replica} {kind : RequestKind} {requestId other : RequestId}
  {waits : Bool} {requester : Option Replica}

omit [DecidableEq Replica] in
theorem pending_exchange : (store.exchange requestId).pending replica kind =
    (store.registries replica).pending kind requestId := rfl

omit [DecidableEq Replica] in
theorem remotePending_exchange : (store.exchange requestId).remotePending replica kind =
    (store.registries replica).remotePending kind requestId := rfl

theorem exchange_setPending :
    (store.setPending replica kind other waits).exchange requestId =
      if other = requestId then (store.exchange requestId).setPending replica kind waits
      else store.exchange requestId := by
  have sameRemote : ∀ key, ((store.setPending replica kind other waits).registries
      key).remotePending = (store.registries key).remotePending := by
    intro key
    by_cases here : key = replica
    · subst here
      simp [setPending, onRegistry]
    · simp [setPending, onRegistry, here]
  have nowPending : ∀ key table, ((store.setPending replica kind other waits).registries
      key).pending table requestId = if key = replica ∧ table = kind ∧ requestId = other
        then waits else (store.registries key).pending table requestId := by
    intro key table
    by_cases here : key = replica
    · subst here
      simp [setPending, onRegistry]
    · simp [setPending, onRegistry, here]
  simp only [exchange, nowPending, sameRemote]
  by_cases same : other = requestId
  · subst same
    simp [Exchange.setPending, setPending, onRegistry]
  · simp [same, Ne.symm same, setPending, onRegistry]

theorem exchange_setRemotePending :
    (store.setRemotePending replica kind other requester).exchange requestId =
      if other = requestId then
        (store.exchange requestId).setRemotePending replica kind requester
      else store.exchange requestId := by
  have samePending : ∀ key, ((store.setRemotePending replica kind other
      requester).registries key).pending = (store.registries key).pending := by
    intro key
    by_cases here : key = replica
    · subst here
      simp [setRemotePending, onRegistry]
    · simp [setRemotePending, onRegistry, here]
  have nowRemote : ∀ key table, ((store.setRemotePending replica kind other
      requester).registries key).remotePending table requestId =
        if key = replica ∧ table = kind ∧ requestId = other then requester
        else (store.registries key).remotePending table requestId := by
    intro key table
    by_cases here : key = replica
    · subst here
      simp [setRemotePending, onRegistry]
    · simp [setRemotePending, onRegistry, here]
  simp only [exchange, nowRemote, samePending]
  by_cases same : other = requestId
  · subst same
    simp [Exchange.setRemotePending, setRemotePending, onRegistry]
  · simp [same, Ne.symm same, setRemotePending, onRegistry]

theorem exchange_post {message : DirectMessage Replica} :
    (store.post sender receiver message).exchange requestId =
      if message.requestId = requestId then
        (store.exchange requestId).post sender receiver message
      else store.exchange requestId := by
  simp only [exchange, post, Mail.only_post]
  by_cases same : message.requestId = requestId
  · simp [same, Exchange.post]
  · simp [same]

omit [DecidableEq Replica] in
theorem exchange_resolve {frame : NodeToControl} :
    (store.resolve replica frame).exchange requestId =
      if frame.requestId = requestId then
        (store.exchange requestId).resolve replica frame
      else store.exchange requestId := by
  simp only [exchange, resolve, List.filter_append]
  by_cases same : frame.requestId = requestId
  · simp [same, Exchange.resolve]
  · simp [same]

omit [DecidableEq Replica] in
theorem exchange_reach {message : ControlToNode} :
    (store.reach message).exchange requestId =
      if message.requestId = requestId then (store.exchange requestId).reach message
      else store.exchange requestId := by
  simp only [exchange, reach, List.filter_append]
  by_cases same : message.requestId = requestId
  · simp [same, Exchange.reach]
  · simp [same]

omit [DecidableEq Replica] in
/-- A frame that finds room in the channel is given to the entry. -/
theorem exchange_handOver {frame : TunnelFrame} (room : store.unread other < channelRoom) :
    (store.handOver replica other frame).exchange requestId =
      if other = requestId then
        (store.exchange requestId).resolve replica (.tunnel other frame)
      else store.exchange requestId := by
  have given : (store.resolve replica (.tunnel other frame)).exchange requestId =
      if other = requestId then
        (store.exchange requestId).resolve replica (.tunnel other frame)
      else store.exchange requestId := exchange_resolve
  rw [handOver, if_pos room]
  exact given

theorem exchange_closeTunnel :
    (store.closeTunnel replica other).exchange requestId =
      if other = requestId then
        ((store.exchange requestId).setPending replica .tunnel false).setRemotePending
          replica .tunnel none
      else store.exchange requestId := by
  rw [closeTunnel, exchange_setRemotePending, exchange_setPending]
  split <;> rfl

/-- A result at a replica does to its own request what a frame does, and nothing to
the others. -/
theorem exchange_complete {frame : NodeToControl} (isFinal : frame.final = true)
    (isKind : frame.family = kind) :
    (store.complete replica kind frame (reply frame)).exchange requestId =
      if frame.requestId = requestId then (store.exchange requestId).hand replica frame
      else store.exchange requestId := by
  subst isKind
  by_cases same : frame.requestId = requestId
  · subst same
    rw [if_pos rfl, complete, Exchange.hand, pending_exchange, remotePending_exchange]
    by_cases waits : (store.registries replica).pending frame.family frame.requestId = true
    · rw [if_pos waits, if_pos waits, if_pos isFinal, exchange_resolve, if_pos rfl,
        exchange_setPending, if_pos rfl]
    · rw [if_neg waits, if_neg waits]
      split
      · rw [exchange_post, if_pos requestId_reply, exchange_setRemotePending, if_pos rfl,
          if_pos isFinal]
      · rfl
  · rw [if_neg same, complete]
    split
    · rw [exchange_resolve, if_neg same, exchange_setPending, if_neg same]
    · split
      · rw [exchange_post, if_neg (requestId_reply.trans_ne same),
          exchange_setRemotePending, if_neg same]
      · rfl

/-- So does a frame of a tunnel that finds room, where no entry stands beside a relayed
one. -/
theorem exchange_tunnelFrame {frame : TunnelFrame}
    (room : store.HasRoom replica (.tunnel other frame))
    (apart : (store.exchange other).pending replica .tunnel = true →
      (store.exchange other).remotePending replica .tunnel = none) :
    (store.tunnelFrame replica other frame).exchange requestId =
      if other = requestId then
        (store.exchange requestId).hand replica (.tunnel other frame)
      else store.exchange requestId := by
  rw [tunnelFrame]
  by_cases same : other = requestId
  · subst same
    have isFinal : (NodeToControl.tunnel other frame).final = frame.terminal := rfl
    have isKind : (NodeToControl.tunnel other frame).family = .tunnel := rfl
    have posted : ∀ requester,
        (store.post replica requester (.tunnelFrame other frame)).exchange other =
          (store.exchange other).post replica requester (.tunnelFrame other frame) :=
      fun requester => exchange_post.trans (if_pos rfl)
    rw [if_pos rfl, Exchange.hand, isFinal, isKind, pending_exchange,
      remotePending_exchange]
    by_cases waits : (store.registries replica).pending .tunnel other = true
    · rw [if_pos waits, if_pos waits]
      have resolved : (store.handOver replica other frame).exchange other =
          (store.exchange other).resolve replica (.tunnel other frame) :=
        (exchange_handOver (room waits)).trans (if_pos rfl)
      split
      · rw [exchange_closeTunnel, if_pos rfl, resolved]
        exact Exchange.setRemotePending_none_of_none (apart waits)
      · exact resolved
    · rw [if_neg waits, if_neg waits]
      have absent := (Bool.not_eq_true _).mp waits
      cases remembered : (store.registries replica).remotePending .tunnel other with
      | some requester =>
          dsimp only
          split
          · rw [exchange_closeTunnel, if_pos rfl, posted,
              Exchange.setPending_false_of_not absent]
            rfl
          · exact posted requester
      | none =>
          dsimp only
          split
          · rw [exchange_closeTunnel, if_pos rfl, Exchange.setPending_false_of_not absent,
              Exchange.setRemotePending_none_of_none remembered]
          · rfl
  · rw [if_neg same]
    have handed : (if (store.registries replica).pending .tunnel other = true then
        store.handOver replica other frame
      else match (store.registries replica).remotePending .tunnel other with
        | some requester => store.post replica requester (.tunnelFrame other frame)
        | none => store).exchange requestId = store.exchange requestId := by
      split
      · rename_i waits
        exact (exchange_handOver (room waits)).trans (if_neg same)
      · split
        · exact exchange_post.trans (if_neg same)
        · rfl
    split
    · rw [exchange_closeTunnel, if_neg same]
      exact handed
    · exact handed

theorem exchange_handleNode {frame : NodeToControl} (room : store.HasRoom replica frame)
    (apart : (store.exchange frame.requestId).pending replica frame.family = true →
      (store.exchange frame.requestId).remotePending replica frame.family = none) :
    (store.handleNode replica frame).exchange requestId =
      if frame.requestId = requestId then (store.exchange requestId).hand replica frame
      else store.exchange requestId := by
  cases frame with
  | opResult | gitStatusResult => exact exchange_complete rfl rfl
  | tunnel other frame => exact exchange_tunnelFrame room apart

theorem exchange_remember_of_ne {replyTo : Option Replica} {message : ControlToNode}
    (differs : message.requestId ≠ requestId) :
    (store.remember replica replyTo message).exchange requestId =
      store.exchange requestId := by
  rw [remember]
  split
  · rfl
  · split
    case h_2 => rfl
    case h_1 other kind listed =>
      have isKey := requestKind_eq listed
      rw [exchange_setRemotePending, if_neg]
      rw [(Prod.mk.inj isKey).1]
      exact differs

theorem exchange_remember {asks : Replica} {message : ControlToNode}
    (listed : requestKind message = some (message.requestId, message.verb.family))
    (differs : asks ≠ replica) :
    (store.remember replica (some asks) message).exchange message.requestId =
      (store.exchange message.requestId).setRemotePending replica message.verb.family
        (some asks) := by
  have remote : (some asks).filter (· ≠ replica) = some asks := by
    simp [differs]
  rw [remember, remote]
  simp only [listed]
  rw [exchange_setRemotePending, if_pos rfl]

end Projection

end Requests

namespace Exchange

variable {Replica : Type} [DecidableEq Replica]

/-- The entries of a request stand in the table of its family: one where it was
asked, and elsewhere the word of who asked. -/
structure Entries (requester : Replica) (kind : RequestKind)
    (exchange : Exchange Replica) : Prop where
  pending : ∀ replica table, exchange.pending replica table = true →
    replica = requester ∧ table = kind
  remote : ∀ replica table other, exchange.remotePending replica table = some other →
    replica ≠ requester ∧ table = kind ∧ other = requester
  gone : exchange.abandoned → exchange.pending requester kind = false

/-- The caller waits, or has given up. -/
def Waiting (requester : Replica) (kind : RequestKind) (exchange : Exchange Replica) :
    Prop :=
  exchange.pending requester kind = true ∨ exchange.abandoned

/-- The request is on its way to the node, or will never reach it. -/
structure Asking (requestId : RequestId) (requester : Replica) (verb : Verb)
    (exchange : Exchange Replica) : Prop where
  entries : exchange.Entries requester verb.family
  asks : exchange.mail = Mail.empty ∨
    ∃ target, target ≠ requester ∧
      exchange.mail =
        Mail.single requester target [.toNode (some requester) ⟨requestId, verb⟩] ∧
      requestKind ⟨requestId, verb⟩ = some (requestId, verb.family) ∧
      exchange.Waiting requester verb.family
  working : exchange.working = []
  socket : exchange.socket = []
  answered : exchange.answered = []
  resolved : exchange.resolved = []

/-- What holds of a request that has reached the node, wherever its frames are. -/
structure Kept (requestId : RequestId) (requester : Replica) (verb : Verb)
    (exchange : Exchange Replica) : Prop where
  entries : exchange.Entries requester verb.family
  working : exchange.working = [] ∨
    exchange.working = [⟨requestId, verb⟩] ∧
      ∀ frame ∈ exchange.answered, frame.final = false
  family : ∀ frame ∈ exchange.answered, frame.family = verb.family
  ending : ∀ earlier frame later, exchange.answered = earlier ++ frame :: later →
    frame.final = true → later = []
  handed : ∀ handed ∈ exchange.resolved, handed.1 = requester
  closed : ∀ handed ∈ exchange.resolved, handed.2.final = true →
    exchange.pending requester verb.family = false

/-- The frames of the node in the order they are on their way: those the entry was
given, those that came after the caller had left, those on the bus, and those on the
socket. -/
structure Flow (owner requester : Replica) (kind : RequestKind)
    (exchange : Exchange Replica) (lost replies : List NodeToControl) : Prop where
  mail : exchange.mail = Mail.single owner requester (replies.map Requests.reply)
  remote : replies ≠ [] → requester ≠ owner
  left : lost ≠ [] → exchange.abandoned
  answered : exchange.answered =
    exchange.resolved.map Prod.snd ++ lost ++ replies ++ exchange.socket
  waiting : exchange.working ≠ [] ∨ replies ≠ [] ∨ exchange.socket ≠ [] →
    exchange.Waiting requester kind
  way : requester ≠ owner → exchange.working ≠ [] ∨ exchange.socket ≠ [] →
    exchange.remotePending owner kind = some requester

def Reached (owner : Replica) (requestId : RequestId) (requester : Replica) (verb : Verb)
    (exchange : Exchange Replica) : Prop :=
  exchange.Kept requestId requester verb ∧
    ∃ lost replies, exchange.Flow owner requester verb.family lost replies

section Handing

variable {owner requester : Replica} {requestId : RequestId} {verb : Verb}
  {exchange : Exchange Replica} {frame : NodeToControl} {rest lost : List NodeToControl}

omit [DecidableEq Replica] in
/-- After the final frame nothing is left to come. -/
theorem Kept.final_last (kept : exchange.Kept requestId requester verb)
    {earlier : List NodeToControl} (answered : exchange.answered = earlier ++ frame :: rest)
    (isFinal : frame.final = true) : exchange.working = [] ∧ rest = [] := by
  constructor
  · rcases kept.working with idle | ⟨_, open_⟩
    · exact idle
    · have member : frame ∈ exchange.answered := by
        rw [answered]
        simp
      rw [open_ frame member] at isFinal
      cases isFinal
  · exact kept.ending earlier frame rest answered isFinal

theorem Entries.setPending {kind : RequestKind} (entries : exchange.Entries requester kind) :
    (exchange.setPending requester kind false).Entries requester kind where
  pending := by
    intro replica table waits
    simp only [Exchange.setPending] at waits
    split at waits
    case isTrue => cases waits
    case isFalse => exact entries.pending replica table waits
  remote := entries.remote
  gone := fun _ => if_pos ⟨rfl, rfl⟩

/-- A frame at the one who asked is given to the entry, or lost on a caller who has
left. -/
theorem Kept.hand (kept : exchange.Kept requestId requester verb)
    (left : lost ≠ [] → exchange.abandoned) (waiting : exchange.Waiting requester verb.family)
    (answered : exchange.answered = exchange.resolved.map Prod.snd ++ lost ++ frame :: rest) :
    (exchange.hand requester frame).Kept requestId requester verb ∧
      ∃ pending resolved lost', exchange.hand requester frame =
        { exchange with pending, resolved } ∧
        (lost' ≠ [] → exchange.abandoned) ∧
        exchange.answered = resolved.map Prod.snd ++ lost' ++ rest ∧
        (frame.final = false → pending = exchange.pending) := by
  have isKind : frame.family = verb.family := by
    apply kept.family
    rw [answered]
    simp
  rw [Exchange.hand, isKind]
  by_cases waits : exchange.pending requester verb.family = true
  · rw [if_pos waits]
    have noneLost : lost = [] := by
      by_contra some_
      rw [kept.entries.gone (left some_)] at waits
      cases waits
    subst noneLost
    have inOrder : exchange.answered =
        (exchange.resolved ++ [(requester, frame)]).map Prod.snd ++ [] ++ rest := by
      rw [answered]
      simp
    have ofRequester : ∀ handed ∈ exchange.resolved ++ [(requester, frame)],
        handed.1 = requester := by
      intro handed member
      rcases List.mem_append.mp member with old | new
      · exact kept.handed handed old
      · rw [List.mem_singleton.mp new]
    cases isFinal : frame.final with
    | false =>
        rw [if_neg (by decide)]
        refine ⟨⟨⟨kept.entries.pending, kept.entries.remote, kept.entries.gone⟩,
          kept.working, kept.family, kept.ending, ofRequester, ?_⟩,
          exchange.pending, exchange.resolved ++ [(requester, frame)], [], rfl,
          fun some_ => absurd rfl some_, inOrder, fun _ => rfl⟩
        intro handed member final
        rcases List.mem_append.mp member with old | new
        · exact kept.closed handed old final
        · rw [List.mem_singleton.mp new, isFinal] at final
          cases final
    | true =>
        rw [if_pos rfl]
        have after := kept.entries.setPending
        exact ⟨⟨⟨after.pending, after.remote, after.gone⟩,
          kept.working, kept.family, kept.ending, ofRequester,
          fun _ _ _ => if_pos ⟨rfl, rfl⟩⟩,
          (exchange.setPending requester verb.family false).pending,
          exchange.resolved ++ [(requester, frame)], [], rfl,
          fun some_ => absurd rfl some_, inOrder, fun open_ => nomatch open_⟩
  · have abandoned := waiting.resolve_left waits
    have notRemote : exchange.remotePending requester verb.family = none := by
      cases remembered : exchange.remotePending requester verb.family with
      | none => rfl
      | some other => exact absurd rfl (kept.entries.remote _ _ _ remembered).1
    rw [if_neg waits, notRemote]
    refine ⟨kept, exchange.pending, exchange.resolved, lost ++ [frame], rfl,
      fun _ => abandoned, ?_, fun _ => rfl⟩
    rw [answered]
    simp

omit [DecidableEq Replica] in
theorem Kept.moved (kept : exchange.Kept requestId requester verb)
    {mail : Mail Replica (DirectMessage Replica)} {socket : List NodeToControl} :
    ({ exchange with mail, socket } : Exchange Replica).Kept requestId requester verb :=
  ⟨⟨kept.entries.pending, kept.entries.remote, kept.entries.gone⟩, kept.working,
    kept.family, kept.ending, kept.handed, kept.closed⟩

/-- The next frame is handed over where the rest keep their order. -/
theorem Kept.reached_hand (kept : exchange.Kept requestId requester verb)
    {replies : List NodeToControl}
    (mail : exchange.mail = Mail.single owner requester (replies.map Requests.reply))
    (remote : replies ≠ [] → requester ≠ owner)
    (left : lost ≠ [] → exchange.abandoned)
    (waiting : exchange.Waiting requester verb.family)
    (answered : exchange.answered = exchange.resolved.map Prod.snd ++ lost ++
      frame :: (replies ++ exchange.socket))
    (way : requester ≠ owner → exchange.working ≠ [] ∨ exchange.socket ≠ [] →
      exchange.remotePending owner verb.family = some requester) :
    (exchange.hand requester frame).Reached owner requestId requester verb := by
  obtain ⟨keptAfter, pending, resolved, lost', isAfter, leftAfter, answeredAfter,
    samePending⟩ := kept.hand left waiting answered
  refine ⟨keptAfter, lost', replies, ?_⟩
  rw [isAfter]
  refine ⟨mail, remote, leftAfter, ?_, ?_, way⟩
  · rw [answeredAfter, List.append_assoc _ replies]
  · intro more
    cases isFinal : frame.final with
    | false =>
        rw [samePending isFinal]
        exact waiting
    | true =>
        obtain ⟨idle, none⟩ := kept.final_last answered isFinal
        obtain ⟨noReplies, noSocket⟩ := List.append_eq_nil_iff.mp none
        rcases more with busy | some_ | some_
        · exact absurd idle busy
        · exact absurd noReplies some_
        · exact absurd noSocket some_

/-- A frame that comes off the bus. -/
theorem Reached.arrive (reached : exchange.Reached owner requestId requester verb)
    {sender receiver : Replica} {message : DirectMessage Replica}
    {mail : Mail Replica (DirectMessage Replica)}
    (taken : exchange.mail.deliver sender receiver = some (message, mail)) :
    ∃ frame, message = Requests.reply frame ∧
      (Exchange.hand receiver frame { exchange with mail }).Reached owner requestId
        requester verb := by
  obtain ⟨kept, lost, replies, flow⟩ := reached
  rw [flow.mail] at taken
  obtain ⟨-, rfl, queue, isQueue, rfl⟩ := Mail.deliver_single_iff.mp taken
  obtain ⟨frame, later, rfl, rfl, rfl⟩ := List.map_eq_cons_iff.mp isQueue
  refine ⟨frame, rfl, ?_⟩
  have coming : frame :: later ≠ [] := List.cons_ne_nil frame later
  apply kept.moved.reached_hand
  · rfl
  · exact fun _ => flow.remote coming
  · exact flow.left
  · exact flow.waiting (.inr (.inl coming))
  · rw [flow.answered]
    simp
  · exact flow.way

theorem Entries.setRemotePending {kind table : RequestKind} {replica : Replica}
    (entries : exchange.Entries requester kind) :
    (exchange.setRemotePending replica table none).Entries requester kind where
  pending := entries.pending
  remote := by
    intro other table asked remembered
    simp only [Exchange.setRemotePending] at remembered
    split at remembered
    case isTrue => cases remembered
    case isFalse => exact entries.remote other table asked remembered
  gone := entries.gone

/-- A frame that the owner of the node reads from its socket. -/
theorem Reached.receive (reached : exchange.Reached owner requestId requester verb)
    (read : exchange.socket = frame :: rest) :
    (Exchange.hand owner frame { exchange with socket := rest }).Reached owner requestId
      requester verb := by
  obtain ⟨kept, lost, replies, flow⟩ := reached
  have some_ : exchange.socket ≠ [] := by
    rw [read]
    exact List.cons_ne_nil frame rest
  have waiting := flow.waiting (.inr (.inr some_))
  have answered := flow.answered
  rw [read] at answered
  by_cases isOwner : requester = owner
  · subst isOwner
    have noReplies : replies = [] := by
      by_contra some_
      exact flow.remote some_ rfl
    subst noReplies
    apply kept.moved.reached_hand
    · exact flow.mail
    · exact fun some_ => absurd rfl some_
    · exact flow.left
    · exact waiting
    · rw [answered]
      simp
    · exact fun differs => absurd rfl differs
  · have isKind : frame.family = verb.family := by
      apply kept.family
      rw [answered]
      simp
    have notHere : exchange.pending owner verb.family ≠ true := by
      intro waits
      exact isOwner (kept.entries.pending _ _ waits).1.symm
    have way := flow.way isOwner (.inr some_)
    have last : frame.final = true → exchange.working = [] ∧ rest = [] :=
      kept.final_last answered
    have moved : ({ exchange with socket := rest } : Exchange Replica).Kept requestId
        requester verb := kept.moved
    rw [Exchange.hand, isKind, if_neg notHere]
    simp only [way]
    have mail : exchange.mail.post owner requester (Requests.reply frame) =
        Mail.single owner requester ((replies ++ [frame]).map Requests.reply) := by
      rw [flow.mail, Mail.post_single, List.map_append]
      rfl
    have inOrder : exchange.answered = exchange.resolved.map Prod.snd ++ lost ++
        (replies ++ [frame]) ++ rest := by
      rw [answered]
      simp
    cases isFinal : frame.final with
    | false =>
        rw [if_neg (by decide)]
        exact ⟨moved.moved, lost, replies ++ [frame], mail, fun _ => isOwner, flow.left,
          inOrder, fun _ => waiting, fun _ _ => way⟩
    | true =>
        rw [if_pos rfl]
        have after : Entries requester verb.family (Exchange.setRemotePending owner
            verb.family none { exchange with socket := rest }) :=
          moved.entries.setRemotePending
        refine ⟨⟨⟨after.pending, after.remote, after.gone⟩, kept.working, kept.family,
          kept.ending, kept.handed, kept.closed⟩, lost, replies ++ [frame], mail,
          fun _ => isOwner, flow.left, inOrder, fun _ => waiting, ?_⟩
        intro _ more
        obtain ⟨idle, none⟩ := last isFinal
        rcases more with busy | some_
        · exact absurd idle busy
        · exact absurd none some_

/-- The request has reached the node, and nothing has come of it so far. -/
theorem Asking.reach (asking : exchange.Asking requestId requester verb)
    (nothing : exchange.mail = Mail.empty) (waiting : exchange.Waiting requester verb.family)
    (way : requester ≠ owner → exchange.remotePending owner verb.family = some requester) :
    (exchange.reach ⟨requestId, verb⟩).Reached owner requestId requester verb := by
  have noAnswer : ∀ frame, frame ∉ exchange.answered := by
    rw [asking.answered]
    exact fun _ => List.not_mem_nil
  have noneHanded : ∀ handed, handed ∉ exchange.resolved := by
    rw [asking.resolved]
    exact fun _ => List.not_mem_nil
  refine ⟨⟨⟨asking.entries.pending, asking.entries.remote, asking.entries.gone⟩,
    .inr ⟨congrArg (· ++ [_]) asking.working, fun frame member =>
      absurd member (noAnswer frame)⟩, fun frame member => absurd member (noAnswer frame),
    ?_, fun handed member => absurd member (noneHanded handed),
    fun handed member => absurd member (noneHanded handed)⟩, [], [],
    nothing.trans Mail.single_nil.symm, fun some_ => absurd rfl some_,
    fun some_ => absurd rfl some_, ?_, fun _ => waiting, fun differs _ => way differs⟩
  · intro earlier frame later answered
    apply absurd _ (noAnswer frame)
    change exchange.answered = _ at answered
    rw [answered]
    simp
  · change exchange.answered = exchange.resolved.map Prod.snd ++ [] ++ [] ++ exchange.socket
    rw [asking.answered, asking.resolved, asking.socket]
    rfl

/-- A request that comes off the bus is remembered where it arrives, and reaches the
node where that is the owner. -/
theorem Asking.arrive (asking : exchange.Asking requestId requester verb)
    {sender receiver : Replica} {message : DirectMessage Replica}
    {mail : Mail Replica (DirectMessage Replica)}
    (taken : exchange.mail.deliver sender receiver = some (message, mail)) :
    message = .toNode (some requester) ⟨requestId, verb⟩ ∧ requester ≠ receiver ∧
      requestKind ⟨requestId, verb⟩ = some (requestId, verb.family) ∧
      (Exchange.setRemotePending receiver verb.family (some requester)
        { exchange with mail }).Asking requestId requester verb ∧
      (receiver = owner →
        (Exchange.reach ⟨requestId, verb⟩ (Exchange.setRemotePending receiver verb.family
          (some requester) { exchange with mail })).Reached owner requestId requester
            verb) := by
  rcases asking.asks with nothing | ⟨target, differs, isMail, listed, waiting⟩
  · rw [nothing] at taken
    cases taken
  · rw [isMail] at taken
    obtain ⟨-, rfl, queue, isQueue, rfl⟩ := Mail.deliver_single_iff.mp taken
    obtain ⟨rfl, rfl⟩ := List.cons.inj isQueue
    have remembered : (Exchange.setRemotePending receiver verb.family (some requester)
        { exchange with mail := Mail.single requester receiver [] }).Asking requestId
          requester verb := by
      refine ⟨⟨asking.entries.pending, ?_, asking.entries.gone⟩, .inl Mail.single_nil,
        asking.working, asking.socket, asking.answered, asking.resolved⟩
      intro replica table other remembered
      simp only [Exchange.setRemotePending] at remembered
      split at remembered
      case isTrue here =>
        cases remembered
        exact ⟨here.1 ▸ differs, here.2, rfl⟩
      case isFalse => exact asking.entries.remote replica table other remembered
    refine ⟨rfl, Ne.symm differs, listed, remembered, ?_⟩
    intro isOwner
    exact remembered.reach Mail.single_nil waiting fun _ => if_pos ⟨isOwner.symm, rfl⟩

/-- The node sends a frame about a request it works on. -/
def send (message : ControlToNode) (frame : NodeToControl) (exchange : Exchange Replica) :
    Exchange Replica :=
  { exchange with
    working :=
      if frame.final then exchange.working.filter (· ≠ message) else exchange.working
    socket := exchange.socket ++ [frame]
    answered := exchange.answered ++ [frame] }

theorem Reached.send (reached : exchange.Reached owner requestId requester verb)
    {message : ControlToNode} (busy : message ∈ exchange.working)
    (isKind : frame.family = message.verb.family) :
    (exchange.send message frame).Reached owner requestId requester verb := by
  obtain ⟨kept, lost, replies, flow⟩ := reached
  have isBusy : exchange.working ≠ [] := List.ne_nil_of_mem busy
  obtain ⟨isMessage, open_⟩ := kept.working.resolve_left isBusy
  rw [isMessage] at busy
  obtain rfl := List.mem_singleton.mp busy
  have waiting := flow.waiting (.inl isBusy)
  refine ⟨⟨⟨kept.entries.pending, kept.entries.remote, kept.entries.gone⟩, ?_, ?_, ?_,
    kept.handed, kept.closed⟩, lost, replies, flow.mail, flow.remote, flow.left, ?_,
    fun _ => waiting, fun differs _ => flow.way differs (.inl isBusy)⟩
  · cases isFinal : frame.final with
    | true =>
        left
        simp [Exchange.send, isFinal, isMessage]
    | false =>
        refine .inr ⟨(if_neg (by simp [isFinal])).trans isMessage, ?_⟩
        intro other member
        rcases List.mem_append.mp member with old | new
        · exact open_ other old
        · rw [List.mem_singleton.mp new, isFinal]
  · intro other member
    rcases List.mem_append.mp member with old | new
    · exact kept.family other old
    · rw [List.mem_singleton.mp new]
      exact isKind
  · -- no frame before this one is final
    intro earlier other later answered isFinal
    rcases List.eq_nil_or_concat later with none | ⟨before, last, rfl⟩
    · exact none
    · rw [List.concat_eq_append, ← List.cons_append, ← List.append_assoc] at answered
      obtain ⟨isOld, -⟩ := List.append_inj' answered rfl
      have member : other ∈ exchange.answered := by
        rw [isOld]
        simp
      rw [open_ other member] at isFinal
      cases isFinal
  · change exchange.answered ++ [frame] = exchange.resolved.map Prod.snd ++ lost ++ replies ++
      (exchange.socket ++ [frame])
    rw [flow.answered, List.append_assoc _ exchange.socket]

/-- What is left of a request whose caller gives up. -/
def leave (replica : Replica) (exchange : Exchange Replica) : Exchange Replica :=
  { (exchange.setPending replica .tunnel false).setRemotePending replica .tunnel none with
    abandoned := True }

theorem Entries.leave {replica : Replica} {kind : RequestKind}
    (entries : exchange.Entries requester kind) (waits : exchange.pending replica .tunnel = true) :
    (exchange.leave replica).Entries requester kind := by
  have after : Entries requester kind (Exchange.setRemotePending replica .tunnel none
      (exchange.setPending requester kind false)) :=
    entries.setPending.setRemotePending
  obtain ⟨rfl, rfl⟩ := entries.pending replica .tunnel waits
  exact ⟨after.pending, after.remote, fun _ => if_pos ⟨rfl, rfl⟩⟩

theorem Asking.leave {replica : Replica} (asking : exchange.Asking requestId requester verb)
    (waits : exchange.pending replica .tunnel = true) :
    (exchange.leave replica).Asking requestId requester verb := by
  refine ⟨asking.entries.leave waits, ?_, asking.working, asking.socket, asking.answered,
    asking.resolved⟩
  rcases asking.asks with nothing | ⟨target, differs, isMail, listed, -⟩
  · exact .inl nothing
  · exact .inr ⟨target, differs, isMail, listed, .inr trivial⟩

theorem Reached.leave {replica : Replica}
    (reached : exchange.Reached owner requestId requester verb)
    (waits : exchange.pending replica .tunnel = true) :
    (exchange.leave replica).Reached owner requestId requester verb := by
  obtain ⟨kept, lost, replies, flow⟩ := reached
  have entries := kept.entries.leave waits
  obtain ⟨rfl, isKind⟩ := kept.entries.pending replica .tunnel waits
  refine ⟨⟨entries, kept.working, kept.family, kept.ending, kept.handed,
    fun _ _ _ => entries.gone trivial⟩, lost, replies, flow.mail, flow.remote,
    fun _ => trivial, flow.answered, fun _ => .inr trivial, ?_⟩
  intro differs more
  refine (if_neg ?_).trans (flow.way differs more)
  rintro ⟨isRequester, -⟩
  exact differs isRequester.symm

/-- Nothing is known of the request. -/
def blank : Exchange Replica where
  origin := none
  pending := fun _ _ => false
  remotePending := fun _ _ => none
  mail := Mail.empty
  working := []
  socket := []
  answered := []
  resolved := []
  abandoned := False

/-- A request that has only just been made. -/
def fresh (requester : Replica) (verb : Verb) : Exchange Replica :=
  setPending requester verb.family true { blank with origin := some (requester, verb) }

theorem fresh_asking : (fresh requester verb).Asking requestId requester verb where
  entries := by
    refine ⟨?_, fun _ _ _ remembered => ?_, fun left => left.elim⟩
    · intro replica table waits
      simp only [fresh, setPending] at waits
      split at waits
      case isTrue here => exact here
      case isFalse => cases waits
    · cases remembered
  asks := .inl rfl
  working := rfl
  socket := rfl
  answered := rfl
  resolved := rfl

theorem fresh_waiting : (fresh requester verb).Waiting requester verb.family :=
  .inl (if_pos ⟨rfl, rfl⟩)

theorem Asking.post (asking : exchange.Asking requestId requester verb)
    {target : Replica} (differs : target ≠ requester) (nothing : exchange.mail = Mail.empty)
    (listed : requestKind ⟨requestId, verb⟩ = some (requestId, verb.family))
    (waiting : exchange.Waiting requester verb.family) :
    (exchange.post requester target (.toNode (some requester) ⟨requestId, verb⟩)).Asking
      requestId requester verb := by
  refine ⟨⟨asking.entries.pending, asking.entries.remote, asking.entries.gone⟩,
    .inr ⟨target, differs, ?_, listed, waiting⟩, asking.working, asking.socket,
    asking.answered, asking.resolved⟩
  rw [Exchange.post, nothing, ← @Mail.single_nil _ _ _ requester target, Mail.post_single]
  rfl

theorem Asking.takenBack (asking : exchange.Asking requestId requester verb)
    (nothing : exchange.mail = Mail.empty) :
    (exchange.setPending requester verb.family false).Asking requestId requester verb :=
  ⟨asking.entries.setPending, .inl nothing, asking.working, asking.socket, asking.answered,
    asking.resolved⟩

/-- What holds of a request between two steps. -/
def Right (owner : Replica) (requestId : RequestId) (exchange : Exchange Replica) : Prop :=
  match exchange.origin with
  | none => exchange = blank
  | some (requester, verb) =>
      exchange.Asking requestId requester verb ∨
        exchange.Reached owner requestId requester verb

theorem right_iff (origin : exchange.origin = some (requester, verb)) :
    exchange.Right owner requestId ↔
      exchange.Asking requestId requester verb ∨
        exchange.Reached owner requestId requester verb := by
  rw [Right, origin]

theorem origin_hand {replica : Replica} :
    (exchange.hand replica frame).origin = exchange.origin := by
  rw [hand]
  split
  · split <;> rfl
  · split
    · split <;> rfl
    · rfl

/-- A request that something is in flight of has been made. -/
theorem Right.origin_of_deliver (right : exchange.Right owner requestId) {sender receiver : Replica}
    {message : DirectMessage Replica} {mail : Mail Replica (DirectMessage Replica)}
    (taken : exchange.mail.deliver sender receiver = some (message, mail)) :
    ∃ requester verb, exchange.origin = some (requester, verb) := by
  cases origin : exchange.origin with
  | some asked => exact ⟨asked.1, asked.2, rfl⟩
  | none =>
      rw [Right, origin] at right
      rw [right] at taken
      cases taken

/-- No replica has an entry and the word of somebody else for one request. -/
theorem Right.apart (right : exchange.Right owner requestId) {replica : Replica}
    {kind : RequestKind} (waits : exchange.pending replica kind = true) :
    exchange.remotePending replica kind = none := by
  have isApart : ∀ requester table, exchange.Entries requester table →
      exchange.remotePending replica kind = none := by
    intro requester table entries
    cases remembered : exchange.remotePending replica kind with
    | none => rfl
    | some other =>
        exact absurd (entries.pending _ _ waits).1 (entries.remote _ _ _ remembered).1
  unfold Right at right
  split at right
  · rw [right]
    rfl
  · rcases right with asking | reached
    · exact isApart _ _ asking.entries
    · exact isApart _ _ reached.1.entries

end Handing

end Exchange

namespace Requests

variable {Replica : Type} [DecidableEq Replica]

def Sound (owner : Replica) (store : Requests Replica) : Prop :=
  ∀ requestId, (store.exchange requestId).Right owner requestId

section Steps

variable {store : Requests Replica} {owner replica : Replica} {requestId : RequestId}
  {verb : Verb} {lease : Option Replica} {takes : Bool}

omit [DecidableEq Replica] in
theorem exchange_append {asked : Replica × Verb} :
    ({ store with requests := store.requests ++ [asked] } : Requests Replica).exchange
        requestId =
      if store.requests.length = requestId then
        { store.exchange requestId with origin := some asked }
      else store.exchange requestId := by
  by_cases same : store.requests.length = requestId
  · subst same
    rw [if_pos rfl]
    simp [exchange]
  · rw [if_neg same]
    have sameOrigin : (store.requests ++ [asked])[requestId]? =
        store.requests[requestId]? := by
      rcases Nat.lt_or_ge requestId store.requests.length with known | unknown
      · exact List.getElem?_append_left known
      · rw [List.getElem?_eq_none unknown, List.getElem?_eq_none]
        rw [List.length_append, List.length_singleton]
        omega
    simp [exchange, sameOrigin]

/-- A request reaches the node, goes out on the bus, or is taken back. -/
theorem request_cases :
    (replica = owner ∧ store.request owner replica verb lease takes =
        (store.register replica verb).reach ⟨store.requests.length, verb⟩) ∨
      (replica ≠ owner ∧ ∃ target, target ≠ replica ∧
        store.request owner replica verb lease takes =
          (store.register replica verb).post replica target
            (.toNode ((requestKind ⟨store.requests.length, verb⟩).map fun _ => replica)
              ⟨store.requests.length, verb⟩)) ∨
      store.request owner replica verb lease takes =
        (store.register replica verb).setPending replica verb.family
          store.requests.length false := by
  rw [request]
  unfold sendToNode
  by_cases isOwner : replica = owner
  · rw [if_pos isOwner]
    cases takes with
    | true => exact .inl ⟨isOwner, rfl⟩
    | false => exact .inr (.inr rfl)
  · rw [if_neg isOwner]
    cases leased : lease.filter (· ≠ replica) with
    | none => exact .inr (.inr rfl)
    | some target =>
        have differs : target ≠ replica := by
          simpa using (Option.filter_eq_some_iff.mp leased).2
        exact .inr (.inl ⟨isOwner, target, differs, rfl⟩)

theorem exchange_register :
    (store.register replica verb).exchange requestId =
      if store.requests.length = requestId then
        Exchange.setPending replica verb.family true
          { store.exchange requestId with origin := some (replica, verb) }
      else store.exchange requestId := by
  rw [register, exchange_setPending]
  by_cases same : store.requests.length = requestId
  · rw [if_pos same, if_pos same, exchange_append, if_pos same]
  · rw [if_neg same, if_neg same, exchange_append, if_neg same]

/-- A request touches nothing of the others. -/
theorem exchange_request_of_ne (differs : store.requests.length ≠ requestId) :
    (store.request owner replica verb lease takes).exchange requestId =
      store.exchange requestId := by
  have registered : (store.register replica verb).exchange requestId =
      store.exchange requestId :=
    exchange_register.trans (if_neg differs)
  rcases @request_cases _ _ store owner replica verb lease takes with
    ⟨-, isAfter⟩ | ⟨-, target, -, isAfter⟩ | isAfter
  · rw [isAfter, exchange_reach, if_neg differs, registered]
  · rw [isAfter, exchange_post]
    exact (if_neg differs).trans registered
  · rw [isAfter, exchange_setPending, if_neg differs, registered]

theorem Sound.request (sound : store.Sound owner)
    (listed : replica ≠ owner → ∀ requestId,
      requestKind ⟨requestId, verb⟩ = some (requestId, verb.family)) :
    (store.request owner replica verb lease takes).Sound owner := by
  intro requestId
  by_cases isNew : store.requests.length = requestId
  case neg =>
    rw [exchange_request_of_ne isNew]
    exact sound requestId
  case pos =>
    subst isNew
    have isFresh : (store.register replica verb).exchange store.requests.length =
        Exchange.fresh replica verb := by
      have right := sound store.requests.length
      have unknown : (store.exchange store.requests.length).origin = none :=
        List.getElem?_eq_none (Nat.le_refl _)
      rw [Exchange.Right, unknown] at right
      rw [exchange_register, if_pos rfl, right]
      rfl
    rcases @request_cases _ _ store owner replica verb lease takes with
      ⟨isOwner, isAfter⟩ | ⟨notOwner, target, differs, isAfter⟩ | isAfter
    · rw [isAfter, exchange_reach, if_pos rfl, isFresh]
      exact .inr (Exchange.fresh_asking.reach rfl Exchange.fresh_waiting
        fun differs => absurd isOwner differs)
    · have isMessage : (DirectMessage.toNode (some replica)
          ⟨store.requests.length, verb⟩).requestId = store.requests.length := rfl
      rw [isAfter, listed notOwner, Option.map_some, exchange_post, if_pos isMessage,
        isFresh]
      exact .inl (Exchange.fresh_asking.post differs rfl (listed notOwner _)
        Exchange.fresh_waiting)
    · rw [isAfter, exchange_setPending, if_pos rfl, isFresh]
      exact .inl (Exchange.fresh_asking.takenBack rfl)

omit [DecidableEq Replica] in
theorem toNode_or_reply (message : DirectMessage Replica) :
    (∃ replyTo request, message = .toNode replyTo request) ∨
      ∃ frame, message = reply frame := by
  cases message with
  | toNode replyTo request => exact .inl ⟨replyTo, request, rfl⟩
  | opReply requestId payload => exact .inr ⟨.opResult requestId payload, rfl⟩
  | gitReply requestId payload => exact .inr ⟨.gitStatusResult requestId payload, rfl⟩
  | tunnelFrame requestId frame => exact .inr ⟨.tunnel requestId frame, rfl⟩

theorem Sound.deliver (sound : store.Sound owner) {sender receiver : Replica}
    {message : DirectMessage Replica} {mail : Mail Replica (DirectMessage Replica)}
    (room : ∀ frame ∈ message.frame, store.HasRoom receiver frame)
    (taken : store.mail.deliver sender receiver = some (message, mail)) :
    ({ store with mail }.handleBus owner receiver takes message).Sound owner := by
  intro requestId
  have taken' := @Mail.only_deliver _ _ _ _ _ _ (fun other : DirectMessage Replica =>
    decide (other.requestId = requestId)) _ _ taken
  by_cases about : message.requestId = requestId
  case neg =>
    rw [if_neg (by simpa using about)] at taken'
    have sameExchange : exchange { store with mail } requestId = store.exchange requestId := by
      rw [exchange, exchange, taken']
    rcases toNode_or_reply message with ⟨replyTo, request, rfl⟩ | ⟨frame, rfl⟩
    · have differs : request.requestId ≠ requestId := about
      have remembered : (remember receiver replyTo request { store with mail }).exchange
          requestId = store.exchange requestId :=
        (exchange_remember_of_ne differs).trans sameExchange
      unfold handleBus
      dsimp only
      split
      · rw [exchange_reach, if_neg differs, remembered]
        exact sound requestId
      · rw [remembered]
        exact sound requestId
    · rw [requestId_reply] at about
      have hasRoom : HasRoom receiver { store with mail } frame :=
        room frame (frame_reply ▸ rfl)
      rw [handleBus_reply, exchange_handleNode hasRoom, if_neg about, sameExchange]
      · exact sound requestId
      · exact fun waits => (sound frame.requestId).apart waits
  case pos =>
    rw [if_pos (by simpa using about)] at taken'
    have right := sound requestId
    obtain ⟨requester, verb, origin⟩ := right.origin_of_deliver taken'
    rcases toNode_or_reply message with ⟨replyTo, request, rfl⟩ | ⟨frame, rfl⟩
    · rcases (Exchange.right_iff origin).mp right with asking | reached
      · obtain ⟨isMessage, differs, listed, asking', reached'⟩ := asking.arrive taken'
        obtain ⟨rfl, rfl⟩ := DirectMessage.toNode.inj isMessage
        have remembered := @exchange_remember _ _ { store with mail } receiver requester
          ⟨requestId, verb⟩ listed differs
        unfold handleBus
        dsimp only
        split
        case isTrue here =>
          rw [exchange_reach, if_pos rfl, remembered]
          exact (Exchange.right_iff (by exact origin)).mpr (.inr (reached' here.1))
        case isFalse =>
          rw [remembered]
          exact (Exchange.right_iff (by exact origin)).mpr (.inl asking')
      · obtain ⟨frame, isReply, -⟩ := reached.arrive taken'
        cases frame <;> cases isReply
    · rw [requestId_reply] at about
      have handed : (handleBus owner receiver takes (reply frame)
          { store with mail }).exchange requestId =
          (exchange { store with mail } requestId).hand receiver frame := by
        have hasRoom : HasRoom receiver { store with mail } frame :=
          room frame (frame_reply ▸ rfl)
        rw [handleBus_reply, exchange_handleNode hasRoom, if_pos about]
        exact fun waits => (sound frame.requestId).apart waits
      rw [handed]
      rcases (Exchange.right_iff origin).mp right with asking | reached
      · obtain ⟨isMessage, -⟩ :=
          @Exchange.Asking.arrive _ _ owner _ _ _ _ asking _ _ _ _ taken'
        cases frame <;> cases isMessage
      · obtain ⟨other, isReply, reached'⟩ := reached.arrive taken'
        obtain rfl : frame = other := by
          cases frame <;> cases other <;> cases isReply <;> rfl
        refine (Exchange.right_iff ?_).mpr (.inr reached')
        exact Exchange.origin_hand.trans origin

theorem Sound.receive (sound : store.Sound owner) {frame : NodeToControl}
    {socket : List NodeToControl} (room : store.HasRoom owner frame)
    (read : store.socket = frame :: socket) :
    ({ store with socket }.handleNode owner frame).Sound owner := by
  intro requestId
  have hasRoom : HasRoom owner { store with socket } frame := room
  have handed := @exchange_handleNode _ _ { store with socket } owner requestId frame hasRoom
    fun waits => (sound frame.requestId).apart waits
  rw [handed]
  have right := sound requestId
  split
  case isTrue about =>
    have isHead : (store.exchange requestId).socket = frame :: framesOf requestId socket := by
      change framesOf requestId store.socket = _
      rw [read, framesOf, List.filter_cons_of_pos (by simpa using about)]
      rfl
    cases origin : (store.exchange requestId).origin with
    | none =>
        rw [Exchange.Right, origin] at right
        rw [right] at isHead
        cases isHead
    | some asked =>
        rcases (Exchange.right_iff origin).mp right with asking | reached
        · rw [asking.socket] at isHead
          cases isHead
        · refine (Exchange.right_iff ?_).mpr (.inr (reached.receive isHead))
          exact Exchange.origin_hand.trans origin
  case isFalse other =>
    have same : exchange { store with socket } requestId = store.exchange requestId := by
      have sameSocket : framesOf requestId socket = framesOf requestId store.socket := by
        rw [read, framesOf, framesOf, List.filter_cons_of_neg (by simpa using other)]
      rw [exchange, exchange, sameSocket]
    rw [same]
    exact right

omit [DecidableEq Replica] in
theorem exchange_send {message : ControlToNode} {frame : NodeToControl}
    (isMessage : frame.requestId = message.requestId) :
    ({ store with
      working := if frame.final then store.working.filter (· ≠ message) else store.working
      socket := store.socket ++ [frame]
      answered := store.answered ++ [frame] } : Requests Replica).exchange requestId =
      if message.requestId = requestId then
        (store.exchange requestId).send message frame
      else store.exchange requestId := by
  have working : (if frame.final = true then store.working.filter (· ≠ message)
      else store.working).filter (·.requestId = requestId) =
        if frame.final = true then
          (store.working.filter (·.requestId = requestId)).filter (· ≠ message)
        else store.working.filter (·.requestId = requestId) := by
    split
    · exact List.filter_comm ..
    · rfl
  have frames : ∀ frames, framesOf requestId (frames ++ [frame]) =
      if message.requestId = requestId then framesOf requestId frames ++ [frame]
      else framesOf requestId frames := by
    intro frames
    rw [framesOf, List.filter_append]
    split
    case isTrue about => simp [isMessage, about, framesOf]
    case isFalse other => simp [isMessage, other, framesOf]
  rw [exchange, working, frames, frames]
  by_cases about : message.requestId = requestId
  · rw [if_pos about, if_pos about, if_pos about]
    rfl
  · rw [if_neg about, if_neg about, if_neg about]
    have unchanged : (store.working.filter (·.requestId = requestId)).filter
        (· ≠ message) = store.working.filter (·.requestId = requestId) := by
      apply List.filter_eq_self.mpr
      intro found member
      have isFound := (List.mem_filter.mp member).2
      apply decide_eq_true
      rintro rfl
      exact about (by simpa using isFound)
    rw [unchanged, ite_self]
    rfl

variable {after : Requests Replica}

theorem Sound.answer (sound : store.Sound owner) {message : ControlToNode} {frame : NodeToControl}
    (answered : store.answer message frame = some after) : after.Sound owner := by
  rw [Requests.answer] at answered
  split at answered
  case isFalse => cases answered
  case isTrue here =>
    obtain ⟨isWorking, isMessage, isKind⟩ := here
    cases answered
    intro requestId
    have right := sound requestId
    rw [exchange_send isMessage]
    split
    case isFalse => exact right
    case isTrue about =>
      have busy : message ∈ (store.exchange requestId).working :=
        List.mem_filter.mpr ⟨isWorking, by simpa using about⟩
      cases origin : (store.exchange requestId).origin with
      | none =>
          rw [Exchange.Right, origin] at right
          rw [right] at busy
          cases busy
      | some asked =>
          rcases (Exchange.right_iff origin).mp right with asking | reached
          · rw [asking.working] at busy
            cases busy
          · exact (Exchange.right_iff (by exact origin)).mpr (.inr (reached.send busy isKind))

theorem Sound.giveUp (sound : store.Sound owner) {other : RequestId}
    (left : store.giveUp replica other = some after) :
    after.Sound owner := by
  rw [Requests.giveUp] at left
  split at left
  case isFalse => cases left
  case isTrue waits =>
    cases left
    intro requestId
    have right := sound requestId
    have left : exchange { store.closeTunnel replica other with
        abandoned := other :: store.abandoned } requestId =
          if other = requestId then (store.exchange requestId).leave replica
          else store.exchange requestId := by
      have isClosed : exchange { store.closeTunnel replica other with
          abandoned := other :: store.abandoned } requestId =
            { (store.closeTunnel replica other).exchange requestId with
              abandoned := requestId ∈ other :: store.abandoned } := rfl
      rw [isClosed, exchange_closeTunnel]
      by_cases same : other = requestId
      · have isLeft : (requestId ∈ other :: store.abandoned) = True :=
          eq_true (same ▸ List.mem_cons_self)
        rw [if_pos same, if_pos same, isLeft]
        rfl
      · have isKept : (requestId ∈ other :: store.abandoned) =
            (requestId ∈ store.abandoned) :=
          propext (List.mem_cons.trans (or_iff_right (Ne.symm same)))
        rw [if_neg same, if_neg same, isKept]
        rfl
    rw [left]
    split
    case isFalse => exact right
    case isTrue about =>
      subst about
      cases origin : (store.exchange other).origin with
      | none =>
          rw [Exchange.Right, origin] at right
          rw [← pending_exchange, right] at waits
          cases waits
      | some asked =>
          apply (Exchange.right_iff (by exact origin)).mpr
          rcases (Exchange.right_iff origin).mp right with asking | reached
          · exact .inl (asking.leave waits)
          · exact .inr (reached.leave waits)

theorem requestKind_of_listed (listed : (requestKind ⟨0, verb⟩).isSome = true)
    (requestId : RequestId) :
    requestKind ⟨requestId, verb⟩ = some (requestId, verb.family) := by
  cases verb <;> first | rfl | cases listed

/-- What the caller of a tunnel takes from its channel has been given to it. -/
theorem Sound.read (sound : store.Sound owner) {other : RequestId}
    (taken : store.read other = some after) :
    after.Sound owner := by
  rw [Requests.read] at taken
  split at taken
  case isFalse => cases taken
  case isTrue =>
    cases taken
    exact sound

theorem Sound.step (sound : store.Sound owner) {label : RequestStep Replica}
    (listed : Listed owner label) (room : store.Roomy owner label)
    (stepped : store.step owner label = some after) : after.Sound owner := by
  cases label with
  | requestOp replica verb lease takes =>
      change store.requestOp owner replica verb lease takes = some after at stepped
      rw [requestOp] at stepped
      split at stepped
      case isFalse => cases stepped
      case isTrue =>
        cases stepped
        apply sound.request
        intro notOwner
        exact requestKind_of_listed (Or.resolve_left listed notOwner)
  | requestGitStatus replica lease takes =>
      cases stepped
      exact sound.request fun _ _ => rfl
  | openTunnel replica upgrade lease takes =>
      cases stepped
      apply sound.request
      cases upgrade with
      | true | false => exact fun _ _ => rfl
  | deliver sender receiver takes =>
      obtain ⟨⟨message, mail⟩, taken, rest⟩ := Option.bind_eq_some_iff.mp stepped
      cases rest
      obtain ⟨queue, isQueue, -⟩ := Mail.deliver_eq_some_iff.mp taken
      refine sound.deliver (fun frame isFrame => room (receiver, frame) ?_) taken
      rw [arriving, isQueue, List.head?_cons, Option.bind_some, isFrame]
      rfl
  | answer message frame => exact sound.answer stepped
  | receive =>
      rw [Requests.step] at stepped
      split at stepped
      case h_1 => cases stepped
      case h_2 frame socket read =>
        cases stepped
        refine sound.receive (room (owner, frame) ?_) read
        rw [arriving, read]
        rfl
  | read requestId => exact sound.read stepped
  | closeTunnel replica requestId => exact sound.giveUp stepped

omit [DecidableEq Replica] in
theorem framesOf_resolved :
    framesOf requestId (store.resolved.map Prod.snd) =
      (store.exchange requestId).resolved.map Prod.snd :=
  List.filter_map ..

/-- The frames an entry was given are those of a request that reached the node. -/
theorem Sound.reached_of_resolved (sound : store.Sound owner)
    {handed : Replica × NodeToControl} (member : handed ∈ store.resolved) :
    ∃ requester verb, store.requests[handed.2.requestId]? = some (requester, verb) ∧
      (store.exchange handed.2.requestId).Reached owner handed.2.requestId requester verb ∧
      handed ∈ (store.exchange handed.2.requestId).resolved := by
  have isOurs : handed ∈ (store.exchange handed.2.requestId).resolved :=
    List.mem_filter.mpr ⟨member, by simp⟩
  have right := sound handed.2.requestId
  cases origin : (store.exchange handed.2.requestId).origin with
  | none =>
      rw [Exchange.Right, origin] at right
      rw [right] at isOurs
      cases isOurs
  | some asked =>
      rcases (Exchange.right_iff origin).mp right with asking | reached
      · rw [asking.resolved] at isOurs
        cases isOurs
      · exact ⟨asked.1, asked.2, origin, reached, isOurs⟩

theorem Sound.answersRight (sound : store.Sound owner) : store.AnswersRight := by
  constructor
  · intro handed member
    obtain ⟨requester, verb, origin, ⟨kept, lost, replies, flow⟩, isOurs⟩ :=
      sound.reached_of_resolved member
    refine ⟨verb, ?_, ?_⟩
    · rw [origin, kept.handed handed isOurs]
    · apply kept.family
      rw [flow.answered]
      simp only [List.append_assoc, List.mem_append]
      exact .inl (List.mem_map_of_mem isOurs)
  · intro requestId
    rw [framesOf_resolved]
    change _ <+: (store.exchange requestId).answered
    have right := sound requestId
    cases origin : (store.exchange requestId).origin with
    | none =>
        rw [Exchange.Right, origin] at right
        rw [right]
        exact List.nil_prefix
    | some asked =>
        rcases (Exchange.right_iff origin).mp right with asking | ⟨-, lost, replies, flow⟩
        · rw [asking.resolved]
          exact List.nil_prefix
        · rw [flow.answered, List.append_assoc, List.append_assoc]
          exact List.prefix_append ..
  · intro requestId arrived present
    rw [framesOf_resolved]
    change _ = (store.exchange requestId).answered
    have right := sound requestId
    cases origin : (store.exchange requestId).origin with
    | none =>
        rw [Exchange.Right, origin] at right
        rw [right]
        rfl
    | some asked =>
        rcases (Exchange.right_iff origin).mp right with asking | ⟨-, lost, replies, flow⟩
        · rw [asking.resolved, asking.answered]
          rfl
        · have noSocket : (store.exchange requestId).socket = [] := arrived.1
          have noneLost : lost = [] := by
            by_contra some_
            exact present (flow.left some_)
          have noReplies : replies = [] := by
            have noMail : (store.exchange requestId).mail owner asked.1 = [] := by
              apply List.filter_eq_nil_iff.mpr
              intro message member
              simpa using arrived.2 _ _ message member
            rw [flow.mail, Mail.single_self] at noMail
            exact List.map_eq_nil_iff.mp noMail
          rw [flow.answered, noSocket, noneLost, noReplies]
          simp
  · intro handed member isFinal replica kind
    obtain ⟨requester, verb, -, ⟨kept, -⟩, isOurs⟩ := sound.reached_of_resolved member
    have closed := kept.closed handed isOurs isFinal
    cases waits : (store.registries replica).pending kind handed.2.requestId with
    | false => rfl
    | true =>
        obtain ⟨rfl, rfl⟩ := kept.entries.pending replica kind waits
        rw [← pending_exchange, closed] at waits
        cases waits

end Steps

theorem sound_empty {owner : Replica} : (empty : Requests Replica).Sound owner := by
  intro requestId
  have isBlank : (empty : Requests Replica).exchange requestId = Exchange.blank := by
    simp [exchange, empty, Exchange.blank, framesOf, Mail.only_empty]
  rw [isBlank]
  rfl

/-- A frame that finds the channel of its entry full is given to nobody, and the final
one closes the entry all the same. -/
theorem tunnelFrame_full {store : Requests Replica} {replica : Replica} {requestId : RequestId}
    {frame : TunnelFrame} (waits : (store.registries replica).pending .tunnel requestId = true)
    (full : channelRoom ≤ store.unread requestId) :
    store.tunnelFrame replica requestId frame =
      if frame.terminal then store.closeTunnel replica requestId else store := by
  rw [tunnelFrame, if_pos waits, handOver, if_neg (Nat.not_lt.mpr full)]

/-- In every run in which the requests to another replica's node are of the listed
verbs and no frame finds the channel of its entry full, the answers of the node come to
the entry of the one who asked, in order and each once, and to nobody else. -/
theorem answers_right {owner : Replica} {labels : List (RequestStep Replica)}
    (met : Along (step owner)
      (fun before label _ => Listed owner label ∧ before.Roomy owner label) empty labels) :
    Along (step owner) (fun _ _ after => after.AnswersRight) empty labels := by
  apply met.of_invariant (Sound owner)
  · intro before label after sound stepped isMet
    exact sound.step isMet.1 isMet.2 stepped
  · intro before label after sound stepped isMet
    exact (sound.step isMet.1 isMet.2 stepped).answersRight
  · exact sound_empty

instance Listed.decidable (owner : Replica) :
    (label : RequestStep Replica) → Decidable (Listed owner label)
  | .requestOp .. => inferInstanceAs (Decidable (_ ∨ _))
  | .requestGitStatus .. => isTrue trivial
  | .openTunnel .. => isTrue trivial
  | .deliver .. => isTrue trivial
  | .answer .. => isTrue trivial
  | .receive => isTrue trivial
  | .read .. => isTrue trivial
  | .closeTunnel .. => isTrue trivial

instance HasRoom.decidable (replica : Replica) (store : Requests Replica) :
    (frame : NodeToControl) → Decidable (store.HasRoom replica frame)
  | .opResult .. => isTrue trivial
  | .gitStatusResult .. => isTrue trivial
  | .tunnel .. => inferInstanceAs (Decidable (_ → _))

instance Roomy.decidable (owner : Replica) (store : Requests Replica)
    (label : RequestStep Replica) : Decidable (store.Roomy owner label) :=
  inferInstanceAs (Decidable (∀ arrived ∈ store.arriving owner label, _))

/-- One replica asks for an operation of a node whose socket the other has, the node
answers, and the owner reads the answer. -/
def askedAcross (verb : Verb) : List (RequestStep Bool) :=
  [.requestOp true verb (some false) true, .deliver true false true,
    .answer ⟨0, verb⟩ (.opResult 0 ⟨true, none, ""⟩), .receive]

/-- The answer to an operation that the list leaves out is lost at the owner. -/
theorem answer_lost {verb : Verb} (unlisted : requestKind ⟨0, verb⟩ = none) :
    ¬Along (step false) (fun _ _ after => after.AnswersRight) empty (askedAcross verb) := by
  intro right
  cases verb <;> cases unlisted
  all_goals
    obtain ⟨-, -, -, last, -⟩ := right
    exact absurd (last.resolved 0 ⟨rfl, by decide⟩ (by decide)) (by decide)

theorem commit_lost :
    ¬Along (step false) (fun _ _ after => after.AnswersRight) empty
      (askedAcross .gitCommit) :=
  answer_lost rfl

/-- A clone and a tunnel asked for across replicas, and a status asked for at the
owner, with their answers interleaved. -/
def askedThrice : List (RequestStep Bool) :=
  [.requestOp true .cloneRepo (some false) true, .openTunnel true false (some false) true,
    .requestGitStatus false none true, .deliver true false true, .deliver true false true,
    .answer ⟨1, .tunnelRequest⟩ (.tunnel 1 (.tunnelResponse 1 200 [])),
    .answer ⟨0, .cloneRepo⟩ (.opResult 0 ⟨true, none, ""⟩), .receive, .receive,
    .answer ⟨2, .getGitStatus⟩ (.gitStatusResult 2 ⟨true, none, [], ""⟩),
    .answer ⟨1, .tunnelRequest⟩ (.tunnel 1 (.tunnelChunk 0 "" true)), .receive, .receive,
    .deliver false true true, .read 1, .deliver false true true, .deliver false true true]

theorem answers_right_thrice :
    Along (step false) (fun _ _ after => after.AnswersRight) empty askedThrice :=
  answers_right (by decide)

end Requests

end NookOs.Ws
