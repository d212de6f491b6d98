/-
Module: NookOs.Ws.Watched
Purpose: The viewers of one session on any number of replicas, what they tell the
  owner of its node, and whether the node forwards the output.
Trusted boundary: none
Main exports: Phase, WatchMessage, Watched, Watched.step, Flowing, Unhurried, output_flows
-/
import Mathlib.Algebra.GroupWithZero.Nat
import NookOs.Lib.Broadcast
import NookOs.Lib.Run
import Mathlib.Data.Finset.Basic
import Mathlib.Data.Fintype.Basic

namespace NookOs.Ws

open Lib

/-- Where a viewer is in `handle`: it has subscribed, it has asked the node to attach,
it has dropped its receiver, or it has counted no receivers and is about to say so. -/
inductive Phase where
  | subscribed
  | watching
  | dropped
  | emptied
deriving DecidableEq

/-- The viewer holds a receiver of the session's channel. -/
def Phase.receives : Phase → Bool
  | .subscribed | .watching => true
  | .dropped | .emptied => false

/-- What a replica sends to the owner of the session's node. -/
inductive WatchMessage (Replica : Type) where
  | subscribe (replica : Replica)
  | unsubscribe (replica : Replica)
  | attachSession
deriving DecidableEq

/-- The replica that a message says has no viewers left. -/
def WatchMessage.leaves {Replica : Type} : WatchMessage Replica → Option Replica
  | .unsubscribe replica => some replica
  | .subscribe _ | .attachSession => none

/-- What the node is told about the session. -/
inductive Forwarding where
  | attachSession
  | detachSession
deriving DecidableEq

/-- One session.  `remoteViewers` and `knowsNode` are the owner's: the replicas with
viewers, and whether its `session_nodes` has the session; `told` is what the node was
told, in order. -/
structure Watched (Replica : Type) where
  viewers : List (Replica × Phase)
  mail : Mail Replica (WatchMessage Replica)
  remoteViewers : Finset Replica
  knowsNode : Bool
  told : List Forwarding

/-- A step of a viewer, or a message that arrives.  `takes` says whether the channel of
the node has room. -/
inductive WatchStep (Replica : Type) where
  | subscribe (replica : Replica)
  | attach (replica : Replica) (takes : Bool)
  | drop (replica : Replica)
  | count (replica : Replica)
  | detach (replica : Replica) (takes : Bool)
  | deliver (sender receiver : Replica) (takes : Bool)
deriving DecidableEq

namespace Watched

variable {Replica : Type} [DecidableEq Replica]

def receiverCount (store : Watched Replica) (replica : Replica) : Nat :=
  store.viewers.countP fun viewer => viewer.1 = replica && viewer.2.receives

/-- A viewer of the replica goes on from one phase to another. -/
def move (replica : Replica) (before after : Phase) (store : Watched Replica) :
    Watched Replica :=
  { store with viewers := store.viewers.erase (replica, before) ++ [(replica, after)] }

/-- A viewer of the replica is through. -/
def finish (replica : Replica) (before : Phase) (store : Watched Replica) :
    Watched Replica :=
  { store with viewers := store.viewers.erase (replica, before) }

/-- `try_send` on the channel of the node. -/
def tell (takes : Bool) (order : Forwarding) (store : Watched Replica) :
    Watched Replica :=
  if takes then { store with told := store.told ++ [order] } else store

def post (sender receiver : Replica) (message : WatchMessage Replica)
    (store : Watched Replica) : Watched Replica :=
  { store with mail := store.mail.post sender receiver message }

/-- `send_to_node` with `AttachSession`. -/
def sendAttach (owner replica : Replica) (takes : Bool) (store : Watched Replica) :
    Watched Replica :=
  if replica = owner then { store with knowsNode := true }.tell takes .attachSession
  else (store.post replica owner (.subscribe replica)).post replica owner .attachSession

/-- `send_to_node` with `DetachSession`: the owner pauses only when no other replica
has viewers, and another replica leaves it to the owner. -/
def sendDetach (owner replica : Replica) (takes : Bool) (store : Watched Replica) :
    Watched Replica :=
  if replica = owner then
    let known := { store with knowsNode := true }
    if store.remoteViewers = ∅ then known.tell takes .detachSession else known
  else store.post replica owner (.unsubscribe replica)

/-- The arms of `handle_bus` for a session's viewers, at the owner. -/
def handleBus (owner : Replica) (takes : Bool) (message : WatchMessage Replica)
    (store : Watched Replica) : Watched Replica :=
  match message with
  | .subscribe replica =>
      { store with remoteViewers := insert replica store.remoteViewers }
  | .attachSession => store.tell takes .attachSession
  | .unsubscribe replica =>
      if store.remoteViewers = ∅ then store
      else
        let left := { store with remoteViewers := store.remoteViewers.erase replica }
        if left.remoteViewers = ∅ ∧ store.receiverCount owner = 0 ∧
            store.knowsNode = true then
          left.sendDetach owner owner takes
        else left

def step (owner : Replica) (store : Watched Replica) :
    WatchStep Replica → Option (Watched Replica)
  | .subscribe replica =>
      some { store with viewers := store.viewers ++ [(replica, .subscribed)] }
  | .attach replica takes =>
      if (replica, .subscribed) ∈ store.viewers then
        some ((store.move replica .subscribed .watching).sendAttach owner replica takes)
      else none
  | .drop replica =>
      if (replica, .watching) ∈ store.viewers then
        some (store.move replica .watching .dropped)
      else none
  | .count replica =>
      if (replica, .dropped) ∈ store.viewers then
        some
          (if store.receiverCount replica = 0 then store.move replica .dropped .emptied
            else store.finish replica .dropped)
      else none
  | .detach replica takes =>
      if (replica, .emptied) ∈ store.viewers then
        some ((store.finish replica .emptied).sendDetach owner replica takes)
      else none
  | .deliver sender receiver takes => do
      let (message, mail) ← store.mail.deliver sender receiver
      if receiver = owner then some ({ store with mail }.handleBus owner takes message)
      else none

/-- Nobody watches so far.  The owner knows the node of the session where it started
it. -/
def start (knowsNode : Bool) : Watched Replica where
  viewers := []
  mail := Mail.empty
  remoteViewers := ∅
  knowsNode := knowsNode
  told := []

/-- Nothing is in flight, and every viewer that is left watches. -/
def Quiescent (store : Watched Replica) : Prop :=
  (∀ sender receiver, store.mail sender receiver = []) ∧
    ∀ viewer ∈ store.viewers, viewer.2 = .watching

/-- The node forwards the output while somebody watches, the owner knows every other
replica that does, and with nobody the node was last told to stop. -/
structure Flowing (owner : Replica) (store : Watched Replica) : Prop where
  attached : store.Quiescent → store.viewers ≠ [] →
    store.told.getLast? = some .attachSession
  known : store.Quiescent → ∀ viewer ∈ store.viewers, viewer.1 ≠ owner →
    viewer.1 ∈ store.remoteViewers
  detached : store.Quiescent → store.viewers = [] →
    store.told = [] ∨ store.told.getLast? = some .detachSession

/-- What a step needs: room in the channel of the node, no viewer that asks to attach
between the count and the word of one that leaves on its replica, and an owner that
knows the node when the last other replica leaves. -/
def Unhurried (owner : Replica) (before : Watched Replica) : WatchStep Replica → Prop
  | .attach replica takes => takes = true ∧ (replica, .emptied) ∉ before.viewers
  | .detach _ takes => takes = true
  | .deliver sender receiver takes =>
      takes = true ∧
        ∀ message ∈ (before.mail sender receiver).head?, ∀ replica ∈ message.leaves,
          before.remoteViewers.erase replica = ∅ → before.receiverCount owner = 0 →
            before.knowsNode = true
  | .subscribe _ | .drop _ | .count _ => True

section Lines

/-- What the messages of a replica, in order, make of whether it has viewers. -/
def announced (member : Bool) (queue : List (WatchMessage Replica)) : Bool :=
  queue.foldl
    (fun member message =>
      match message with
      | .subscribe _ => true
      | .unsubscribe _ => false
      | .attachSession => member)
    member

/-- The messages of a replica: each word that it has viewers is followed by the wish to
attach. -/
inductive Blocks (replica : Replica) : List (WatchMessage Replica) → Prop where
  | nil : Blocks replica []
  | left {rest : List (WatchMessage Replica)} (blocks : Blocks replica rest) :
      Blocks replica (.unsubscribe replica :: rest)
  | joined {rest : List (WatchMessage Replica)} (blocks : Blocks replica rest) :
      Blocks replica (.subscribe replica :: .attachSession :: rest)

/-- What a replica other than the owner has sent and what it still has: who watches has
been announced, and where nobody is left this has been said. -/
structure Line (viewers : List (Replica × Phase)) (member : Bool) (replica : Replica)
    (queue : List (WatchMessage Replica)) : Prop where
  blocks : Blocks replica queue ∨
    ∃ rest, queue = .attachSession :: rest ∧ Blocks replica rest ∧ member = true
  watched : (replica, .watching) ∈ viewers → announced member queue = true
  silent : (∀ phase, (replica, phase) ∉ viewers) → announced member queue = false

variable {replica : Replica} {viewers : List (Replica × Phase)} {member : Bool}
  {queue rest : List (WatchMessage Replica)}

omit [DecidableEq Replica] in
theorem Blocks.append (blocks : Blocks replica queue) (more : Blocks replica rest) :
    Blocks replica (queue ++ rest) := by
  induction blocks with
  | nil => exact more
  | left _ ih => exact .left ih
  | joined _ ih => exact .joined ih

omit [DecidableEq Replica] in
/-- A replica says something more. -/
theorem Line.append {viewers' : List (Replica × Phase)}
    (line : Line viewers member replica queue) (more : Blocks replica rest)
    (watched : (replica, .watching) ∈ viewers' → announced member (queue ++ rest) = true)
    (silent : (∀ phase, (replica, phase) ∉ viewers') →
      announced member (queue ++ rest) = false) :
    Line viewers' member replica (queue ++ rest) := by
  refine ⟨?_, watched, silent⟩
  rcases line.blocks with blocks | ⟨pending, rfl, blocks, isMember⟩
  · exact .inl (blocks.append more)
  · exact .inr ⟨pending ++ rest, rfl, blocks.append more, isMember⟩

omit [DecidableEq Replica] in
/-- The viewers of the replica change and nothing is said. -/
theorem Line.change {viewers' : List (Replica × Phase)}
    (line : Line viewers member replica queue)
    (watched : (replica, .watching) ∈ viewers' → (replica, .watching) ∈ viewers)
    (silent : (∀ phase, (replica, phase) ∉ viewers') →
      ∀ phase, (replica, phase) ∉ viewers) :
    Line viewers' member replica queue :=
  ⟨line.blocks, fun watches => line.watched (watched watches),
    fun nobody => line.silent (silent nobody)⟩

omit [DecidableEq Replica] in
/-- The first message of a replica arrives. -/
theorem Line.deliver {message : WatchMessage Replica}
    (line : Line viewers member replica (message :: queue)) :
    (message = .subscribe replica ∧ .attachSession ∈ queue ∧
        Line viewers true replica queue) ∨
      (message = .unsubscribe replica ∧ Line viewers false replica queue) ∨
        (message = .attachSession ∧ member = true ∧ Line viewers member replica queue) := by
  rcases line.blocks with blocks | ⟨rest, isQueue, blocks, isMember⟩
  · cases blocks with
    | left blocks => exact .inr (.inl ⟨rfl, .inl blocks, line.watched, line.silent⟩)
    | joined blocks =>
        exact .inl ⟨rfl, List.mem_cons_self, .inr ⟨_, rfl, blocks, rfl⟩, line.watched,
          line.silent⟩
  · cases isQueue
    exact .inr (.inr ⟨rfl, isMember, .inl blocks, line.watched, line.silent⟩)

end Lines

/-- What holds of the viewers between two steps of an unhurried run. -/
structure Sound (owner : Replica) (store : Watched Replica) : Prop where
  route : ∀ sender receiver, store.mail sender receiver ≠ [] →
    sender ≠ owner ∧ receiver = owner
  lines : ∀ replica, replica ≠ owner →
    Line store.viewers (decide (replica ∈ store.remoteViewers)) replica
      (store.mail replica owner)
  others : ∀ replica ∈ store.remoteViewers, replica ≠ owner
  emptied : ∀ replica, (replica, .emptied) ∈ store.viewers →
    (replica, .watching) ∉ store.viewers
  paused : store.told.getLast? ≠ some .attachSession →
    (owner, .watching) ∉ store.viewers ∧
      ∀ replica ∈ store.remoteViewers, .attachSession ∈ store.mail replica owner
  flowing : store.told.getLast? = some .attachSession →
    (∃ phase, (owner, phase) ∈ store.viewers) ∨ store.remoteViewers ≠ ∅

section Viewers

variable {viewers : List (Replica × Phase)} {viewer before after : Replica × Phase}

theorem mem_move (member : viewer ∈ viewers.erase before ++ [after]) :
    viewer ∈ viewers ∨ viewer = after := by
  rcases List.mem_append.mp member with old | new
  · exact .inl (List.mem_of_mem_erase old)
  · exact .inr (List.mem_singleton.mp new)

theorem mem_move_of_ne (member : viewer ∈ viewers) (differs : viewer ≠ before) :
    viewer ∈ viewers.erase before ++ [after] :=
  List.mem_append_left _ ((List.mem_erase_of_ne differs).mpr member)

theorem mem_move_self : after ∈ viewers.erase before ++ [after] :=
  List.mem_append_right _ (List.mem_singleton_self after)

/-- No receiver is left exactly where nobody has subscribed or watches. -/
theorem receiverCount_eq_zero_iff {store : Watched Replica} {replica : Replica} :
    store.receiverCount replica = 0 ↔
      (replica, .subscribed) ∉ store.viewers ∧ (replica, .watching) ∉ store.viewers := by
  rw [receiverCount, List.countP_eq_zero]
  constructor
  · intro none
    exact ⟨fun member => none _ member (by simp [Phase.receives]),
      fun member => none _ member (by simp [Phase.receives])⟩
  · rintro ⟨noneSubscribed, noneWatching⟩ ⟨other, phase⟩ member receives
    simp only [Bool.and_eq_true, decide_eq_true_eq] at receives
    obtain ⟨rfl, holds⟩ := receives
    cases phase with
    | subscribed => exact noneSubscribed member
    | watching => exact noneWatching member
    | dropped | emptied => cases holds

end Viewers

section Steps

variable {store after : Watched Replica} {owner replica : Replica} {takes : Bool}

theorem Sound.subscribe (sound : store.Sound owner) :
    Sound owner { store with viewers := store.viewers ++ [(replica, .subscribed)] } where
  route := sound.route
  lines := by
    intro other differs
    apply (sound.lines other differs).change
    · intro watches
      rcases List.mem_append.mp watches with old | new
      · exact old
      · cases List.mem_singleton.mp new
    · intro nobody phase member
      exact nobody phase (List.mem_append_left _ member)
  others := sound.others
  emptied := by
    intro other isEmptied watches
    rcases List.mem_append.mp isEmptied with old | new
    · rcases List.mem_append.mp watches with oldWatch | newWatch
      · exact sound.emptied other old oldWatch
      · cases List.mem_singleton.mp newWatch
    · cases List.mem_singleton.mp new
  paused := by
    intro notAttached
    obtain ⟨noneWatching, pending⟩ := sound.paused notAttached
    refine ⟨fun watches => ?_, pending⟩
    rcases List.mem_append.mp watches with old | new
    · exact noneWatching old
    · cases List.mem_singleton.mp new
  flowing := by
    intro attached
    rcases sound.flowing attached with ⟨phase, member⟩ | remote
    · exact .inl ⟨phase, List.mem_append_left _ member⟩
    · exact .inr remote

/-- A viewer that goes on without a word, to a phase that does not watch. -/
theorem Sound.move (sound : store.Sound owner) {before after : Phase}
    (notWatching : after ≠ .watching)
    (empties : after = .emptied → (replica, .watching) ∉ store.viewers) :
    (store.move replica before after).Sound owner where
  route := sound.route
  lines := by
    intro other differs
    apply (sound.lines other differs).change
    · intro watches
      rcases mem_move watches with old | new
      · exact old
      · exact absurd (Prod.mk.inj new).2.symm notWatching
    · intro nobody phase member
      by_cases same : (other, phase) = (replica, before)
      · obtain ⟨rfl, rfl⟩ := Prod.mk.inj same
        exact nobody after mem_move_self
      · exact nobody phase (mem_move_of_ne member same)
  others := sound.others
  emptied := by
    intro other isEmptied watches
    have watched : (other, .watching) ∈ store.viewers := by
      rcases mem_move watches with old | new
      · exact old
      · exact absurd (Prod.mk.inj new).2.symm notWatching
    rcases mem_move isEmptied with old | new
    · exact sound.emptied other old watched
    · obtain ⟨rfl, isAfter⟩ := Prod.mk.inj new
      exact empties isAfter.symm watched
  paused := by
    intro notAttached
    obtain ⟨noneWatching, pending⟩ := sound.paused notAttached
    refine ⟨fun watches => ?_, pending⟩
    rcases mem_move watches with old | new
    · exact noneWatching old
    · exact absurd (Prod.mk.inj new).2.symm notWatching
  flowing := by
    intro attached
    rcases sound.flowing attached with ⟨phase, member⟩ | remote
    · by_cases same : (owner, phase) = (replica, before)
      · obtain ⟨rfl, rfl⟩ := Prod.mk.inj same
        exact .inl ⟨after, mem_move_self⟩
      · exact .inl ⟨phase, mem_move_of_ne member same⟩
    · exact .inr remote

/-- A viewer that leaves while another of its replica still receives. -/
theorem Sound.finish (sound : store.Sound owner)
    (more : store.receiverCount replica ≠ 0) :
    (store.finish replica .dropped).Sound owner := by
  obtain ⟨phase, receives, member⟩ : ∃ phase, phase ≠ .dropped ∧
      (replica, phase) ∈ store.viewers := by
    by_contra none
    push Not at none
    apply more
    apply receiverCount_eq_zero_iff.mpr
    exact ⟨none .subscribed (by decide), none .watching (by decide)⟩
  have stays : (replica, phase) ∈ (store.finish replica .dropped).viewers :=
    (List.mem_erase_of_ne fun same => receives (Prod.mk.inj same).2).mpr member
  have old : ∀ viewer ∈ (store.finish replica .dropped).viewers, viewer ∈ store.viewers :=
    fun viewer member => List.mem_of_mem_erase member
  refine ⟨sound.route, ?_, sound.others, ?_, ?_, ?_⟩
  · intro other differs
    apply (sound.lines other differs).change
    · exact fun watches => old _ watches
    · intro nobody otherPhase otherMember
      by_cases same : (other, otherPhase) = (replica, .dropped)
      · obtain ⟨rfl, -⟩ := Prod.mk.inj same
        exact nobody phase stays
      · exact nobody otherPhase ((List.mem_erase_of_ne same).mpr otherMember)
  · exact fun other isEmptied watches =>
      sound.emptied other (old _ isEmptied) (old _ watches)
  · intro notAttached
    obtain ⟨noneWatching, pending⟩ := sound.paused notAttached
    exact ⟨fun watches => noneWatching (old _ watches), pending⟩
  · intro attached
    rcases sound.flowing attached with ⟨otherPhase, otherMember⟩ | remote
    · by_cases same : (owner, otherPhase) = (replica, .dropped)
      · obtain ⟨rfl, -⟩ := Prod.mk.inj same
        exact .inl ⟨phase, stays⟩
      · exact .inl ⟨otherPhase, (List.mem_erase_of_ne same).mpr otherMember⟩
    · exact .inr remote

omit [DecidableEq Replica] in
/-- The last word to the node. -/
theorem getLast?_tell {order : Forwarding} :
    (store.tell true order).told.getLast? = some order :=
  List.getLast?_concat ..

/-- A viewer that goes on changes nothing at another replica. -/
theorem mem_viewers_move {before after phase : Phase} {other : Replica}
    (differs : other ≠ replica) :
    (other, phase) ∈ (store.move replica before after).viewers ↔
      (other, phase) ∈ store.viewers := by
  constructor
  · intro member
    rcases mem_move member with old | new
    · exact old
    · exact absurd (Prod.mk.inj new).1 differs
  · exact fun member => mem_move_of_ne member fun same => differs (Prod.mk.inj same).1

/-- The line of a replica whose viewers do not change. -/
theorem Sound.line_move (sound : store.Sound owner) {before after : Phase} {other : Replica}
    (differs : other ≠ owner) (elsewhere : other ≠ replica) :
    Line (store.move replica before after).viewers (decide (other ∈ store.remoteViewers)) other
      (store.mail other owner) := by
  apply (sound.lines other differs).change
  · exact (mem_viewers_move elsewhere).mp
  · exact fun nobody phase member => nobody phase ((mem_viewers_move elsewhere).mpr member)

/-- No replica has both one that watches and one that is through, after a viewer begins to
watch where none is through. -/
theorem Sound.emptied_move (sound : store.Sound owner)
    (noneEmptied : (replica, .emptied) ∉ store.viewers) (other : Replica)
    (isEmptied : (other, .emptied) ∈ (store.move replica .subscribed .watching).viewers) :
    (other, .watching) ∉ (store.move replica .subscribed .watching).viewers := by
  intro watches
  rcases mem_move isEmptied with old | new
  · rcases mem_move watches with oldWatch | newWatch
    · exact sound.emptied other old oldWatch
    · obtain ⟨rfl, -⟩ := Prod.mk.inj newWatch
      exact noneEmptied old
  · cases new

/-- Messages go to the owner alone, also after another replica has posted one. -/
theorem route_post {mail : Mail Replica (WatchMessage Replica)}
    {message : WatchMessage Replica} (differs : replica ≠ owner)
    (route : ∀ sender receiver, mail sender receiver ≠ [] → sender ≠ owner ∧ receiver = owner)
    (sender receiver : Replica) (pending : mail.post replica owner message sender receiver ≠ []) :
    sender ≠ owner ∧ receiver = owner := by
  by_cases here : sender = replica ∧ receiver = owner
  · rw [here.1, here.2]
    exact ⟨differs, rfl⟩
  · rw [Mail.post_of_ne here] at pending
    exact route sender receiver pending

/-- A viewer of the owner begins to watch. -/
theorem Sound.attach_owner (sound : store.Sound owner)
    (noneEmptied : (owner, .emptied) ∉ store.viewers) :
    ((store.move owner .subscribed .watching).sendAttach owner owner true).Sound owner := by
  rw [sendAttach, if_pos rfl]
  refine ⟨sound.route, ?_, sound.others, sound.emptied_move noneEmptied, ?_, ?_⟩
  · exact fun other differs => sound.line_move differs differs
  · exact fun notAttached => absurd getLast?_tell notAttached
  · exact fun _ => .inl ⟨.watching, mem_move_self⟩

/-- A viewer of another replica begins to watch. -/
theorem Sound.attach_elsewhere (sound : store.Sound owner) (isOther : replica ≠ owner)
    (noneEmptied : (replica, .emptied) ∉ store.viewers) :
    ((store.move replica .subscribed .watching).sendAttach owner replica true).Sound
      owner := by
  rw [sendAttach, if_neg isOther]
  have toOwner : ∀ other, other ≠ replica →
      ((store.mail.post replica owner (.subscribe replica)).post replica owner
        .attachSession) other owner = store.mail other owner := by
    intro other differs
    rw [Mail.post_of_ne fun same => differs same.1, Mail.post_of_ne fun same => differs same.1]
  have fromHere : ((store.mail.post replica owner (.subscribe replica)).post replica owner
      .attachSession) replica owner =
        store.mail replica owner ++ [.subscribe replica, .attachSession] := by
    rw [Mail.post_self, Mail.post_self, List.append_assoc]
    rfl
  refine ⟨route_post isOther (route_post isOther sound.route), ?_, sound.others,
    sound.emptied_move noneEmptied, ?_, ?_⟩
  · intro other differs
    by_cases same : other = replica
    · subst same
      change Line _ _ other ((Mail.post other owner _ (store.mail.post other owner _)) other
        owner)
      rw [fromHere]
      have nowAnnounced : ∀ member, announced member
          (store.mail other owner ++ [.subscribe other, .attachSession]) = true := by
        intro member
        rw [announced, List.foldl_append]
        rfl
      apply (sound.lines other differs).append (.joined .nil)
      · exact fun _ => nowAnnounced _
      · exact fun nobody => absurd mem_move_self (nobody .watching)
    · change Line _ _ other ((Mail.post replica owner _ (store.mail.post replica owner _))
        other owner)
      rw [toOwner other same]
      exact sound.line_move differs same
  · intro notAttached
    obtain ⟨noneWatching, pending⟩ := sound.paused notAttached
    constructor
    · exact fun watches => noneWatching ((mem_viewers_move (Ne.symm isOther)).mp watches)
    · intro other member
      change _ ∈ (Mail.post replica owner _ (store.mail.post replica owner _)) other owner
      by_cases same : other = replica
      · rw [same, fromHere]
        simp
      · rw [toOwner other same]
        exact pending other member
  · intro attached
    rcases sound.flowing attached with ⟨phase, member⟩ | remote
    · exact .inl ⟨phase, (mem_viewers_move (Ne.symm isOther)).mpr member⟩
    · exact .inr remote

theorem mem_of_finish {before : Phase} {viewer : Replica × Phase}
    (member : viewer ∈ (store.finish replica before).viewers) : viewer ∈ store.viewers :=
  List.mem_of_mem_erase member

/-- A viewer that is through leaves those of another replica. -/
theorem mem_finish {before phase : Phase} {other : Replica} (differs : other ≠ replica)
    (member : (other, phase) ∈ store.viewers) :
    (other, phase) ∈ (store.finish replica before).viewers :=
  (List.mem_erase_of_ne fun same => differs (Prod.mk.inj same).1).mpr member

theorem Sound.line_finish (sound : store.Sound owner) {before : Phase} {other : Replica}
    (differs : other ≠ owner) (elsewhere : other ≠ replica) :
    Line (store.finish replica before).viewers (decide (other ∈ store.remoteViewers)) other
      (store.mail other owner) := by
  apply (sound.lines other differs).change
  · exact mem_of_finish
  · exact fun nobody phase member => nobody phase (mem_finish elsewhere member)

theorem Sound.emptied_finish (sound : store.Sound owner) {before : Phase} (other : Replica)
    (isEmptied : (other, .emptied) ∈ (store.finish replica before).viewers) :
    (other, .watching) ∉ (store.finish replica before).viewers :=
  fun watches => sound.emptied other (mem_of_finish isEmptied) (mem_of_finish watches)

/-- The last viewer of the owner leaves. -/
theorem Sound.detach_owner (sound : store.Sound owner)
    (isEmptied : (owner, .emptied) ∈ store.viewers) :
    ((store.finish owner .emptied).sendDetach owner owner true).Sound owner := by
  have noneWatching : (owner, .watching) ∉ (store.finish owner .emptied).viewers :=
    fun watches => sound.emptied owner isEmptied (mem_of_finish watches)
  rw [sendDetach, if_pos rfl]
  dsimp only
  split
  case isTrue noRemote =>
    refine ⟨sound.route, fun other differs => sound.line_finish differs differs, sound.others,
      sound.emptied_finish, ?_, ?_⟩
    · intro _
      refine ⟨noneWatching, ?_⟩
      intro other member
      have isRemote : other ∈ (∅ : Finset Replica) := by
        rw [← noRemote]
        exact member
      exact absurd isRemote (Finset.notMem_empty other)
    · intro attached
      rw [getLast?_tell] at attached
      cases attached
  case isFalse remote =>
    refine ⟨sound.route, fun other differs => sound.line_finish differs differs, sound.others,
      sound.emptied_finish, ?_, fun _ => .inr remote⟩
    exact fun notAttached => ⟨noneWatching, (sound.paused notAttached).2⟩

/-- The last viewer of another replica leaves, with the word that nobody is left. -/
theorem Sound.detach_elsewhere (sound : store.Sound owner) (isOther : replica ≠ owner)
    (isEmptied : (replica, .emptied) ∈ store.viewers) :
    ((store.finish replica .emptied).sendDetach owner replica true).Sound owner := by
  have noneWatching := sound.emptied replica isEmptied
  rw [sendDetach, if_neg isOther]
  refine ⟨route_post isOther sound.route, ?_, sound.others, sound.emptied_finish, ?_, ?_⟩
  · intro other differs
    change Line _ _ other ((Mail.post replica owner _ store.mail) other owner)
    by_cases same : other = replica
    · subst same
      rw [Mail.post_self]
      apply (sound.lines other differs).append (.left .nil)
      · exact fun watches => absurd (mem_of_finish watches) noneWatching
      · intro _
        rw [announced, List.foldl_append]
        rfl
    · rw [Mail.post_of_ne fun here => same here.1]
      exact sound.line_finish differs same
  · intro notAttached
    obtain ⟨noneHere, pending⟩ := sound.paused notAttached
    refine ⟨fun watches => noneHere (mem_of_finish watches), ?_⟩
    intro other member
    change _ ∈ (Mail.post replica owner _ store.mail) other owner
    by_cases same : other = replica
    · rw [same, Mail.post_self]
      exact List.mem_append_left _ (pending replica (same ▸ member))
    · rw [Mail.post_of_ne fun here => same here.1]
      exact pending other member
  · intro attached
    rcases sound.flowing attached with ⟨phase, member⟩ | remote
    · exact .inl ⟨phase, mem_finish (Ne.symm isOther) member⟩
    · exact .inr remote

/-- The first message of a replica has been taken from the mail. -/
structure Arrived (store : Watched Replica) (owner sender : Replica)
    (message : WatchMessage Replica) (mail : Mail Replica (WatchMessage Replica)) : Prop where
  differs : sender ≠ owner
  queue : store.mail sender owner = message :: mail sender owner
  elsewhere : ∀ other, other ≠ sender → mail other owner = store.mail other owner
  route : ∀ source target, mail source target ≠ [] → source ≠ owner ∧ target = owner

theorem Sound.arrived (sound : store.Sound owner) {sender receiver : Replica}
    {message : WatchMessage Replica} {mail : Mail Replica (WatchMessage Replica)}
    (taken : store.mail.deliver sender receiver = some (message, mail)) :
    store.Arrived owner sender message mail := by
  obtain ⟨rest, queue, isMail⟩ := Mail.deliver_eq_some_iff.mp taken
  have pending : store.mail sender receiver ≠ [] := by
    rw [queue]
    exact List.cons_ne_nil message rest
  obtain ⟨differs, rfl⟩ := sound.route sender receiver pending
  refine ⟨differs, ?_, ?_, ?_⟩
  · have fromSender : mail sender receiver = rest := by
      rw [isMail]
      exact if_pos ⟨rfl, rfl⟩
    rw [fromSender, queue]
  · intro other isOther
    rw [isMail]
    exact if_neg fun here => isOther here.1
  · intro source target waiting
    by_cases here : source = sender ∧ target = receiver
    · rw [here.1, here.2]
      exact ⟨differs, rfl⟩
    · apply sound.route source target
      rw [isMail] at waiting
      dsimp only at waiting
      rwa [if_neg here] at waiting

section Arriving

variable {sender : Replica} {message : WatchMessage Replica}
  {mail : Mail Replica (WatchMessage Replica)}

/-- The lines after a message, which changes the set of replicas with viewers for its
sender alone. -/
theorem Sound.lines_arrived (sound : store.Sound owner)
    (arrived : store.Arrived owner sender message mail) {members : Finset Replica}
    (line : Line store.viewers (decide (sender ∈ members)) sender (mail sender owner))
    (others : ∀ other, other ≠ sender → (other ∈ members ↔ other ∈ store.remoteViewers))
    (other : Replica) (differs : other ≠ owner) :
    Line store.viewers (decide (other ∈ members)) other (mail other owner) := by
  by_cases same : other = sender
  · subst same
    exact line
  · rw [arrived.elsewhere other same, decide_eq_decide.mpr (others other same)]
    exact sound.lines other differs

/-- The word that the sender has viewers. -/
theorem Sound.joins (sound : store.Sound owner)
    (arrived : store.Arrived owner sender message mail)
    (attaches : .attachSession ∈ mail sender owner)
    (line : Line store.viewers true sender (mail sender owner)) :
    ({ store with mail }.handleBus owner true (.subscribe sender)).Sound owner := by
  have lines : ∀ other, other ≠ owner →
      Line store.viewers (decide (other ∈ insert sender store.remoteViewers)) other
        (mail other owner) := by
    apply sound.lines_arrived arrived
    · rw [decide_eq_true (Finset.mem_insert_self sender _)]
      exact line
    · intro other same
      simp [same]
  refine ⟨arrived.route, lines, ?_, sound.emptied, ?_, fun _ => .inr (Finset.insert_ne_empty _ _)⟩
  · intro other member
    rcases Finset.mem_insert.mp member with rfl | old
    · exact arrived.differs
    · exact sound.others other old
  · intro notAttached
    obtain ⟨noneWatching, waits⟩ := sound.paused notAttached
    refine ⟨noneWatching, ?_⟩
    intro other member
    change _ ∈ mail other owner
    by_cases same : other = sender
    · rw [same]
      exact attaches
    · rw [arrived.elsewhere other same]
      exact waits other (Finset.mem_of_mem_insert_of_ne member same)

/-- The word that the sender has none. -/
theorem Sound.leaves (sound : store.Sound owner)
    (arrived : store.Arrived owner sender message mail)
    (line : Line store.viewers false sender (mail sender owner))
    (knows : store.remoteViewers.erase sender = ∅ → store.receiverCount owner = 0 →
      store.knowsNode = true) :
    ({ store with mail }.handleBus owner true (.unsubscribe sender)).Sound owner := by
  have lines : ∀ other, other ≠ owner →
      Line store.viewers (decide (other ∈ store.remoteViewers.erase sender)) other
        (mail other owner) := by
    apply sound.lines_arrived arrived
    · rw [decide_eq_false (Finset.notMem_erase sender _)]
      exact line
    · intro other same
      simp [same]
  have others : ∀ other ∈ store.remoteViewers.erase sender, other ≠ owner :=
    fun other member => sound.others other (Finset.mem_of_mem_erase member)
  have waits : store.told.getLast? ≠ some .attachSession →
      ∀ other ∈ store.remoteViewers.erase sender, .attachSession ∈ mail other owner := by
    intro notAttached other member
    obtain ⟨isOther, old⟩ := Finset.mem_erase.mp member
    rw [arrived.elsewhere other isOther]
    exact (sound.paused notAttached).2 other old
  have handled : ({ store with mail }.handleBus owner true (.unsubscribe sender)) =
      if store.remoteViewers = ∅ then { store with mail }
      else if store.remoteViewers.erase sender = ∅ ∧ store.receiverCount owner = 0 ∧
          store.knowsNode = true then
        sendDetach owner owner true
          { store with mail, remoteViewers := store.remoteViewers.erase sender }
      else { store with mail, remoteViewers := store.remoteViewers.erase sender } := rfl
  rw [handled]
  by_cases noRemote : store.remoteViewers = ∅
  · rw [if_pos noRemote]
    rw [noRemote, Finset.erase_empty] at lines others waits
    rw [← noRemote] at lines others waits
    exact ⟨arrived.route, lines, others, sound.emptied,
      fun notAttached => ⟨(sound.paused notAttached).1, waits notAttached⟩, sound.flowing⟩
  · rw [if_neg noRemote]
    by_cases last : store.remoteViewers.erase sender = ∅ ∧
        store.receiverCount owner = 0 ∧ store.knowsNode = true
    · rw [if_pos last, sendDetach, if_pos rfl]
      dsimp only
      rw [if_pos last.1]
      refine ⟨arrived.route, lines, others, sound.emptied, ?_, ?_⟩
      · intro _
        refine ⟨(receiverCount_eq_zero_iff.mp last.2.1).2, ?_⟩
        intro other member
        have isRemote : other ∈ (∅ : Finset Replica) := by
          rw [← last.1]
          exact member
        exact absurd isRemote (Finset.notMem_empty other)
      · intro attached
        rw [getLast?_tell] at attached
        cases attached
    · rw [if_neg last]
      refine ⟨arrived.route, lines, others, sound.emptied,
        fun notAttached => ⟨(sound.paused notAttached).1, waits notAttached⟩, ?_⟩
      intro _
      -- either another replica is left, or a viewer of the owner
      by_cases more : store.remoteViewers.erase sender = ∅
      · left
        have receives : store.receiverCount owner ≠ 0 := by
          intro none
          exact last ⟨more, none, knows more none⟩
        by_contra nobody
        push Not at nobody
        exact receives (receiverCount_eq_zero_iff.mpr ⟨nobody _, nobody _⟩)
      · exact .inr more

/-- The wish to attach. -/
theorem Sound.wishes (sound : store.Sound owner)
    (arrived : store.Arrived owner sender message mail) (isRemote : sender ∈ store.remoteViewers)
    (line : Line store.viewers (decide (sender ∈ store.remoteViewers)) sender
      (mail sender owner)) :
    ({ store with mail }.handleBus owner true .attachSession).Sound owner := by
  refine ⟨arrived.route, ?_, sound.others, sound.emptied, ?_, ?_⟩
  · exact sound.lines_arrived arrived line fun _ _ => Iff.rfl
  · exact fun notAttached => absurd getLast?_tell notAttached
  · exact fun _ => .inr (Finset.ne_empty_of_mem isRemote)

/-- A message of another replica arrives at the owner. -/
theorem Sound.deliver (sound : store.Sound owner)
    (arrived : store.Arrived owner sender message mail)
    (knows : ∀ replica ∈ message.leaves, store.remoteViewers.erase replica = ∅ →
      store.receiverCount owner = 0 → store.knowsNode = true) :
    ({ store with mail }.handleBus owner true message).Sound owner := by
  have sent := sound.lines sender arrived.differs
  rw [arrived.queue] at sent
  rcases sent.deliver with ⟨rfl, attaches, line⟩ | ⟨rfl, line⟩ | ⟨rfl, isMember, line⟩
  · exact sound.joins arrived attaches line
  · exact sound.leaves arrived line (knows sender rfl)
  · exact sound.wishes arrived (of_decide_eq_true isMember) line

end Arriving

theorem Sound.step (sound : store.Sound owner) {label : WatchStep Replica}
    (unhurried : store.Unhurried owner label)
    (stepped : store.step owner label = some after) : after.Sound owner := by
  cases label with
  | subscribe replica =>
      cases stepped
      exact sound.subscribe
  | attach replica takes =>
      rw [Watched.step] at stepped
      split at stepped
      case isFalse => cases stepped
      case isTrue =>
        cases stepped
        obtain ⟨rfl, noneEmptied⟩ := unhurried
        by_cases isOwner : replica = owner
        · subst isOwner
          exact sound.attach_owner noneEmptied
        · exact sound.attach_elsewhere isOwner noneEmptied
  | drop replica =>
      rw [Watched.step] at stepped
      split at stepped
      case isFalse => cases stepped
      case isTrue =>
        cases stepped
        exact sound.move (by decide) fun same => nomatch same
  | count replica =>
      rw [Watched.step] at stepped
      split at stepped
      case isFalse => cases stepped
      case isTrue =>
        cases stepped
        split
        case isTrue none =>
          exact sound.move (by decide) fun _ => (receiverCount_eq_zero_iff.mp none).2
        case isFalse more => exact sound.finish more
  | detach replica takes =>
      rw [Watched.step] at stepped
      split at stepped
      case isFalse => cases stepped
      case isTrue isEmptied =>
        cases stepped
        obtain rfl : takes = true := unhurried
        by_cases isOwner : replica = owner
        · subst isOwner
          exact sound.detach_owner isEmptied
        · exact sound.detach_elsewhere isOwner isEmptied
  | deliver sender receiver takes =>
      obtain ⟨⟨message, mail⟩, taken, rest⟩ := Option.bind_eq_some_iff.mp stepped
      dsimp only at rest
      split at rest
      case isFalse => cases rest
      case isTrue isOwner =>
        cases rest
        subst isOwner
        obtain ⟨rfl, knows⟩ := unhurried
        have arrived := sound.arrived taken
        exact sound.deliver arrived (knows message (by rw [arrived.queue]; rfl))

theorem Sound.flows (sound : store.Sound owner) : store.Flowing owner := by
  have known : store.Quiescent → ∀ viewer ∈ store.viewers, viewer.1 ≠ owner →
      viewer.1 ∈ store.remoteViewers := by
    intro quiescent viewer member differs
    obtain ⟨replica, phase⟩ := viewer
    obtain rfl : phase = .watching := quiescent.2 _ member
    have line := (sound.lines replica differs).watched member
    rw [quiescent.1] at line
    exact of_decide_eq_true line
  refine ⟨?_, known, ?_⟩
  · intro quiescent some_
    by_contra notAttached
    obtain ⟨noneWatching, pending⟩ := sound.paused notAttached
    obtain ⟨⟨replica, phase⟩, member⟩ := List.exists_mem_of_ne_nil _ some_
    obtain rfl : phase = .watching := quiescent.2 _ member
    by_cases isOwner : replica = owner
    · exact noneWatching (isOwner ▸ member)
    · have waits := pending replica (known quiescent _ member isOwner)
      rw [quiescent.1] at waits
      cases waits
  · intro quiescent nobody
    have noRemote : store.remoteViewers = ∅ := by
      apply Finset.eq_empty_of_forall_notMem
      intro replica member
      have silent := (sound.lines replica (sound.others replica member)).silent
        (by rw [nobody]; exact fun _ => List.not_mem_nil)
      rw [quiescent.1] at silent
      exact of_decide_eq_false silent member
    cases last : store.told.getLast? with
    | none => exact .inl (List.getLast?_eq_none_iff.mp last)
    | some order =>
        cases order with
        | detachSession => exact .inr rfl
        | attachSession =>
            rcases sound.flowing last with ⟨phase, member⟩ | remote
            · rw [nobody] at member
              cases member
            · exact absurd noRemote remote

end Steps

theorem sound_start {owner : Replica} {knowsNode : Bool} :
    (start knowsNode : Watched Replica).Sound owner where
  route := fun _ _ pending => absurd rfl pending
  lines := by
    intro replica differs
    refine ⟨.inl .nil, ?_, fun _ => rfl⟩
    intro watches
    cases watches
  others := fun _ member => absurd member (Finset.notMem_empty _)
  emptied := by
    intro replica isEmptied
    cases isEmptied
  paused := by
    intro notAttached
    exact ⟨List.not_mem_nil, fun _ member => absurd member (Finset.notMem_empty _)⟩
  flowing := by
    intro attached
    cases attached

/-- In every unhurried run the output flows exactly while somebody watches, as far as
quiescent states show. -/
theorem output_flows {owner : Replica} {knowsNode : Bool}
    {labels : List (WatchStep Replica)}
    (unhurried : Along (step owner) (fun before label _ => before.Unhurried owner label)
      (start knowsNode) labels) :
    Along (step owner) (fun _ _ after => after.Flowing owner) (start knowsNode) labels := by
  apply unhurried.of_invariant (Sound owner)
  · intro before label after sound stepped isUnhurried
    exact sound.step isUnhurried stepped
  · intro before label after sound stepped isUnhurried
    exact (sound.step isUnhurried stepped).flows
  · exact sound_start

section Runs

instance [Fintype Replica] {store : Watched Replica} : Decidable store.Quiescent :=
  inferInstanceAs (Decidable (_ ∧ _))

instance {owner : Replica} {before : Watched Replica} :
    (label : WatchStep Replica) → Decidable (before.Unhurried owner label)
  | .attach _ _ => inferInstanceAs (Decidable (_ ∧ _))
  | .detach _ takes => inferInstanceAs (Decidable (takes = true))
  | .deliver _ _ _ => inferInstanceAs (Decidable (_ ∧ _))
  | .subscribe _ | .drop _ | .count _ => .isTrue trivial

theorem neZero_two : NeZero (1 + 1) := inferInstance

attribute [local instance] neZero_two

/-- A viewer of the owner leaves.  Another attaches between its count and its word. -/
def freezes : List (WatchStep (Fin 2)) :=
  [.subscribe 0, .attach 0 true, .drop 0, .count 0, .subscribe 0, .attach 0 true,
    .detach 0 true]

/-- The owner did not start the session, and the only viewer leaves elsewhere. -/
def neverPauses : List (WatchStep (Fin 2)) :=
  [.subscribe 1, .attach 1 true, .deliver 1 0 true, .deliver 1 0 true, .drop 1, .count 1,
    .detach 1 true, .deliver 1 0 true]

theorem output_stops :
    ¬Along (step (0 : Fin 2)) (fun _ _ after => after.Flowing 0) (start true) freezes ∧
      ¬Along (step (0 : Fin 2)) (fun _ _ after => after.Flowing 0) (start false)
        neverPauses := by
  refine ⟨fun flows => ?_, fun flows => ?_⟩
  · obtain ⟨-, -, -, -, -, -, last, -⟩ := flows
    exact absurd (last.attached (by decide) (by decide)) (by decide)
  · obtain ⟨-, -, -, -, -, -, -, last, -⟩ := flows
    exact absurd (last.detached (by decide) (by decide)) (by decide)

/-- Viewers of both replicas come and go one after the other. -/
def unhurried : List (WatchStep (Fin 2)) :=
  [.subscribe 1, .attach 1 true, .subscribe 0, .deliver 1 0 true, .attach 0 true,
    .deliver 1 0 true, .drop 0, .count 0, .detach 0 true, .drop 1, .count 1, .detach 1 true,
    .subscribe 1, .attach 1 true, .deliver 1 0 true, .deliver 1 0 true]

theorem output_flows_unhurried :
    Along (step (0 : Fin 2)) (fun _ _ after => after.Flowing 0) (start true) unhurried := by
  apply output_flows
  decide

end Runs

end Watched

end NookOs.Ws
