/-
Module: NookOs.Ws.TunnelBody
Purpose: The frames of one tunnelled exchange between the node and the visitor, with
  the bounded channel they wait in and the two readers of it.
Trusted boundary: none
Main exports: Passage, Passage.step, Response, stream, Visit, pump, body_right, messages_right
-/
import NookOs.Lib.Run
import NookOs.Ws.Wire

namespace NookOs.Ws

open Lib

abbrev Bytes := List UInt8

/-- One exchange on its way: what the owner has not read from the socket of the node,
what is relayed, the channel of the one who asked with its entry, and the reader.
`consumed` is what the reader has taken. -/
structure Passage (Reader : Type) where
  socket : List TunnelFrame
  remembered : Bool
  bus : List TunnelFrame
  pending : Bool
  channel : List TunnelFrame
  reader : Reader
  consumed : List TunnelFrame

/-- A reader of the channel: what it does with what `recv` gives it, whether it calls
`recv` again, and what is left of it when the visitor goes. -/
structure Reading (Reader : Type) where
  take : Reader → Option TunnelFrame → Reader
  reads : Reader → Bool
  leave : Reader → Reader

/-- The owner reads a frame, a relayed frame arrives, the reader calls `recv`, the
visitor goes, or the entry is closed by something else than these. -/
inductive PassageStep where
  | receive
  | deliver
  | read
  | leave
  | closeTunnel
deriving DecidableEq

namespace Passage

variable {Reader : Type}

/-- `tunnel_frame` where the entry is: a full channel drops the frame. -/
def handOver (frame : TunnelFrame) (passage : Passage Reader) : Passage Reader :=
  { passage with
    channel :=
      if passage.pending ∧ passage.channel.length < channelRoom then
        passage.channel ++ [frame]
      else passage.channel
    pending := passage.pending && !frame.terminal }

/-- `tunnel_frame` at an owner that relays. -/
def relay (frame : TunnelFrame) (passage : Passage Reader) : Passage Reader :=
  { passage with
    bus := if passage.remembered then passage.bus ++ [frame] else passage.bus
    remembered := passage.remembered && !frame.terminal }

/-- The sender is gone, and what is in the channel can still be read. -/
def closeTunnel (passage : Passage Reader) : Passage Reader :=
  { passage with pending := false }

/-- `recv` waits while the channel is empty and the sender stands. -/
def read (reading : Reading Reader) (passage : Passage Reader) : Option (Passage Reader) :=
  if reading.reads passage.reader then
    match passage.channel with
    | frame :: channel =>
        some
          { passage with
            channel
            reader := reading.take passage.reader (some frame)
            consumed := passage.consumed ++ [frame] }
    | [] =>
        if passage.pending then none
        else some { passage with reader := reading.take passage.reader none }
  else none

/-- `across` says that the replica that asked is not the owner of the node. -/
def step (across : Bool) (reading : Reading Reader) (passage : Passage Reader) :
    PassageStep → Option (Passage Reader)
  | .receive =>
      match passage.socket with
      | [] => none
      | frame :: socket =>
          let passage := { passage with socket }
          some (if across then passage.relay frame else passage.handOver frame)
  | .deliver =>
      match passage.bus with
      | [] => none
      | frame :: bus => some ({ passage with bus }.handOver frame)
  | .read => passage.read reading
  | .leave => some { passage.closeTunnel with reader := reading.leave passage.reader }
  | .closeTunnel => some passage.closeTunnel

/-- The request has reached the node, whose frames these are. -/
def start (frames : List TunnelFrame) (across : Bool) (reader : Reader) :
    Passage Reader where
  socket := frames
  remembered := across
  bus := []
  pending := true
  channel := []
  reader := reader
  consumed := []

/-- The frame that a step hands over where the entry is. -/
def arriving (across : Bool) (passage : Passage Reader) : PassageStep → Option TunnelFrame
  | .receive => if across then none else passage.socket.head?
  | .deliver => passage.bus.head?
  | .read | .leave | .closeTunnel => none

/-- A frame that comes while the entry stands finds room in the channel. -/
def Roomy (across : Bool) (passage : Passage Reader) (label : PassageStep) : Prop :=
  (passage.arriving across label).isSome = true → passage.pending = true →
    passage.channel.length < channelRoom

instance Roomy.decidable (across : Bool) (passage : Passage Reader)
    (label : PassageStep) : Decidable (passage.Roomy across label) :=
  inferInstanceAs (Decidable (_ → _ → _))

end Passage

section Visitor

variable (decode : String → Option Bytes)

/-- The visitor's response: the head is awaited, an error page is served, or the body
is streamed, ends, or is broken off. -/
inductive Response where
  | waiting
  | refused
  | streaming (body : Bytes)
  | ended (body : Bytes)
  | broken (body : Bytes)
deriving DecidableEq

/-- The bytes of the body so far. -/
def Response.body : Response → Bytes
  | .waiting | .refused => []
  | .streaming body | .ended body | .broken body => body

/-- The head in `proxy`, and a round of the loop of `stream_response`. -/
def stream : Reading Response where
  take
    | .waiting, some (.tunnelResponse ..) => .streaming []
    | .waiting, _ => .refused
    | .streaming body, some (.tunnelChunk _ dataB64 last) =>
        match decode dataB64 with
        | none => .broken body
        | some bytes => if last then .ended (body ++ bytes) else .streaming (body ++ bytes)
    | .streaming body, some (.tunnelFailed _) => .broken body
    | .streaming body, some _ => .streaming body
    | .streaming body, none => .ended body
    | done, _ => done
  reads
    | .waiting | .streaming _ => true
    | _ => false
  leave
    | .waiting => .refused
    | .streaming body => .broken body
    | done => done

/-- A frame of the visitor's socket. -/
inductive Message where
  | binary (bytes : Bytes)
  | text (text : String)
deriving DecidableEq

/-- What a node frame is on the visitor's socket, where it can be carried. -/
def visitorMessage (dataB64 : String) (binary : Bool) : Option Message := do
  let bytes ← decode dataB64
  if binary then some (.binary bytes)
  else (String.fromUTF8? ⟨bytes.toArray⟩).map .text

/-- The visitor's socket: the answer to the upgrade is awaited, an error page is
served, frames are carried, or the socket is over. -/
inductive Visit where
  | waiting
  | refused
  | carrying (messages : List Message)
  | concluded (messages : List Message)
deriving DecidableEq

def Visit.messages : Visit → List Message
  | .waiting | .refused => []
  | .carrying messages | .concluded messages => messages

/-- The answer in `proxy_upgrade`, and a frame in the loop of `pump`. -/
def pump : Reading Visit where
  take
    | .waiting, some (.tunnelUpgraded ..) => .carrying []
    | .waiting, _ => .refused
    | .carrying messages, some (.tunnelWsData dataB64 binary) =>
        match visitorMessage decode dataB64 binary with
        | none => .concluded messages
        | some message => .carrying (messages ++ [message])
    | .carrying messages, some (.tunnelWsClose ..) => .concluded messages
    | .carrying messages, some (.tunnelFailed _) => .concluded messages
    | .carrying messages, some _ => .carrying messages
    | .carrying messages, none => .concluded messages
    | done, _ => done
  reads
    | .waiting | .carrying _ => true
    | _ => false
  leave
    | .waiting => .refused
    | .carrying messages => .concluded messages
    | done => done

/-- The chunks in order, up to one that cannot be read. -/
def bodyOf : List TunnelFrame → Bytes
  | [] => []
  | .tunnelChunk _ dataB64 _ :: frames =>
      match decode dataB64 with
      | none => []
      | some bytes => bytes ++ bodyOf frames
  | _ :: frames => bodyOf frames

/-- The frames of the socket in order, up to one that cannot be carried. -/
def messagesOf : List TunnelFrame → List Message
  | [] => []
  | .tunnelWsData dataB64 binary :: frames =>
      match visitorMessage decode dataB64 binary with
      | none => []
      | some message => message :: messagesOf frames
  | _ :: frames => messagesOf frames

/-- What a node may send for a request: a head, and chunks of which the last one, or
a failure, ends them. -/
structure BodyFrames (frames : List TunnelFrame) : Prop where
  kind : ∀ frame ∈ frames, (∃ version status headers,
      frame = .tunnelResponse version status headers) ∨
    (∃ seq dataB64 last, frame = .tunnelChunk seq dataB64 last) ∨
      ∃ message, frame = .tunnelFailed message
  ending : ∀ earlier frame later, frames = earlier ++ frame :: later →
    frame.terminal = true → later = []

/-- What the visitor is owed of a body. -/
structure BodyRight (frames : List TunnelFrame) (response : Response) : Prop where
  ordered : response.body <+: bodyOf decode frames
  whole : ∀ body, response = .ended body →
    body = bodyOf decode frames ∧
      (∃ earlier seq dataB64, frames = earlier ++ [.tunnelChunk seq dataB64 true]) ∧
      ∀ seq dataB64 last, .tunnelChunk seq dataB64 last ∈ frames →
        (decode dataB64).isSome = true

end Visitor

/-- Where the frames are on their way while every one of them finds room: what the
reader has taken and what waits for it are the first of them, and while the entry
stands the rest follow. -/
structure Passage.Carried {Reader : Type} (across : Bool) (frames : List TunnelFrame)
    (passage : Passage Reader) : Prop where
  carried : passage.consumed ++ passage.channel <+: frames
  coming : passage.pending = true →
    passage.consumed ++ passage.channel ++ passage.bus <+: frames
  whole : passage.pending = true → (across = true → passage.remembered = true) →
    passage.consumed ++ passage.channel ++ passage.bus ++ passage.socket = frames
  near : across = false → passage.bus = []

section Transport

variable {Reader : Type} {reading : Reading Reader} {across : Bool}
  {frames : List TunnelFrame} {passage after : Passage Reader} {label : PassageStep}
  {frame : TunnelFrame}

theorem Passage.carried_start {reader : Reader} :
    (Passage.start frames across reader).Carried across frames where
  carried := List.nil_prefix
  coming := fun _ => List.nil_prefix
  whole := fun _ _ => rfl
  near := fun _ => rfl

/-- A frame that is handed over where the entry stands is the next in the channel. -/
theorem Passage.channel_handOver (waits : passage.pending = true)
    (room : passage.channel.length < channelRoom) :
    (passage.handOver frame).channel = passage.channel ++ [frame] :=
  if_pos ⟨waits, room⟩

theorem Passage.channel_handOver_of_closed (closed : passage.pending = false) :
    (passage.handOver frame).channel = passage.channel :=
  if_neg fun both => by rw [closed] at both; cases both.1

/-- An entry that stands after a frame stood before it. -/
theorem Passage.pending_of_handOver (waits : (passage.handOver frame).pending = true) :
    passage.pending = true ∧ frame.terminal = false := by
  simpa [handOver] using waits

/-- A frame that was the next to come is handed over. -/
theorem Passage.Carried.handOver
    (carried : passage.consumed ++ passage.channel <+: frames)
    (coming : passage.pending = true →
      passage.consumed ++ passage.channel ++ frame :: passage.bus <+: frames)
    (whole : passage.pending = true → (across = true → passage.remembered = true) →
      passage.consumed ++ passage.channel ++ frame :: passage.bus ++ passage.socket =
        frames)
    (near : across = false → passage.bus = [])
    (room : passage.pending = true → passage.channel.length < channelRoom) :
    (passage.handOver frame).Carried across frames := by
  have next : ∀ waits : passage.pending = true, ∀ rest,
      passage.consumed ++ (passage.handOver frame).channel ++ rest =
        passage.consumed ++ passage.channel ++ frame :: rest := by
    intro waits rest
    rw [channel_handOver waits (room waits)]
    simp
  constructor
  · cases waits : passage.pending with
    | false =>
        rw [channel_handOver_of_closed waits]
        exact carried
    | true =>
        have isNext := next waits []
        rw [List.append_nil] at isNext
        change passage.consumed ++ (passage.handOver frame).channel <+: frames
        rw [isNext]
        exact List.IsPrefix.trans ⟨passage.bus, by simp⟩ (coming waits)
  · intro waits
    have stood := (pending_of_handOver waits).1
    change passage.consumed ++ (passage.handOver frame).channel ++ passage.bus <+: frames
    rw [next stood]
    exact coming stood
  · intro waits remembered
    have stood := (pending_of_handOver waits).1
    change passage.consumed ++ (passage.handOver frame).channel ++ passage.bus ++
      passage.socket = frames
    rw [next stood]
    exact whole stood remembered
  · exact near

/-- A frame that is read from the socket is the next on the bus. -/
theorem Passage.Carried.relay {rest : List TunnelFrame}
    (carries : passage.Carried true frames) (socket : passage.socket = frame :: rest) :
    (Passage.relay frame { passage with socket := rest }).Carried true frames := by
  refine ⟨carries.carried, ?_, ?_, fun near => nomatch near⟩
  · intro waits
    by_cases remembered : passage.remembered = true
    · have newBus : (Passage.relay frame { passage with socket := rest }).bus =
          passage.bus ++ [frame] := if_pos remembered
      rw [newBus]
      refine ⟨rest, ?_⟩
      rw [← carries.whole waits fun _ => remembered, socket]
      simp [Passage.relay]
    · have sameBus : (Passage.relay frame { passage with socket := rest }).bus =
          passage.bus := if_neg remembered
      rw [sameBus]
      exact carries.coming waits
  · intro waits remembers
    have both : passage.remembered = true ∧ frame.terminal = false := by
      simpa [Passage.relay] using remembers rfl
    rw [← carries.whole waits fun _ => both.1, socket]
    simp [Passage.relay, both.1]

theorem Passage.Carried.closed (carries : passage.Carried across frames) {reader : Reader} :
    ({ passage.closeTunnel with reader } : Passage Reader).Carried across frames := by
  refine ⟨carries.carried, ?_, ?_, carries.near⟩
  · intro waits
    cases waits
  · intro waits
    cases waits

theorem Passage.Carried.step (carries : passage.Carried across frames)
    (roomy : passage.Roomy across label)
    (stepped : passage.step across reading label = some after) :
    after.Carried across frames := by
  cases label with
  | receive =>
      rw [Passage.step] at stepped
      cases socket : passage.socket with
      | nil =>
          rw [socket] at stepped
          cases stepped
      | cons frame rest =>
          rw [socket] at stepped
          cases across with
          | false =>
              cases stepped
              have noBus := carries.near rfl
              have whole : passage.pending = true → passage.consumed ++ passage.channel ++
                  frame :: passage.bus ++ rest = frames := by
                intro waits
                rw [← carries.whole waits (by simp), noBus, socket]
                simp
              apply Carried.handOver
              · exact carries.carried
              · exact fun waits => ⟨rest, whole waits⟩
              · exact fun waits _ => whole waits
              · exact fun _ => noBus
              · exact roomy (by simp [arriving, socket])
          | true =>
              cases stepped
              exact carries.relay socket
  | deliver =>
      rw [Passage.step] at stepped
      cases bus : passage.bus with
      | nil =>
          rw [bus] at stepped
          cases stepped
      | cons frame rest =>
          rw [bus] at stepped
          cases stepped
          have coming := carries.coming
          have whole := carries.whole
          rw [bus] at coming whole
          apply Carried.handOver
          · exact carries.carried
          · exact coming
          · exact whole
          · intro near
            rw [carries.near near] at bus
            cases bus
          · exact roomy (by simp [arriving, bus])
  | read =>
      change passage.read reading = some after at stepped
      rw [read] at stepped
      split at stepped
      case isFalse => cases stepped
      case isTrue =>
        split at stepped
        case h_1 frame rest channel =>
          cases stepped
          have moved : passage.consumed ++ [frame] ++ rest =
              passage.consumed ++ passage.channel := by
            rw [channel]
            simp
          refine ⟨?_, ?_, ?_, carries.near⟩
          · rw [moved]
            exact carries.carried
          · rw [moved]
            exact carries.coming
          · rw [moved]
            exact carries.whole
        case h_2 =>
          split at stepped
          case isTrue => cases stepped
          case isFalse =>
            cases stepped
            exact ⟨carries.carried, carries.coming, carries.whole, carries.near⟩
  | leave | closeTunnel =>
      cases stepped
      exact carries.closed

end Transport

variable {taken : List TunnelFrame}

section Reading

variable {decode : String → Option Bytes} {frames : List TunnelFrame}

/-- Every chunk of these can be read. -/
def Decodes (decode : String → Option Bytes) (frames : List TunnelFrame) : Prop :=
  ∀ seq dataB64 last, .tunnelChunk seq dataB64 last ∈ frames →
    (decode dataB64).isSome = true

theorem bodyOf_append {first second : List TunnelFrame} (decodes : Decodes decode first) :
    bodyOf decode (first ++ second) = bodyOf decode first ++ bodyOf decode second := by
  induction first with
  | nil => rfl
  | cons frame frames ih =>
      have rest : Decodes decode frames := fun seq dataB64 last member =>
        decodes seq dataB64 last (List.mem_cons_of_mem frame member)
      have isRest := ih rest
      cases frame with
      | tunnelChunk seq dataB64 last =>
          obtain ⟨bytes, isBytes⟩ :=
            Option.isSome_iff_exists.mp (decodes seq dataB64 last List.mem_cons_self)
          simp only [List.cons_append, bodyOf, isBytes, isRest, List.append_assoc]
      | _ => exact isRest

/-- The first frames give the first bytes. -/
theorem bodyOf_prefix {first : List TunnelFrame} (isFirst : first <+: frames) :
    bodyOf decode first <+: bodyOf decode frames := by
  obtain ⟨rest, rfl⟩ := isFirst
  induction first with
  | nil => exact List.nil_prefix
  | cons frame frames ih =>
      cases frame with
      | tunnelChunk seq dataB64 last =>
          simp only [List.cons_append, bodyOf]
          cases decode dataB64 with
          | none => exact List.prefix_refl _
          | some bytes => exact (List.prefix_append_right_inj bytes).mpr ih
      | _ => exact ih

theorem messagesOf_prefix {first : List TunnelFrame} (isFirst : first <+: frames) :
    messagesOf decode first <+: messagesOf decode frames := by
  obtain ⟨rest, rfl⟩ := isFirst
  induction first with
  | nil => exact List.nil_prefix
  | cons frame frames ih =>
      cases frame with
      | tunnelWsData dataB64 binary =>
          simp only [List.cons_append, messagesOf]
          cases visitorMessage decode dataB64 binary with
          | none => exact List.prefix_refl _
          | some message => exact (List.prefix_cons_inj message).mpr ih
      | _ => exact ih

theorem Decodes.append {first second : List TunnelFrame} (left : Decodes decode first)
    (right : Decodes decode second) : Decodes decode (first ++ second) := by
  intro seq dataB64 last member
  rcases List.mem_append.mp member with inFirst | inSecond
  · exact left seq dataB64 last inFirst
  · exact right seq dataB64 last inSecond

/-- What the response has made of the frames it was given. -/
inductive Streamed (decode : String → Option Bytes) :
    Response → List TunnelFrame → Prop where
  | waiting : Streamed decode .waiting []
  | refused {taken : List TunnelFrame} : Streamed decode .refused taken
  | streaming {taken : List TunnelFrame} {body : Bytes}
      (isBody : body = bodyOf decode taken) (decodes : Decodes decode taken)
      (unended : ∀ frame ∈ taken, frame.terminal = false) :
      Streamed decode (.streaming body) taken
  | ended {taken : List TunnelFrame} {body : Bytes} (isBody : body = bodyOf decode taken)
      (decodes : Decodes decode taken)
      (last : ∃ earlier seq dataB64, taken = earlier ++ [.tunnelChunk seq dataB64 true]) :
      Streamed decode (.ended body) taken
  | broken {taken : List TunnelFrame} {body : Bytes}
      (isBody : body = bodyOf decode taken) : Streamed decode (.broken body) taken

theorem Streamed.body_eq {response : Response} (streamed : Streamed decode response taken) :
    response.body = [] ∨ response.body = bodyOf decode taken := by
  cases streamed with
  | waiting | refused => exact .inl rfl
  | streaming isBody => exact .inr isBody
  | ended isBody => exact .inr isBody
  | broken isBody => exact .inr isBody

/-- A chunk after frames that did not end the body. -/
theorem Streamed.chunk {body : Bytes} {seq : UInt64}
    {dataB64 : String} {last : Bool} (streamed : Streamed decode (.streaming body) taken) :
    Streamed decode
      ((stream decode).take (.streaming body) (some (.tunnelChunk seq dataB64 last)))
      (taken ++ [.tunnelChunk seq dataB64 last]) := by
  cases streamed with
  | streaming isBody decodes unended =>
      have appended := @bodyOf_append decode taken [.tunnelChunk seq dataB64 last] decodes
      simp only [stream]
      cases isBytes : decode dataB64 with
      | none =>
          apply Streamed.broken
          rw [appended, isBody]
          simp [bodyOf, isBytes]
      | some bytes =>
          have more : body ++ bytes =
              bodyOf decode (taken ++ [.tunnelChunk seq dataB64 last]) := by
            rw [appended, isBody]
            simp [bodyOf, isBytes]
          have allDecode : Decodes decode (taken ++ [.tunnelChunk seq dataB64 last]) := by
            apply decodes.append
            intro other data final member
            cases List.mem_singleton.mp member
            rw [isBytes]
            rfl
          cases last with
          | true => exact .ended more allDecode ⟨taken, seq, dataB64, rfl⟩
          | false =>
              apply Streamed.streaming more allDecode
              intro frame member
              rcases List.mem_append.mp member with old | new
              · exact unended frame old
              · rw [List.mem_singleton.mp new]
                rfl

theorem Streamed.take {response : Response}
    {frame : TunnelFrame} (streamed : Streamed decode response taken)
    (reads : (stream decode).reads response = true)
    (kind : (∃ version status headers, frame = .tunnelResponse version status headers) ∨
      (∃ seq dataB64 last, frame = .tunnelChunk seq dataB64 last) ∨
        ∃ message, frame = .tunnelFailed message) :
    Streamed decode ((stream decode).take response (some frame)) (taken ++ [frame]) := by
  have headDecodes : ∀ version status headers,
      Decodes decode [.tunnelResponse version status headers] := by
    intro version status headers seq dataB64 last member
    cases List.mem_singleton.mp member
  cases streamed with
  | waiting =>
      rcases kind with ⟨version, status, headers, rfl⟩ | ⟨seq, dataB64, last, rfl⟩ |
        ⟨message, rfl⟩
      · apply Streamed.streaming rfl (headDecodes version status headers)
        intro frame member
        rw [List.mem_singleton.mp member]
        rfl
      · exact .refused
      · exact .refused
  | refused | ended | broken => cases reads
  | streaming isBody decodes unended =>
      rcases kind with ⟨version, status, headers, rfl⟩ | ⟨seq, dataB64, last, rfl⟩ |
        ⟨message, rfl⟩
      · refine .streaming ?_ (decodes.append (headDecodes version status headers)) ?_
        · rw [bodyOf_append decodes, isBody]
          simp [bodyOf]
        · intro frame member
          rcases List.mem_append.mp member with old | new
          · exact unended frame old
          · rw [List.mem_singleton.mp new]
            rfl
      · exact Streamed.chunk (.streaming isBody decodes unended)
      · apply Streamed.broken
        rw [bodyOf_append decodes, isBody]
        simp [bodyOf]

/-- A visitor who goes leaves a body that is broken off. -/
theorem Streamed.leave {response : Response} (streamed : Streamed decode response taken) :
    Streamed decode ((stream decode).leave response) taken ∧
      (stream decode).reads ((stream decode).leave response) = false := by
  cases streamed with
  | waiting | refused => exact ⟨.refused, rfl⟩
  | streaming isBody => exact ⟨.broken isBody, rfl⟩
  | ended isBody decodes last => exact ⟨.ended isBody decodes last, rfl⟩
  | broken isBody => exact ⟨.broken isBody, rfl⟩

end Reading

section Body

variable {decode : String → Option Bytes} {across : Bool} {frames : List TunnelFrame}

/-- What holds of a body on its way while every frame finds room and nothing but its
terminal frame closes the entry under the reader. -/
structure BodySound (decode : String → Option Bytes) (across : Bool)
    (frames : List TunnelFrame) (passage : Passage Response) : Prop where
  carries : passage.Carried across frames
  streamed : Streamed decode passage.reader passage.consumed
  shut : passage.pending = false → (stream decode).reads passage.reader = true →
    ∃ frame ∈ passage.consumed ++ passage.channel, frame.terminal = true

/-- What a step needs: room for a frame that arrives, and no end of the entry while
the body is read. -/
def BodyOrderly (decode : String → Option Bytes) (across : Bool)
    (passage : Passage Response) (label : PassageStep) : Prop :=
  passage.Roomy across label ∧
    (label = .closeTunnel → (stream decode).reads passage.reader = false)

instance BodyOrderly.decidable (passage : Passage Response) (label : PassageStep) :
    Decidable (BodyOrderly decode across passage label) :=
  inferInstanceAs (Decidable (_ ∧ _))

variable {passage after : Passage Response} {label : PassageStep} {frame : TunnelFrame}

/-- The terminal frame is in the channel once it has closed the entry. -/
theorem BodySound.shut_handOver
    (shut : passage.pending = false → (stream decode).reads passage.reader = true →
      ∃ frame ∈ passage.consumed ++ passage.channel, frame.terminal = true)
    (room : passage.pending = true → passage.channel.length < channelRoom)
    (closed : (passage.handOver frame).pending = false)
    (reads : (stream decode).reads passage.reader = true) :
    ∃ last ∈ passage.consumed ++ (passage.handOver frame).channel,
      last.terminal = true := by
  cases waits : passage.pending with
  | false =>
      rw [Passage.channel_handOver_of_closed waits]
      exact shut waits reads
  | true =>
      have terminal : frame.terminal = true := by
        simpa [Passage.handOver, waits] using closed
      rw [Passage.channel_handOver waits (room waits)]
      exact ⟨frame, by simp, terminal⟩

theorem BodySound.read (sound : BodySound decode across frames passage)
    (bodyFrames : BodyFrames frames) (taken : passage.read (stream decode) = some after) :
    Streamed decode after.reader after.consumed ∧
      (after.pending = false → (stream decode).reads after.reader = true →
        ∃ frame ∈ after.consumed ++ after.channel, frame.terminal = true) := by
  rw [Passage.read] at taken
  split at taken
  case isFalse => cases taken
  case isTrue reads =>
    split at taken
    case h_1 frame rest channel =>
      cases taken
      have isNext : frame ∈ passage.consumed ++ passage.channel := by
        rw [channel]
        simp
      have isOurs : frame ∈ frames := sound.carries.carried.subset isNext
      refine ⟨sound.streamed.take reads (bodyFrames.kind frame isOurs), ?_⟩
      intro closed _
      have moved : passage.consumed ++ [frame] ++ rest =
          passage.consumed ++ passage.channel := by
        rw [channel]
        simp
      rw [moved]
      exact sound.shut closed reads
    case h_2 channel =>
      split at taken
      case isTrue => cases taken
      case isFalse waits =>
        cases taken
        have closed : passage.pending = false := (Bool.not_eq_true _).mp waits
        obtain ⟨last, member, terminal⟩ := sound.shut closed reads
        rw [channel, List.append_nil] at member
        have streamed := sound.streamed
        cases reader : passage.reader with
        | waiting => exact ⟨.refused, fun _ more => nomatch more⟩
        | streaming body =>
            rw [reader] at streamed
            cases streamed with
            | streaming isBody decodes unended =>
                rw [unended last member] at terminal
                cases terminal
        | _ =>
            rw [reader] at reads
            cases reads

theorem BodySound.step (sound : BodySound decode across frames passage)
    (bodyFrames : BodyFrames frames) (orderly : BodyOrderly decode across passage label)
    (stepped : passage.step across (stream decode) label = some after) :
    BodySound decode across frames after := by
  have carries := sound.carries.step orderly.1 stepped
  cases label with
  | receive =>
      rw [Passage.step] at stepped
      cases socket : passage.socket with
      | nil =>
          rw [socket] at stepped
          cases stepped
      | cons frame rest =>
          rw [socket] at stepped
          cases across with
          | true =>
              cases stepped
              exact ⟨carries, sound.streamed, sound.shut⟩
          | false =>
              cases stepped
              refine ⟨carries, sound.streamed, shut_handOver sound.shut ?_⟩
              exact orderly.1 (by simp [Passage.arriving, socket])
  | deliver =>
      rw [Passage.step] at stepped
      cases bus : passage.bus with
      | nil =>
          rw [bus] at stepped
          cases stepped
      | cons frame rest =>
          rw [bus] at stepped
          cases stepped
          refine ⟨carries, sound.streamed, shut_handOver sound.shut ?_⟩
          exact orderly.1 (by simp [Passage.arriving, bus])
  | read =>
      obtain ⟨streamed, shut⟩ := sound.read bodyFrames stepped
      exact ⟨carries, streamed, shut⟩
  | leave =>
      cases stepped
      obtain ⟨streamed, stops⟩ := sound.streamed.leave
      refine ⟨carries, streamed, fun _ reads => ?_⟩
      rw [stops] at reads
      cases reads
  | closeTunnel =>
      cases stepped
      refine ⟨carries, sound.streamed, fun _ reads => ?_⟩
      have stopped := orderly.2 rfl
      rw [show (stream decode).reads passage.reader = true from reads] at stopped
      cases stopped

theorem BodySound.right (sound : BodySound decode across frames passage)
    (bodyFrames : BodyFrames frames) : BodyRight decode frames passage.reader := by
  have isFirst : passage.consumed <+: frames :=
    (List.prefix_append _ _).trans sound.carries.carried
  constructor
  · rcases sound.streamed.body_eq with none | isBody
    · rw [none]
      exact List.nil_prefix
    · rw [isBody]
      exact bodyOf_prefix isFirst
  · intro body ended
    have streamed := sound.streamed
    rw [ended] at streamed
    cases streamed with
    | ended isBody decodes last =>
        obtain ⟨earlier, seq, dataB64, isTaken⟩ := last
        obtain ⟨rest, isAll⟩ := isFirst
        -- nothing follows the last chunk
        have none : rest = [] := by
          apply bodyFrames.ending earlier (.tunnelChunk seq dataB64 true) rest _ rfl
          rw [← isAll, isTaken]
          simp
        rw [none, List.append_nil] at isAll
        rw [← isAll]
        exact ⟨isBody, ⟨earlier, seq, dataB64, isTaken⟩, decodes⟩

theorem body_right (bodyFrames : BodyFrames frames) {labels : List PassageStep}
    (orderly : Along (Passage.step across (stream decode))
      (fun before label _ => BodyOrderly decode across before label)
      (Passage.start frames across .waiting) labels) :
    Along (Passage.step across (stream decode))
      (fun _ _ after => BodyRight decode frames after.reader)
      (Passage.start frames across .waiting) labels := by
  apply orderly.of_invariant (BodySound decode across frames)
  · intro before label after sound stepped isOrderly
    exact sound.step bodyFrames isOrderly stepped
  · intro before label after sound stepped isOrderly
    exact (sound.step bodyFrames isOrderly stepped).right bodyFrames
  · exact ⟨Passage.carried_start, .waiting, fun closed => nomatch closed⟩

end Body

section Socket

variable {decode : String → Option Bytes} {across : Bool} {frames : List TunnelFrame}
  {passage after : Passage Visit} {label : PassageStep}

/-- What the visitor's socket has made of the frames it was given. -/
def Visited (decode : String → Option Bytes) (visit : Visit)
    (taken : List TunnelFrame) : Prop :=
  match visit with
  | .waiting => taken = []
  | .refused => True
  | .carrying messages =>
      ∀ more, messagesOf decode (taken ++ more) = messages ++ messagesOf decode more
  | .concluded messages => messages <+: messagesOf decode taken

theorem Visited.messages_prefix {visit : Visit} (visited : Visited decode visit taken) :
    visit.messages <+: messagesOf decode taken := by
  cases visit with
  | waiting | refused => exact List.nil_prefix
  | carrying messages =>
      have all := visited []
      rw [List.append_nil] at all
      exact ⟨[], by rw [all]; rfl⟩
  | concluded messages => exact visited

theorem Visited.take {visit : Visit} {frame : TunnelFrame}
    (visited : Visited decode visit taken) (reads : (pump decode).reads visit = true) :
    Visited decode ((pump decode).take visit (some frame)) (taken ++ [frame]) := by
  cases visit with
  | refused | concluded => cases reads
  | waiting =>
      have isFirst : taken = [] := visited
      subst isFirst
      cases frame with
      | tunnelUpgraded version headers => exact fun more => rfl
      | _ => trivial
  | carrying messages =>
      have next : ∀ more, messagesOf decode (taken ++ [frame] ++ more) =
          messages ++ messagesOf decode (frame :: more) := by
        intro more
        rw [List.append_assoc]
        exact visited (frame :: more)
      have soFar : messages <+: messagesOf decode (taken ++ [frame]) := by
        have all := visited [frame]
        rw [all]
        exact List.prefix_append ..
      cases frame with
      | tunnelWsData dataB64 binary =>
          simp only [pump]
          cases isMessage : visitorMessage decode dataB64 binary with
          | none => exact soFar
          | some message =>
              intro more
              rw [next more]
              simp [messagesOf, isMessage]
      | tunnelWsClose | tunnelFailed => exact soFar
      | _ => exact next

theorem Visited.leave {visit : Visit} (visited : Visited decode visit taken) :
    Visited decode ((pump decode).leave visit) taken := by
  cases visit with
  | waiting | refused => trivial
  | carrying messages => exact visited.messages_prefix
  | concluded messages => exact visited

/-- The frames that reach the visitor are the first of those the node sent. -/
def SocketSound (decode : String → Option Bytes) (across : Bool)
    (frames : List TunnelFrame) (passage : Passage Visit) : Prop :=
  passage.Carried across frames ∧ Visited decode passage.reader passage.consumed

theorem SocketSound.step (sound : SocketSound decode across frames passage)
    (roomy : passage.Roomy across label)
    (stepped : passage.step across (pump decode) label = some after) :
    SocketSound decode across frames after := by
  obtain ⟨carries, visited⟩ := sound
  refine ⟨carries.step roomy stepped, ?_⟩
  cases label with
  | receive =>
      rw [Passage.step] at stepped
      split at stepped
      case h_1 => cases stepped
      case h_2 =>
        cases stepped
        cases across with
        | true | false => exact visited
  | deliver =>
      rw [Passage.step] at stepped
      split at stepped
      case h_1 => cases stepped
      case h_2 =>
        cases stepped
        exact visited
  | closeTunnel =>
      cases stepped
      exact visited
  | leave =>
      cases stepped
      exact visited.leave
  | read =>
      change passage.read (pump decode) = some after at stepped
      rw [Passage.read] at stepped
      split at stepped
      case isFalse => cases stepped
      case isTrue reads =>
        split at stepped
        case h_1 =>
          cases stepped
          exact visited.take reads
        case h_2 =>
          split at stepped
          case isTrue => cases stepped
          case isFalse =>
            cases stepped
            cases reader : passage.reader with
            | waiting => trivial
            | carrying messages =>
                rw [reader] at visited
                exact visited.messages_prefix
            | _ =>
                rw [reader] at reads
                cases reads

theorem messages_right {labels : List PassageStep}
    (roomy : Along (Passage.step across (pump decode))
      (fun before label _ => before.Roomy across label)
      (Passage.start frames across .waiting) labels) :
    Along (Passage.step across (pump decode))
      (fun _ _ after => after.reader.messages <+: messagesOf decode frames)
      (Passage.start frames across .waiting) labels := by
  apply roomy.of_invariant (SocketSound decode across frames)
  · intro before label after sound stepped isRoomy
    exact sound.step isRoomy stepped
  · intro before label after sound stepped isRoomy
    obtain ⟨carries, visited⟩ := sound.step isRoomy stepped
    apply visited.messages_prefix.trans
    exact messagesOf_prefix ((List.prefix_append _ _).trans carries.carried)
  · exact ⟨Passage.carried_start, rfl⟩

end Socket

/-- In every run in which each frame finds room, and nothing but its terminal frame
ends a body that is being read, a body is a prefix of what the node sent and whole
where it ends well, and a socket carries the first of the frames in order. -/
theorem tunnelled_right {decode : String → Option Bytes} {across : Bool}
    {frames : List TunnelFrame} {labels : List PassageStep} :
    (BodyFrames frames →
      Along (Passage.step across (stream decode))
        (fun before label _ => BodyOrderly decode across before label)
        (Passage.start frames across .waiting) labels →
      Along (Passage.step across (stream decode))
        (fun _ _ after => BodyRight decode frames after.reader)
        (Passage.start frames across .waiting) labels) ∧
      (Along (Passage.step across (pump decode))
        (fun before label _ => before.Roomy across label)
        (Passage.start frames across .waiting) labels →
      Along (Passage.step across (pump decode))
        (fun _ _ after => after.reader.messages <+: messagesOf decode frames)
        (Passage.start frames across .waiting) labels) :=
  ⟨fun bodyFrames orderly => body_right bodyFrames orderly, messages_right⟩

/-- A decoder for the chunks used below. -/
def decodeLetter (dataB64 : String) : Option Bytes :=
  if dataB64 = "" then some [] else if dataB64 = "QQ==" then some [65] else none

/-- A head, some chunks of one letter each, and the end. -/
def letters (n : Nat) : List TunnelFrame :=
  .tunnelResponse 1 200 [] ::
    ((List.range n).map (fun seq => .tunnelChunk (.ofNat seq) "QQ==" false) ++
      [.tunnelChunk (.ofNat n) "" true])

theorem bodyFrames_letters {n : Nat} : BodyFrames (letters n) := by
  constructor
  · intro frame member
    simp only [letters, List.mem_cons, List.mem_append, List.mem_map, List.not_mem_nil,
      or_false] at member
    rcases member with rfl | ⟨seq, -, rfl⟩ | rfl
    · exact .inl ⟨1, 200, [], rfl⟩
    · exact .inr (.inl ⟨.ofNat seq, "QQ==", false, rfl⟩)
    · exact .inr (.inl ⟨.ofNat n, "", true, rfl⟩)
  · intro earlier frame later isLetters terminal
    rcases List.eq_nil_or_concat later with none | ⟨before, last, rfl⟩
    · exact none
    · -- a frame before the last one is the head or one of the letters
      rw [List.concat_eq_append, ← List.cons_append, ← List.append_assoc, letters,
        ← List.cons_append] at isLetters
      obtain ⟨isInit, -⟩ := List.append_inj' isLetters rfl
      have member : frame ∈ earlier ++ frame :: before := by simp
      rw [← isInit, List.mem_cons, List.mem_map] at member
      rcases member with rfl | ⟨seq, -, rfl⟩
      · cases terminal
      · cases terminal

/-- The visitor reads the head, then sixty-five chunks and the end arrive, and only
then the visitor reads on. -/
def slowVisitor : List PassageStep :=
  [.receive, .read] ++ List.replicate 66 .receive ++ List.replicate 65 .read

theorem slowVisitor_ended :
    (run (Passage.step false (stream decodeLetter))
      (Passage.start (letters 65) false .waiting) slowVisitor).map (·.reader) =
        some (.ended (List.replicate 64 65)) := by
  decide +kernel

/-- The response ends well with one letter missing. -/
theorem letter_missing :
    ¬Along (Passage.step false (stream decodeLetter))
      (fun _ _ after => BodyRight decodeLetter (letters 65) after.reader)
      (Passage.start (letters 65) false .waiting) slowVisitor := by
  intro right
  obtain ⟨final, ran, ended⟩ := Option.map_eq_some_iff.mp slowVisitor_ended
  have finalRight : BodyRight decodeLetter (letters 65) final.reader := by
    apply right.run_invariant (fun passage => BodyRight decodeLetter (letters 65)
      passage.reader) (fun _ _ _ _ _ isRight => isRight) _ ran
    exact ⟨List.nil_prefix, fun _ isEnded => nomatch isEnded⟩
  have isWhole := (finalRight.whole _ ended).1
  exact absurd isWhole (by decide +kernel)

/-- A visitor who reads as the chunks arrive, and a socket that is withdrawn. -/
theorem tunnelled_right_letters :
    Along (Passage.step true (stream decodeLetter))
        (fun _ _ after => BodyRight decodeLetter (letters 1) after.reader)
        (Passage.start (letters 1) true .waiting)
        [.receive, .deliver, .read, .receive, .deliver, .receive, .read, .deliver, .read] ∧
      Along (Passage.step false (pump decodeLetter))
        (fun _ _ after => after.reader.messages <+: messagesOf decodeLetter
          [.tunnelUpgraded 1 [], .tunnelWsData "QQ==" true, .tunnelWsData "QQ==" false])
        (Passage.start [.tunnelUpgraded 1 [], .tunnelWsData "QQ==" true,
          .tunnelWsData "QQ==" false] false .waiting)
        [.receive, .read, .receive, .closeTunnel, .read, .read] := by
  exact ⟨tunnelled_right.1 bodyFrames_letters (by decide), tunnelled_right.2 (by decide)⟩

end NookOs.Ws
