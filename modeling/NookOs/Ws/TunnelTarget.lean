/-
Module: NookOs.Ws.TunnelTarget
Purpose: The node's handler of a tunnelled request: the URL it asks for, what its client
  makes of the responses, and the frames that come back.
Trusted boundary: the parser and the redirects of the HTTP client, and base64, are
  parameters
Main exports: UrlParser, Node, TunnelRequest, handle, OnlyItsPort, PathFit, port_reached_iff
-/
import Mathlib.Data.List.DropRight
import NookOs.Lib.Http
import NookOs.Lib.Text
import NookOs.Ws.TunnelHeaders

namespace NookOs.Ws.TunnelTarget

open Lib Lib.Http Lib.Text
open TunnelHeaders (isText toStr)

/-! ### The URL of a port -/

def loopback : Ipv4 := ⟨127, 0, 0, 1⟩

def scheme : List Char := "http://".toList

def loopbackHost : List Char := "127.0.0.1:".toList

/-- `{port}`. -/
def decimal (port : UInt16) : List Char := Nat.toDigits 10 port.toNat

/-- `http://127.0.0.1:{port}{path}`. -/
def urlOf (port : UInt16) (path : List Char) : List Char :=
  scheme ++ (loopbackHost ++ (decimal port ++ path))

/-- A control character or a space. -/
def isC0OrSpace (char : Char) : Bool := char.toNat ≤ 0x20

def isTabOrNewline (char : Char) : Bool := char = '\t' || char = '\n' || char = '\r'

/-- What a parser of URLs looks at: nothing that trails, and no tab or newline. -/
def cleaned (text : List Char) : List Char :=
  (text.rdropWhile isC0OrSpace).filter fun char => !isTabOrNewline char

/-- The end of an authority. -/
def endsAuthority (char : Char) : Bool :=
  char = '/' || char = '?' || char = '#' || char = '\\'

def authority (text : List Char) : List Char := text.takeWhile fun char => !endsAuthority char

/-- A parser of URLs as the WHATWG standard describes it, as far as it is asked about the
loopback host.  `hostPort` is its reading of a host with a port. -/
structure UrlParser where
  parse : List Char → Option Url
  hostPort : List Char → Option (Host × Nat)
  /-- What precedes the last `@` of the authority is user information. -/
  http : ∀ rest, (parse (scheme ++ (loopbackHost ++ rest))).map Url.target =
    (hostPort (lastSegment '@' (authority (cleaned (loopbackHost ++ rest))))).map
      fun found => (some found.1, found.2)
  port_read : ∀ digits, digits ≠ [] → digits.all Char.isDigit = true →
    Nat.ofDigitChars 10 digits 0 ≤ 65535 →
      hostPort (loopbackHost ++ digits) = some (.v4 loopback, Nat.ofDigitChars 10 digits 0)
  port_refused : ∀ text, text ≠ [] →
    ¬ (text.all Char.isDigit = true ∧ Nat.ofDigitChars 10 text 0 ≤ 65535) →
      hostPort (loopbackHost ++ text) = none

/-! ### The handler -/

/-- The frame, as far as the handler reads it. -/
structure TunnelRequest where
  version : Nat
  port : UInt16
  method : List Char
  path : List Char
  headers : List Header
  bodyB64 : List Char
deriving DecidableEq

/-- What the node sends back for one request. -/
inductive Frame where
  | failed (message : List Char)
  | response (version status : Nat) (headers : List Header)
  | chunk (seq : Nat) (dataB64 : List Char) (last : Bool)
deriving DecidableEq

/-- The code the node was built with that is not its own. -/
structure Node where
  parser : UrlParser
  client : Client
  decode : List Char → Except (List Char) Bytes
  encode : Bytes → List Char
  isMethod : List Char → Bool
  isHeader : Header → Bool
  builderError : List Char

/-- `TUNNEL_PROTOCOL_VERSION`. -/
def tunnelProtocolVersion : Nat := 1

def newerMessage (version : Nat) : List Char :=
  "tunnel frame v".toList ++ Nat.toDigits 10 version ++ " is newer than this node's v".toList ++
    Nat.toDigits 10 tunnelProtocolVersion ++ "; upgrade the node".toList

def upstreamMessage (port : UInt16) (failure : List Char) : List Char :=
  "upstream on port ".toList ++ decimal port ++ ": ".toList ++ failure

namespace Node

variable (node : Node)

/-- The builder fails at a URL or a header that it cannot read. -/
def build (frame : TunnelRequest) (body : Bytes) : Option Request :=
  if frame.headers.all node.isHeader then
    (node.parser.parse (urlOf frame.port frame.path)).map fun url =>
      ⟨frame.method, url, frame.headers, body⟩
  else none

/-- The request the frame asks for, or the frame that refuses it. -/
def ask (frame : TunnelRequest) : Except Frame Request := do
  if tunnelProtocolVersion < frame.version then
    throw (.failed (newerMessage frame.version))
  let body ← (node.decode frame.bodyB64).mapError fun failure =>
    .failed ("undecodable body: ".toList ++ failure)
  if !node.isMethod frame.method then
    throw (.failed ("bad method: ".toList ++ frame.method))
  match node.build frame body with
  | none => throw (.failed (upstreamMessage frame.port node.builderError))
  | some request => pure request

/-- The body of a response, chunk by chunk from a number on. -/
def stream (ending : Except (List Char) Unit) : Nat → List Bytes → List Frame
  | seq, [] =>
      match ending with
      | .ok () => [.chunk seq [] true]
      | .error failure => [.failed ("upstream ended early: ".toList ++ failure)]
  | seq, bytes :: rest => .chunk seq (node.encode bytes) false :: stream ending (seq + 1) rest

/-- A header value that is not text is sent as an empty one. -/
def sentHeader (header : Header) : Header := (header.1, (toStr header.2).getD [])

def answer (response : Response) : List Frame :=
  .response tunnelProtocolVersion response.status (response.headers.map sentHeader) ::
    node.stream response.ending 0 response.chunks

end Node

/-- The requests that the handler sends, the frames that it answers with, and the place
of the request whose response they carry, which no code reads. -/
structure Handled where
  requests : List Request
  frames : List Frame
  answers : Option Nat

def handle (node : Node) (world : World) (frame : TunnelRequest) : Handled :=
  match node.ask frame with
  | .error refusal => ⟨[], [refusal], none⟩
  | .ok request =>
      let sent := node.client.send world request
      match sent.result with
      | .error failure => ⟨sent.requests, [.failed (upstreamMessage frame.port failure)], none⟩
      | .ok (place, response) => ⟨sent.requests, node.answer response, some place⟩

/-! ### Only its port -/

/-- The response as it was given. -/
def verbatim (node : Node) (response : Response) : List Frame :=
  .response tunnelProtocolVersion response.status response.headers ::
    node.stream response.ending 0 response.chunks

/-- Every request goes to the port of the frame, and what comes back is the response to
the visitor's request as the service gave it. -/
structure OnlyItsPort (node : Node) (world : World) (frame : TunnelRequest) : Prop where
  reaches : ∀ request ∈ (handle node world frame).requests,
    request.url.target = (some (.v4 loopback), frame.port.toNat)
  faithful : ∀ request response, (handle node world frame).requests.head? = some request →
    world [request] = .ok response →
      (handle node world frame).answers = some 0 ∧
        (handle node world frame).frames = verbatim node response

/-- What the path adds to the authority of the URL is nothing, or leaves a URL that cannot
be read or names the port all the same: a user information before the last `@`, or more
digits. -/
def PathFit (parser : UrlParser) (port : UInt16) (path : List Char) : Prop :=
  let added := authority (cleaned path)
  if '@' ∈ added then
    ∀ found ∈ parser.hostPort (lastSegment '@' added), found = (.v4 loopback, port.toNat)
  else
    added.all Char.isDigit = true → Nat.ofDigitChars 10 (decimal port ++ added) 0 ≤ 65535 →
      Nat.ofDigitChars 10 (decimal port ++ added) 0 = port.toNat

/-- The service's response to the visitor's request is no redirect that the client
follows, and its headers are text. -/
def AnswerFit (node : Node) (world : World) (request : Request) : Prop :=
  ∀ response, world [request] = .ok response →
    node.client.follow request response = none ∧
      ∀ header ∈ response.headers, isText header.2 = true

/-! ### Where the URL goes -/

section Target

variable {head tail : List Char} {port : UInt16} {path : List Char}

/-- A character of a host with a port, which no step of the parser looks for. -/
def isPlain (char : Char) : Bool :=
  !isC0OrSpace char && !isTabOrNewline char && !endsAuthority char && char != '@'

theorem isPlain_iff {char : Char} : isPlain char = true ↔
    isC0OrSpace char = false ∧ isTabOrNewline char = false ∧ endsAuthority char = false ∧
      char ≠ '@' := by
  simp [isPlain, and_assoc]

/-- What trails a plain text does not reach into it. -/
theorem cleaned_append
    (plain : ∀ char ∈ head, isC0OrSpace char = false ∧ isTabOrNewline char = false) :
    cleaned (head ++ tail) = head ++ cleaned tail := by
  have kept : (head ++ tail).rdropWhile isC0OrSpace = head ++ tail.rdropWhile isC0OrSpace := by
    induction tail using List.reverseRecOn with
    | nil =>
        rw [List.append_nil, List.rdropWhile_nil, List.append_nil, List.rdropWhile_eq_self_iff]
        intro nonempty trails
        have last := (plain _ (List.getLast_mem nonempty)).1
        rw [last] at trails
        cases trails
    | append_singleton rest char ih =>
        rw [← List.append_assoc]
        by_cases trails : isC0OrSpace char = true
        · rw [List.rdropWhile_concat_pos _ _ _ trails, List.rdropWhile_concat_pos _ _ _ trails,
            ih]
        · rw [List.rdropWhile_concat_neg _ _ _ trails, List.rdropWhile_concat_neg _ _ _ trails,
            List.append_assoc]
  have whole : head.filter (fun char => !isTabOrNewline char) = head := by
    rw [List.filter_eq_self]
    intro char member
    rw [(plain char member).2]
    rfl
  rw [cleaned, kept, List.filter_append, whole, cleaned]

theorem authority_append (plain : ∀ char ∈ head, isPlain char = true) :
    authority (head ++ tail) = head ++ authority tail := by
  unfold authority
  rw [List.takeWhile_append_of_pos]
  intro char member
  rw [(isPlain_iff.mp (plain char member)).2.2.1]
  rfl

/-- Past the last mark of a text, what came before it does not matter. -/
theorem lastSegment_append_of_mem {mark : Char} (member : mark ∈ tail) :
    lastSegment mark (head ++ tail) = lastSegment mark tail := by
  have stops : ∃ char ∈ tail.reverse, decide (char ≠ mark) = false :=
    ⟨mark, List.mem_reverse.mpr member, by simp⟩
  obtain ⟨char, inside, isMark⟩ := stops
  have shorter : (tail.reverse.takeWhile fun char => decide (char ≠ mark)).length ≠
      tail.reverse.length := by
    intro same
    have prefixed := List.takeWhile_prefix (l := tail.reverse) fun char => decide (char ≠ mark)
    have whole := prefixed.eq_of_length same
    have all := List.takeWhile_eq_self_iff.mp whole char inside
    rw [isMark] at all
    cases all
  unfold lastSegment List.rtakeWhile
  rw [List.reverse_append, List.takeWhile_append, if_neg shorter]

theorem lastSegment_of_notMem {mark : Char} {text : List Char} (absent : mark ∉ text) :
    lastSegment mark text = text := by
  rw [lastSegment, List.rtakeWhile_eq_self_iff]
  intro char member
  apply decide_eq_true
  rintro rfl
  exact absent member

theorem isPlain_of_isDigit {char : Char} (digit : char.isDigit = true) :
    isPlain char = true := by
  have bounds : 48 ≤ char.toNat ∧ char.toNat ≤ 57 := by
    obtain ⟨least, most⟩ := Bool.and_eq_true_iff.mp digit
    exact ⟨UInt32.le_iff_toNat_le.mp (of_decide_eq_true least),
      UInt32.le_iff_toNat_le.mp (of_decide_eq_true most)⟩
  have apart : ∀ other : Char, other.toNat < 48 ∨ 57 < other.toNat → char ≠ other := by
    rintro other far rfl
    omega
  rw [isPlain_iff]
  simp only [isC0OrSpace, isTabOrNewline, endsAuthority, decide_eq_false_iff_not,
    Bool.or_eq_false_iff]
  refine ⟨by omega, ⟨⟨?_, ?_⟩, ?_⟩, ⟨⟨⟨?_, ?_⟩, ?_⟩, ?_⟩, ?_⟩ <;>
    exact apart _ (by decide)

theorem isPlain_loopbackHost : ∀ char ∈ loopbackHost, isPlain char = true := by
  decide +kernel

theorem decimal_all : (decimal port).all Char.isDigit = true := by
  rw [List.all_eq_true]
  intro char member
  exact Nat.isDigit_of_mem_toDigits (by decide) (by decide) member

theorem isPlain_start : ∀ char ∈ loopbackHost ++ decimal port, isPlain char = true := by
  intro char member
  obtain host | digit := List.mem_append.mp member
  · exact isPlain_loopbackHost char host
  · exact isPlain_of_isDigit (List.all_eq_true.mp decimal_all char digit)

/-- What the parser reads as host and port of the URL. -/
theorem read_urlOf (parser : UrlParser) :
    (parser.parse (urlOf port path)).map Url.target =
      (parser.hostPort (lastSegment '@'
        (loopbackHost ++ (decimal port ++ authority (cleaned path))))).map
          fun found => (some found.1, found.2) := by
  have read := parser.http (decimal port ++ path)
  have kept : ∀ char ∈ loopbackHost ++ decimal port,
      isC0OrSpace char = false ∧ isTabOrNewline char = false := by
    intro char member
    obtain ⟨visible, unbroken, -⟩ := isPlain_iff.mp (isPlain_start char member)
    exact ⟨visible, unbroken⟩
  rw [← List.append_assoc loopbackHost, cleaned_append kept,
    authority_append isPlain_start, List.append_assoc loopbackHost] at read
  exact read

/-- The URL goes to the port, where it can be read, exactly when its host and port do. -/
theorem target_iff (parser : UrlParser) :
    (∀ url ∈ parser.parse (urlOf port path),
      url.target = (some (.v4 loopback), port.toNat)) ↔
    ∀ found ∈ parser.hostPort (lastSegment '@'
      (loopbackHost ++ (decimal port ++ authority (cleaned path)))),
        found = (.v4 loopback, port.toNat) := by
  have read := @read_urlOf port path parser
  generalize parser.hostPort (lastSegment '@'
    (loopbackHost ++ (decimal port ++ authority (cleaned path)))) = found at read ⊢
  cases found with
  | none =>
      have unread : parser.parse (urlOf port path) = none := Option.map_eq_none_iff.mp read
      simp [unread]
  | some found =>
      obtain ⟨url, parsed, target⟩ := Option.map_eq_some_iff.mp read
      obtain ⟨host, number⟩ := found
      simp only [parsed, Option.mem_def, Option.some.injEq, forall_eq', target, Prod.mk.injEq]

/-- The URL goes to the port, where it can be read, exactly when the path is fit. -/
theorem pathFit_iff (parser : UrlParser) :
    (∀ url ∈ parser.parse (urlOf port path),
      url.target = (some (.v4 loopback), port.toNat)) ↔ PathFit parser port path := by
  rw [target_iff]
  unfold PathFit
  dsimp only
  generalize authority (cleaned path) = added
  by_cases marked : '@' ∈ added
  · rw [if_pos marked, ← List.append_assoc, lastSegment_append_of_mem marked]
  · rw [if_neg marked, lastSegment_of_notMem]
    swap
    · intro inside
      rw [← List.append_assoc] at inside
      obtain start | rest := List.mem_append.mp inside
      · exact (isPlain_iff.mp (isPlain_start _ start)).2.2.2 rfl
      · exact marked rest
    have nonempty : decimal port ++ added ≠ [] := by
      intro empty
      exact Nat.toDigits_ne_nil (List.append_eq_nil_iff.mp empty).1
    have digits : (decimal port ++ added).all Char.isDigit = added.all Char.isDigit := by
      rw [List.all_append, decimal_all, Bool.true_and]
    by_cases read : (decimal port ++ added).all Char.isDigit = true ∧
        Nat.ofDigitChars 10 (decimal port ++ added) 0 ≤ 65535
    · rw [parser.port_read _ nonempty read.1 read.2]
      have all : added.all Char.isDigit = true := digits ▸ read.1
      simp only [Option.mem_def, Option.some.injEq, forall_eq', Prod.mk.injEq, true_and, all,
        read.2, forall_const]
    · rw [parser.port_refused _ nonempty read]
      simp only [Option.mem_def, reduceCtorEq, false_implies, implies_true, true_iff]
      intro all small
      exact absurd ⟨digits.trans all, small⟩ read

/-- A path that starts with a slash, as the ones of the control plane do, adds nothing. -/
theorem pathFit_of_slash (parser : UrlParser) (rest : List Char) :
    PathFit parser port ('/' :: rest) := by
  have slash : ∀ char ∈ ['/'], isC0OrSpace char = false ∧ isTabOrNewline char = false := by
    decide
  have nothing : authority (cleaned ('/' :: rest)) = [] := by
    have cleanedRest := @cleaned_append ['/'] rest slash
    rw [List.singleton_append, List.singleton_append] at cleanedRest
    rw [cleanedRest]
    rfl
  unfold PathFit
  dsimp only
  rw [nothing, if_neg List.not_mem_nil, List.append_nil]
  intro _ _
  exact Nat.ofDigitChars_ten_toDigits

end Target

/-! ### What the handler reaches -/

section Reach

variable {node : Node} {world : World} {frame : TunnelRequest} {request : Request}
  {response : Response}

/-- A request that is asked for goes to the URL of the frame. -/
theorem Node.ask_ok (asked : node.ask frame = .ok request) :
    request.url ∈ node.parser.parse (urlOf frame.port frame.path) := by
  unfold Node.ask at asked
  by_cases newer : tunnelProtocolVersion < frame.version
  · rw [if_pos newer] at asked
    cases asked
  rw [if_neg newer] at asked
  cases decoded : node.decode frame.bodyB64 with
  | error failure =>
      rw [decoded] at asked
      cases asked
  | ok body =>
      rw [decoded] at asked
      cases known : node.isMethod frame.method with
      | false =>
          rw [known] at asked
          cases asked
      | true =>
          rw [known] at asked
          change (match node.build frame body with
            | none => Except.error (Frame.failed (upstreamMessage frame.port node.builderError))
            | some request => Except.ok request) = Except.ok request at asked
          cases built : node.build frame body with
          | none =>
              rw [built] at asked
              cases asked
          | some found =>
              rw [built] at asked
              cases asked
              unfold Node.build at built
              split at built
              · obtain ⟨url, parsed, rfl⟩ := Option.map_eq_some_iff.mp built
                exact parsed
              · cases built

theorem Node.sentHeader_eq_iff {header : Header} :
    Node.sentHeader header = header ↔ isText header.2 = true := by
  obtain ⟨name, value⟩ := header
  simp only [Node.sentHeader, toStr, Prod.mk.injEq, true_and]
  by_cases text : isText value = true
  · simp [text]
  · rw [if_neg text, Option.getD_none]
    constructor
    · rintro rfl
      exact absurd rfl text
    · intro isText
      exact absurd isText text

/-- The frames carry the response as it is when its headers are text. -/
theorem Node.answer_eq_iff :
    node.answer response = verbatim node response ↔
      ∀ header ∈ response.headers, isText header.2 = true := by
  unfold Node.answer verbatim
  simp only [List.cons.injEq, Frame.response.injEq, true_and, and_true]
  constructor
  · intro same header member
    have whole : response.headers.map Node.sentHeader = response.headers.map id := by
      rw [same, List.map_id]
    exact Node.sentHeader_eq_iff.mp (List.map_inj_left.mp whole header member)
  · intro text
    conv_rhs => rw [← List.map_id response.headers]
    exact List.map_inj_left.mpr fun header member =>
      Node.sentHeader_eq_iff.mpr (text header member)

theorem handle_error {refusal : Frame} (refused : node.ask frame = .error refusal) :
    handle node world frame = ⟨[], [refusal], none⟩ := by
  simp only [handle, refused]

/-- The requests of the handler are the ones its client sends. -/
theorem handle_requests (asked : node.ask frame = .ok request) :
    (handle node world frame).requests = (node.client.send world request).requests := by
  simp only [handle, asked]
  split <;> rfl

theorem handle_head (world : World) (asked : node.ask frame = .ok request) :
    (handle node world frame).requests.head? = some request := by
  rw [handle_requests asked]
  obtain ⟨rest, whole⟩ := @Client.send_first node.client world request
  rw [← whole]
  rfl

end Reach

/-- What a frame and the service's first response have to be: where a request is asked
for, the path leaves it at the port, and the response to it is fit. -/
def Fit (node : Node) (world : World) (frame : TunnelRequest) : Prop :=
  ∀ request, node.ask frame = .ok request →
    PathFit node.parser frame.port frame.path ∧ AnswerFit node world request

/-- The handler reaches only its port, and answers with what the service gave the visitor,
exactly when the path and the service's response are fit. -/
theorem port_reached_iff (node : Node) (world : World) (frame : TunnelRequest) :
    OnlyItsPort node world frame ↔ Fit node world frame := by
  constructor
  · rintro ⟨reaches, faithful⟩ request asked
    have head := handle_head world asked
    have target := reaches request (List.mem_of_head? head)
    refine ⟨(pathFit_iff node.parser).mp fun url parsed => ?_, fun response answered => ?_⟩
    · obtain rfl := Option.some.inj ((Node.ask_ok asked).symm.trans parsed)
      exact target
    · obtain ⟨first, frames⟩ := faithful request response head answered
      have unfollowed : node.client.follow request response = none := by
        cases followed : node.client.follow request response with
        | none => rfl
        | some next =>
            simp only [handle, asked] at first
            split at first
            · cases first
            · rename_i place last came
              have later := node.client.send_followed answered followed came
              cases first
              omega
      simp only [handle, asked, node.client.send_unfollowed answered unfollowed] at frames
      exact ⟨unfollowed, Node.answer_eq_iff.mp frames⟩
  · intro fit
    cases asked : node.ask frame with
    | error refusal =>
        refine ⟨fun request member => ?_, fun request response head => ?_⟩
        · rw [handle_error asked] at member
          cases member
        · rw [handle_error asked] at head
          cases head
    | ok request =>
        obtain ⟨pathFit, answerFit⟩ := fit request asked
        have target := (pathFit_iff node.parser).mpr pathFit request.url (Node.ask_ok asked)
        have only : (handle node world frame).requests = [request] := by
          rw [handle_requests asked]
          cases answered : world [request] with
          | error failure => rw [node.client.send_failed answered]
          | ok response =>
              rw [node.client.send_unfollowed answered (answerFit response answered).1]
        refine ⟨fun sent member => ?_, fun first response head answered => ?_⟩
        · rw [only] at member
          obtain rfl := List.mem_singleton.mp member
          exact target
        · rw [only] at head
          obtain rfl := Option.some.inj head
          obtain ⟨unfollowed, text⟩ := answerFit response answered
          simp only [handle, asked, node.client.send_unfollowed answered unfollowed, true_and]
          exact Node.answer_eq_iff.mpr text

/-! ### A node behind a service that redirects -/

/-- The rest of the text after a pattern it starts with. -/
def after (pattern text : List Char) : Option (List Char) :=
  if pattern.isPrefixOf text then some (text.drop pattern.length) else none

theorem after_append (pattern rest : List Char) : after pattern (pattern ++ rest) = some rest := by
  unfold after
  rw [if_pos (List.isPrefixOf_iff_prefix.mpr (List.prefix_append pattern rest)),
    List.drop_left]

/-- A host with a port on the loopback address, or a name. -/
def readHostPort (text : List Char) : Option (Host × Nat) :=
  match after loopbackHost text with
  | some [] => some (.v4 loopback, 80)
  | some digits =>
      if digits.all Char.isDigit = true ∧ Nat.ofDigitChars 10 digits 0 ≤ 65535 then
        some (.v4 loopback, Nat.ofDigitChars 10 digits 0)
      else none
  | none => if text = [] then none else some (.name text, 80)

def readUrl (text : List Char) : Option Url :=
  (after scheme text).bind fun rest =>
    (readHostPort (lastSegment '@' (authority (cleaned rest)))).map fun found =>
      ⟨"http".toList, some found.1, found.2, rest⟩

def someParser : UrlParser where
  parse := readUrl
  hostPort := readHostPort
  http rest := by
    simp only [readUrl, after_append, Option.bind_some, Option.map_map]
    rfl
  port_read digits nonempty all small := by
    unfold readHostPort
    rw [after_append]
    cases digits with
    | nil => exact absurd rfl nonempty
    | cons digit rest => exact if_pos ⟨all, small⟩
  port_refused text nonempty refused := by
    unfold readHostPort
    rw [after_append]
    cases text with
    | nil => exact absurd rfl nonempty
    | cons char rest => exact if_neg refused

/-- A client that asks for what it is sent to with `GET`, ten times. -/
def someClient : Client where
  join _ text := readUrl text
  onward request _ url := { request with method := "GET".toList, url := url, body := [] }
  onward_url _ _ url := Eq.refl url
  maxRedirects := 10

def someNode : Node where
  parser := someParser
  client := someClient
  decode _ := .ok []
  encode _ := []
  isMethod _ := true
  isHeader _ := true
  builderError := "builder error".toList

/-- The visitor asks for the root of what listens on port 8080. -/
def visit : TunnelRequest := ⟨1, 8080, "GET".toList, "/".toList, [], []⟩

/-- The service sends whoever asks to another host. -/
def redirecting : World
  | [_] => .ok ⟨302, [("location".toList, "http://intranet/".toList)], [], .ok ()⟩
  | _ => .ok ⟨200, [], [], .ok ()⟩

theorem port_left : ¬ OnlyItsPort someNode redirecting visit := by
  rintro ⟨reaches, -⟩
  have targets : (handle someNode redirecting visit).requests.map (·.url.target) =
      [(some (.v4 loopback), 8080), (some (.name "intranet".toList), 80)] := by
    decide +kernel
  have member : (some (Host.name "intranet".toList), 80) ∈
      (handle someNode redirecting visit).requests.map (·.url.target) := by
    rw [targets]
    exact List.mem_cons_of_mem _ List.mem_cons_self
  obtain ⟨request, sent, target⟩ := List.mem_map.mp member
  have wrong := target.symm.trans (reaches request sent)
  cases wrong

end NookOs.Ws.TunnelTarget
