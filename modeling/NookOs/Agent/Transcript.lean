/-
Module: NookOs.Agent.Transcript
Purpose: What a node hears from a streaming agent: the lines of its output, the
  event of each, and the turn signal.
Trusted boundary: the JSON parser of another package is a parameter
Main exports: Json, Event, parseEvent, readLines, pumpEvents, Keeps, pump_keeps_iff
-/
import NookOs.Lib.Text
import Mathlib.Data.List.Forall2

namespace NookOs.Agent

open Lib

section Protocol

/-- A JSON value.  Nothing computes with a number, so it is its text. -/
inductive Json where
  | null
  | bool (value : Bool)
  | number (text : String)
  | string (text : String)
  | array (items : List Json)
  | object (fields : List (String × Json))

namespace Json

def get (key : String) : Json → Option Json
  | object fields => (fields.find? (·.1 = key)).map Prod.snd
  | _ => none

def asStr : Json → Option String
  | string text => some text
  | _ => none

def asBool : Json → Option Bool
  | bool value => some value
  | _ => none

def asArray : Json → Option (List Json)
  | array items => some items
  | _ => none

/-- The text under a key. -/
def text (value : Json) (key : String) : Option String := (value.get key).bind asStr

/-- The blocks of `message.content`. -/
def content (value : Json) : Option (List Json) :=
  ((value.get "message").bind (get "content")).bind asArray

end Json

/-- One tool the agent is waiting on a human for. -/
structure PermissionRequest where
  id : String
  toolName : String
  description : String
  input : Json

/-- What one output line means to the node. -/
inductive Event where
  | sessionStarted (sessionId : String)
  | assistantText (text : String)
  | toolUse (name : String)
  | turnStarted
  | turnEnded (ok : Bool) (message : Option String)
  | userEcho (text : String)
  | permissionRequest (request : PermissionRequest)
  | ignored

def trimmed (text : String) : String := String.ofList (Text.trim text.toList)

def parseControlRequest (value : Json) : Event :=
  match value.get "request" with
  | none => .ignored
  | some request =>
      if request.text "subtype" ≠ some "can_use_tool" then .ignored
      else
        match value.text "request_id" with
        | none => .ignored
        | some id =>
            .permissionRequest
              { id := id
                toolName := (request.text "tool_name").getD "tool"
                description := (request.text "description").getD ""
                input := (request.get "input").getD .null }

def parseSystem (value : Json) : Event :=
  if value.text "subtype" = some "init" then
    match value.text "session_id" with
    | some id => .sessionStarted id
    | none => .ignored
  else .ignored

/-- What one content block of an assistant record returns, where it returns. -/
def parseBlock (block : Json) : Option Event :=
  if block.text "type" = some "text" then
    match block.text "text" with
    | some text => if trimmed text = "" then none else some (.assistantText text)
    | none => none
  else if block.text "type" = some "tool_use" then
    some (.toolUse ((block.text "name").getD "tool"))
  else none

/-- The loop over the content blocks, which the first that returns ends. -/
def parseBlocks : List Json → Event
  | [] => .turnStarted
  | block :: rest => (parseBlock block).getD (parseBlocks rest)

def parseAssistant (value : Json) : Event :=
  match value.content with
  | none => .turnStarted
  | some blocks => parseBlocks blocks

def parseUser (value : Json) : Event :=
  .userEcho ((value.content.bind fun blocks =>
    blocks.findSome? (·.text "text")).getD "")

def parseResult (value : Json) : Event :=
  .turnEnded (!((value.get "is_error").bind Json.asBool).getD false) (value.text "result")

variable (fromStr : String → Option Json)

def parseEvent (line : String) : Event :=
  if trimmed line = "" then .ignored
  else
    match fromStr (trimmed line) with
    | none => .ignored
    | some value =>
        match value.text "type" with
        | some "control_request" => parseControlRequest value
        | some "system" => parseSystem value
        | some "assistant" => parseAssistant value
        | some "user" => parseUser value
        | some "result" => parseResult value
        | _ => .ignored

end Protocol

section Pump

abbrev Bytes := List UInt8

/-- The lines of a stream as a buffered reader gives them, each with its line
feed. -/
def readLines : Bytes → List Bytes
  | [] => []
  | 10 :: rest => [10] :: readLines rest
  | byte :: rest =>
      match readLines rest with
      | [] => [[byte]]
      | line :: lines => (byte :: line) :: lines

/-- A line feed goes, and a carriage return before it. -/
def withoutEnd (line : List Char) : List Char :=
  if line.getLast? = some '\n' then
    if line.dropLast.getLast? = some '\r' then line.dropLast.dropLast else line.dropLast
  else line

/-- The text of a line, where its bytes are one. -/
def lineText (line : Bytes) : Option String :=
  (String.fromUTF8? line.toByteArray).map fun text => String.ofList (withoutEnd text.toList)

def tailLines : Nat := 40

/-- One line more, and the oldest go. -/
def pushTail (tail : List String) (line : String) : List String :=
  (tail ++ [line]).drop (tail.length + 1 - tailLines)

/-- What `pump_events` has done when it returns: the bounded tail it kept, the
events it handed over, and the lines that nothing has read. -/
structure Pumped where
  tail : List String
  events : List Event
  unread : List Bytes

def pumpLines (fromStr : String → Option Json) : List String → List Bytes → Pumped
  | tail, [] => { tail := tail, events := [], unread := [] }
  | tail, line :: rest =>
      match lineText line with
      -- The first line that does not decode ends the loop.
      | none => { tail := tail, events := [], unread := rest }
      | some text =>
          let pumped := pumpLines fromStr (pushTail tail text) rest
          { pumped with events := parseEvent fromStr text :: pumped.events }

def pumpEvents (fromStr : String → Option Json) (stdout : Bytes) : Pumped :=
  pumpLines fromStr [] (readLines stdout)

end Pump

section Turns

/-- Whether the agent is mid-turn. -/
structure TurnState where
  active : Bool := false
deriving DecidableEq

/-- What an event says about the turn. -/
def Event.turn : Event → Option Bool
  | assistantText _ | toolUse _ | turnStarted => some true
  | turnEnded .. => some false
  | _ => none

def TurnState.observe (turn : TurnState) (event : Event) : Option Bool × TurnState :=
  match event.turn with
  | none => (none, turn)
  | some next => if next = turn.active then (none, turn) else (some next, { active := next })

/-- The transitions that `observe` reports of one event after the other. -/
def TurnState.transitions (turn : TurnState) : List Event → List Bool
  | [] => []
  | event :: rest =>
      let (report, after) := turn.observe event
      report.toList ++ after.transitions rest

/-- Each report is the other of the one before. -/
def Alternates : Bool → List Bool → Prop
  | _, [] => True
  | expected, report :: rest => report = expected ∧ Alternates (!expected) rest

variable {turn : TurnState} {event : Event} {events : List Event}

/-- A report is the new state, and the other of the old one. -/
theorem TurnState.observe_cases :
    ((turn.observe event).1 = none ∧ (turn.observe event).2 = turn) ∨
      ((turn.observe event).1 = some (!turn.active) ∧
        (turn.observe event).2 = { active := !turn.active }) := by
  rw [TurnState.observe]
  cases event.turn with
  | none => exact .inl ⟨rfl, rfl⟩
  | some next =>
      dsimp only
      split
      case isTrue => exact .inl ⟨rfl, rfl⟩
      case isFalse other =>
        rw [← Bool.not_eq.mpr fun same => other same.symm]
        exact .inr ⟨rfl, rfl⟩

theorem TurnState.transitions_alternate (turn : TurnState) (events : List Event) :
    Alternates (!turn.active) (turn.transitions events) := by
  induction events generalizing turn with
  | nil => trivial
  | cons event rest ih =>
      have next := ih (turn.observe event).2
      rw [TurnState.transitions]
      dsimp only
      rcases @TurnState.observe_cases turn event with ⟨silent, same⟩ | ⟨reports, turned⟩
      · rw [silent, same]
        rw [same] at next
        exact next
      · rw [reports, turned]
        rw [turned] at next
        exact ⟨rfl, next⟩

end Turns

section Keeping

variable {fromStr : String → Option Json} {line : Bytes} {text : String} {lines : List Bytes}

/-- The JSON of a line, where it is one. -/
def recordOf (fromStr : String → Option Json) (line : Bytes) : Option Json :=
  (lineText line).bind fun text =>
    if trimmed text = "" then none else fromStr (trimmed text)

/-- What the blocks of a record say that are not blank: its texts and its tools,
in order. -/
def Json.said (value : Json) : List Event := (value.content.getD []).filterMap parseBlock

def Event.isSaid : Event → Bool
  | assistantText _ | toolUse _ => true
  | _ => false

/-- What a line must have handed over: something, `Ignored` where it is no JSON,
and of an assistant record all it says. -/
structure Lands (fromStr : String → Option Json) (line : Bytes) (heard : List Event) :
    Prop where
  called : heard ≠ []
  ignored : recordOf fromStr line = none → heard = [.ignored]
  blocks : ∀ value, recordOf fromStr line = some value → value.text "type" = some "assistant" →
    heard.filter Event.isSaid = value.said

/-- The stream is read to its end, each line hands over what it must, and the
turns alternate. -/
structure Keeps (fromStr : String → Option Json) (stdout : Bytes) : Prop where
  consumed : (pumpEvents fromStr stdout).unread = []
  lands : ∃ heard : List (List Event), heard.flatten = (pumpEvents fromStr stdout).events ∧
    List.Forall₂ (Lands fromStr) (readLines stdout) heard
  turns : Alternates true (TurnState.transitions {} (pumpEvents fromStr stdout).events)

/-- A line that decodes, and of an assistant record one block at most says
something. -/
structure Audible (fromStr : String → Option Json) (line : Bytes) : Prop where
  decodes : (lineText line).isSome = true
  single : ∀ value, recordOf fromStr line = some value →
    value.text "type" = some "assistant" → value.said.length ≤ 1

theorem parseBlock_said {block : Json} {event : Event} (parsed : parseBlock block = some event) :
    event.isSaid = true := by
  rw [parseBlock] at parsed
  split at parsed
  · split at parsed
    · split at parsed
      · cases parsed
      · cases parsed
        rfl
    · cases parsed
  · split at parsed
    · cases parsed
      rfl
    · cases parsed

/-- Of the blocks, the first that says something is handed over. -/
theorem parseBlocks_eq (blocks : List Json) :
    parseBlocks blocks = (blocks.filterMap parseBlock).head?.getD .turnStarted := by
  induction blocks with
  | nil => rfl
  | cons block rest ih =>
      rw [parseBlocks, List.filterMap_cons]
      cases parseBlock block with
      | none => exact ih
      | some event => rfl

theorem parseAssistant_eq (value : Json) :
    parseAssistant value = value.said.head?.getD .turnStarted := by
  rw [parseAssistant, Json.said]
  cases value.content with
  | none => rfl
  | some blocks => exact parseBlocks_eq blocks

theorem said_isSaid {value : Json} {event : Event} (member : event ∈ value.said) :
    event.isSaid = true := by
  obtain ⟨block, -, parsed⟩ := List.mem_filterMap.mp member
  exact parseBlock_said parsed

/-- An assistant record is heard whole where one block says something. -/
theorem filter_parseAssistant (value : Json) :
    [parseAssistant value].filter Event.isSaid = value.said.take 1 := by
  rw [parseAssistant_eq]
  cases isSaid : value.said with
  | nil => rfl
  | cons event rest =>
      have saysIt : event.isSaid = true := said_isSaid (isSaid ▸ List.mem_cons_self)
      exact List.filter_eq_self.mpr (by simpa using saysIt)

theorem parseEvent_ignored (reads : lineText line = some text)
    (unreadable : recordOf fromStr line = none) : parseEvent fromStr text = .ignored := by
  rw [recordOf, reads, Option.bind_some] at unreadable
  rw [parseEvent]
  split
  case isTrue => rfl
  case isFalse notBlank =>
    rw [if_neg notBlank] at unreadable
    rw [unreadable]

theorem parseEvent_assistant {value : Json} (reads : lineText line = some text)
    (isRecord : recordOf fromStr line = some value)
    (isAssistant : value.text "type" = some "assistant") :
    parseEvent fromStr text = parseAssistant value := by
  rw [recordOf, reads, Option.bind_some] at isRecord
  rw [parseEvent]
  split
  case isTrue blank =>
    rw [if_pos blank] at isRecord
    cases isRecord
  case isFalse notBlank =>
    rw [if_neg notBlank] at isRecord
    rw [isRecord]
    dsimp only
    rw [isAssistant]
    rfl

/-- One event is what a line must hand over exactly where the line is audible. -/
theorem lands_parseEvent_iff (reads : lineText line = some text) :
    Lands fromStr line [parseEvent fromStr text] ↔ Audible fromStr line := by
  have decodes : (lineText line).isSome = true := by rw [reads, Option.isSome_some]
  constructor
  · intro lands
    refine ⟨decodes, fun value isRecord isAssistant => ?_⟩
    have whole := lands.blocks value isRecord isAssistant
    rw [parseEvent_assistant reads isRecord isAssistant, filter_parseAssistant] at whole
    rw [← whole]
    exact List.length_take_le 1 value.said
  · intro audible
    refine ⟨List.cons_ne_nil _ _, fun unreadable => ?_, fun value isRecord isAssistant => ?_⟩
    · rw [parseEvent_ignored reads unreadable]
    · rw [parseEvent_assistant reads isRecord isAssistant, filter_parseAssistant]
      exact List.take_of_length_le (audible.single value isRecord isAssistant)

/-- The pump that has met no bad line has handed over one event for each. -/
theorem pumpLines_decoded (tail : List String)
    (decodes : ∀ line ∈ lines, (lineText line).isSome = true) :
    (pumpLines fromStr tail lines).unread = [] ∧
      List.Forall₂ (fun line event => ∃ text, lineText line = some text ∧
        event = parseEvent fromStr text) lines (pumpLines fromStr tail lines).events := by
  induction lines generalizing tail with
  | nil => exact ⟨rfl, .nil⟩
  | cons line rest ih =>
      obtain ⟨text, reads⟩ := Option.isSome_iff_exists.mp (decodes line List.mem_cons_self)
      obtain ⟨consumed, events⟩ := ih (pushTail tail text)
        fun later member => decodes later (List.mem_cons_of_mem line member)
      rw [pumpLines, reads]
      exact ⟨consumed, .cons ⟨text, reads, rfl⟩ events⟩

/-- A bad line is not heard, so a pump that has handed over as many events has met
none. -/
theorem pumpLines_length (tail : List String) :
    (pumpLines fromStr tail lines).events.length ≤ lines.length ∧
      ((pumpLines fromStr tail lines).events.length = lines.length →
        ∀ line ∈ lines, (lineText line).isSome = true) := by
  induction lines generalizing tail with
  | nil => exact ⟨le_refl _, fun _ => nofun⟩
  | cons line rest ih =>
      rw [pumpLines]
      cases reads : lineText line with
      | none => exact ⟨Nat.zero_le _, nofun⟩
      | some text =>
          obtain ⟨short, full⟩ := ih (pushTail tail text)
          refine ⟨Nat.succ_le_succ short, fun same => ?_⟩
          intro other member
          rcases List.mem_cons.mp member with rfl | later
          · rw [reads, Option.isSome_some]
          · exact full (Nat.succ.inj same) other later

/-- Groups that hold something hold as much as they are, and one each where they
hold no more. -/
theorem flatten_singletons {Item : Type} {groups : List (List Item)}
    (held : ∀ group ∈ groups, group ≠ []) :
    groups.length ≤ groups.flatten.length ∧
      (groups.flatten.length = groups.length → groups = groups.flatten.map ([·])) := by
  induction groups with
  | nil => exact ⟨le_refl _, fun _ => rfl⟩
  | cons group rest ih =>
      obtain ⟨long, single⟩ := ih fun other member =>
        held other (List.mem_cons_of_mem group member)
      rw [List.flatten_cons, List.length_append, List.length_cons]
      cases group with
      | nil => exact absurd rfl (held [] List.mem_cons_self)
      | cons item more =>
          rw [List.length_cons]
          refine ⟨by omega, fun same => ?_⟩
          have none : more = [] := List.eq_nil_of_length_eq_zero (by omega)
          subst none
          rw [List.map_append, ← single (by omega)]
          rfl

theorem flatten_map_single {Item : Type} (items : List Item) :
    (items.map ([·])).flatten = items := by
  induction items with
  | nil => rfl
  | cons item rest ih =>
      rw [List.map_cons, List.flatten_cons, ih]
      rfl

theorem Keeps.audible {stdout : Bytes} (keeps : Keeps fromStr stdout) :
    ∀ line ∈ readLines stdout, Audible fromStr line := by
  obtain ⟨heard, isHeard, lands⟩ := keeps.lands
  obtain ⟨short, full⟩ := @pumpLines_length fromStr (readLines stdout) []
  rw [← pumpEvents, ← isHeard] at short full
  have called : List.Forall₂ (fun group line => group ≠ [] ∧ Lands fromStr line group) heard
      (readLines stdout) :=
    List.Forall₂.flip (lands.imp fun line group landed => ⟨landed.called, landed⟩)
  have held : ∀ group ∈ heard, group ≠ [] := ((List.forall₂_and_left _ _).mp called).1
  obtain ⟨long, single⟩ := flatten_singletons held
  have asMany := lands.length_eq
  have decodes := full (by omega)
  obtain ⟨-, events⟩ := @pumpLines_decoded fromStr (readLines stdout) [] decodes
  rw [single (by omega), isHeard, List.forall₂_map_right_iff] at lands
  have both : List.Forall₂ (fun line _ => Audible fromStr line ∧ True) (readLines stdout)
      (pumpLines fromStr [] (readLines stdout)).events := by
    apply lands.mp _ events
    intro line event landed ⟨text, reads, isEvent⟩
    rw [isEvent] at landed
    exact ⟨(lands_parseEvent_iff reads).mp landed, trivial⟩
  exact ((List.forall₂_and_left _ _).mp both).1

theorem keeps_of_audible {stdout : Bytes}
    (audible : ∀ line ∈ readLines stdout, Audible fromStr line) : Keeps fromStr stdout := by
  obtain ⟨consumed, events⟩ := @pumpLines_decoded fromStr (readLines stdout) []
    fun line member => (audible line member).decodes
  refine ⟨consumed, ⟨(pumpEvents fromStr stdout).events.map ([·]), flatten_map_single _, ?_⟩,
    TurnState.transitions_alternate {} _⟩
  rw [List.forall₂_map_right_iff]
  apply ((List.forall₂_and_left _ _).mpr ⟨audible, events⟩).imp
  intro line event ⟨isAudible, text, reads, isEvent⟩
  rw [isEvent]
  exact (lands_parseEvent_iff reads).mpr isAudible

/-- The transcript keeps everything the agent says exactly where each line of its
output decodes and no assistant record says two things. -/
theorem pump_keeps_iff (fromStr : String → Option Json) (stdout : Bytes) :
    Keeps fromStr stdout ↔ ∀ line ∈ readLines stdout, Audible fromStr line :=
  ⟨Keeps.audible, keeps_of_audible⟩

def twoBlocks : Json :=
  .object [("type", .string "assistant"), ("message", .object [("content", .array [
    .object [("type", .string "text"), ("text", .string "Let me look.")],
    .object [("type", .string "tool_use"), ("name", .string "Read")]])])]

def twoBlocksText : String :=
  "\x7b\"type\":\"assistant\",\"message\":\x7b\"content\":[" ++
    "\x7b\"type\":\"text\",\"text\":\"Let me look.\"\x7d," ++
    "\x7b\"type\":\"tool_use\",\"name\":\"Read\"\x7d]\x7d\x7d"

/-- The parser on that text. -/
def parsesTwoBlocks (text : String) : Option Json :=
  if text = twoBlocksText then some twoBlocks else none

/-- The tool that follows a text is not heard of, and after a byte that is no text
nothing is. -/
theorem pump_drops :
    ¬ Keeps parsesTwoBlocks (twoBlocksText ++ "\n").toUTF8.data.toList ∧
      ¬ Keeps parsesTwoBlocks [0xFF, 0x0A] := by
  constructor
  · intro keeps
    have isLine : (twoBlocksText ++ "\n").toUTF8.data.toList ∈
        readLines (twoBlocksText ++ "\n").toUTF8.data.toList := by
      decide +kernel
    have reads : lineText (twoBlocksText ++ "\n").toUTF8.data.toList = some twoBlocksText := by
      decide +kernel
    have notBlank : trimmed twoBlocksText = twoBlocksText ∧ twoBlocksText ≠ "" := by
      decide +kernel
    have isRecord : recordOf parsesTwoBlocks (twoBlocksText ++ "\n").toUTF8.data.toList =
        some twoBlocks := by
      rw [recordOf, reads, Option.bind_some, notBlank.1, if_neg notBlank.2, parsesTwoBlocks,
        if_pos rfl]
    have single := (keeps.audible _ isLine).single twoBlocks isRecord rfl
    exact absurd single (by decide)
  · intro keeps
    have decodes := (keeps.audible [0xFF, 0x0A] (by decide)).decodes
    exact absurd decodes (by decide +kernel)

end Keeping

end NookOs.Agent
