/-
Module: NookOs.Mail.SmtpRelay
Purpose: A relay that delivers messages over SMTP, with their lines stuffed, and that the receiver
  hands on these messages and no others, in whatever pieces the bytes arrive.
Trusted boundary: none
Main exports: Address, Message, Message.wire, Relay, readLine_pieces, readMessage_payload, relays
-/
import Mathlib.Data.List.Infix
import NookOs.Mail.Smtp

namespace NookOs.Mail.Smtp

open Lib Lib.Text Lib.Utf8

/-! ### The relay's side -/

section Wire

/-- Text that may stand in a command: ASCII without control characters. -/
def Sayable (text : List Char) : Prop := ∀ char ∈ text, 32 ≤ char.toNat ∧ char.toNat < 127

instance decidableSayable (text : List Char) : Decidable (Sayable text) :=
  inferInstanceAs <| Decidable <| ∀ char ∈ text, 32 ≤ char.toNat ∧ char.toNat < 127

/-- An address that a command may carry between brackets. -/
structure Address where
  text : List Char
  sayable : Sayable text
  solid : ' ' ∉ text
  unbracketed : '>' ∉ text
  short : text.length ≤ 256

/-- The lines of a message stand here as the author wrote them. -/
structure Message where
  sender : Address
  recipients : List Address
  named : recipients ≠ []
  few : recipients.length ≤ maxRecipients
  lines : List Bytes
  single : ∀ line ∈ lines, lineFeed ∉ line

/-- The end of a line. -/
def crlf : Bytes := [carriageReturn, lineFeed]

/-- A line that begins with a dot gets another before it. -/
def stuffed (line : Bytes) : Bytes :=
  if line.head? = some fullStop then fullStop :: line else line

/-- The lines of a message as the relay sends them. -/
def stuffedLines (lines : List Bytes) : Bytes := lines.flatMap fun line => stuffed line ++ crlf

/-- The lines of a message as the receiver is to keep them. -/
def contentOf (lines : List Bytes) : Bytes := lines.flatMap (· ++ crlf)

/-- A command with its line end. -/
def spoken (command : List Char) : Bytes := ascii command ++ crlf

/-- The argument of a command that names an address. -/
def enclosed (keyword : List Char) (address : Address) : List Char :=
  keyword ++ ':' :: '<' :: (address.text ++ ['>'])

def addressed (verb keyword : List Char) (address : Address) : List Char :=
  verb ++ ' ' :: enclosed keyword address

/-- `MAIL` with the sender. -/
def mailCommand (sender : Address) : List Char := addressed "MAIL".toList "FROM".toList sender

/-- `RCPT` with a recipient. -/
def rcptCommand (recipient : Address) : List Char := addressed "RCPT".toList "TO".toList recipient

/-- The bytes that deliver a message. -/
def Message.wire (message : Message) : Bytes :=
  spoken (mailCommand message.sender) ++
    (message.recipients.flatMap (fun recipient => spoken (rcptCommand recipient)) ++
      (spoken "DATA".toList ++ (stuffedLines message.lines ++ (fullStop :: crlf))))

/-- How many commands deliver a message. -/
def Message.turns (message : Message) : Nat := message.recipients.length + 2

/-- What the receiver says of a message that comes in this way. -/
def Message.source (message : Message) (service : Service) : SmtpSource :=
  ⟨message.sender.text, message.recipients.map Address.text, service.authservId⟩

/-- What the receiver is to hand on of a message. -/
def Message.handed (message : Message) (service : Service) : Option (SmtpSource × Bytes) :=
  if (contentOf message.lines).length ≤ service.maxBytes then
    some (message.source service, contentOf message.lines)
  else none

/-- A relay that has the receiver's credential. -/
structure Relay where
  blob : List Char
  sayable : Sayable blob
  solid : ' ' ∉ blob
  nonempty : blob ≠ []
  short : blob.length ≤ 1024
  messages : List Message

/-- `AUTH` with the credential in the same line. -/
def authCommand (blob : List Char) : List Char :=
  "AUTH".toList ++ ' ' :: ("PLAIN".toList ++ ' ' :: blob)

/-- The bytes of the whole conversation. -/
def Relay.wire (relay : Relay) : Bytes :=
  spoken "EHLO relay".toList ++ (spoken (authCommand relay.blob) ++
    (relay.messages.flatMap Message.wire ++ spoken "QUIT".toList))

/-- How many commands the whole conversation has. -/
def Relay.turns (relay : Relay) : Nat := 3 + (relay.messages.map Message.turns).sum

end Wire

/-! ### What is read in pieces -/

section Pieces

variable {limit maxBytes : Nat} {closes : Bool} {pieces : List Bytes} {line out rest : Bytes}

/-- A line ends in one place. -/
theorem line_inj {front back : Bytes} (absent : lineFeed ∉ front) (single : lineFeed ∉ line)
    (same : front ++ lineFeed :: back = line ++ lineFeed :: rest) :
    front = line ∧ back = rest := by
  induction front generalizing line with
  | nil =>
      cases line with
      | nil =>
          cases same
          exact ⟨rfl, rfl⟩
      | cons byte line =>
          cases same
          exact absurd List.mem_cons_self single
  | cons byte front ih =>
      cases line with
      | nil =>
          cases same
          exact absurd List.mem_cons_self absent
      | cons other line =>
          obtain ⟨rfl, tails⟩ := List.cons_eq_cons.mp same
          obtain ⟨rfl, rfl⟩ := ih (fun member => absent (.tail _ member))
            (fun member => single (.tail _ member)) tails
          exact ⟨rfl, rfl⟩

/-- A line is read to its end, and what comes after it is left, in any pieces. -/
theorem readLineOf_pieces (out : Bytes) (flat : pieces.flatten = line ++ lineFeed :: rest)
    (single : lineFeed ∉ line) (short : (out ++ line).length ≤ limit) :
    ∃ left, readLineOf limit closes out pieces = .ok (some (out ++ line ++ [lineFeed]),
      ⟨left, closes⟩) ∧ left.flatten = rest := by
  induction pieces generalizing line out with
  | nil => simp at flat
  | cons piece pieces ih =>
      rw [List.flatten_cons] at flat
      by_cases ends : lineFeed ∈ piece
      · obtain ⟨front, back, rfl, absent⟩ := List.eq_append_cons_of_mem ends
        rw [List.append_assoc, List.cons_append] at flat
        have before : ∀ byte ∈ front, decide (byte ≠ lineFeed) = true := fun byte member =>
          decide_eq_true fun same => absent (same ▸ member)
        obtain ⟨rfl, rfl⟩ := line_inj absent single flat
        refine ⟨back :: pieces, ?_, rfl⟩
        rw [readLineOf, if_pos ends, List.takeWhile_append_of_pos before,
          List.dropWhile_append_of_pos before]
        simp
      · -- The piece ends within the line.
        obtain ⟨more, rfl⟩ : ∃ more, line = piece ++ more := by
          rcases List.append_eq_append_iff.mp flat with ⟨more, rfl, -⟩ | ⟨more, rfl, same⟩
          · exact ⟨more, rfl⟩
          · cases more with
            | nil => exact ⟨[], by simp⟩
            | cons byte more =>
                cases same
                exact absurd (List.mem_append_right _ List.mem_cons_self) ends
        rw [List.append_assoc, List.append_cancel_left_eq] at flat
        have fits : ((out ++ piece) ++ more).length ≤ limit := by rwa [List.append_assoc]
        obtain ⟨left, read, isRest⟩ := ih (out ++ piece) flat
          (fun member => single (List.mem_append_right _ member)) fits
        refine ⟨left, ?_, isRest⟩
        rw [readLineOf, if_neg ends, if_neg, read]
        · simp
        · rw [List.length_append] at fits
          omega

/-- The reader of a line gives the line with its end. -/
theorem readLine_pieces {peer : Peer} (flat : peer.pieces.flatten = line ++ lineFeed :: rest)
    (single : lineFeed ∉ line) (short : line.length ≤ limit) :
    ∃ left, readLine limit peer = .ok (some (line ++ [lineFeed]), ⟨left, peer.closes⟩) ∧
      left.flatten = rest :=
  readLineOf_pieces [] flat single short

/-- The line end comes off. -/
theorem lineBody_crlf (line : Bytes) : lineBody (line ++ crlf) = line := by
  have ends : [carriageReturn, lineFeed].isSuffixOf (line ++ crlf) = true := by
    rw [List.isSuffixOf_iff_suffix]
    exact ⟨line, rfl⟩
  rw [lineBody, if_pos ends, crlf]
  simp

/-- The dot that the relay adds is the one that the receiver takes away. -/
theorem unstuffed_stuffed (line : Bytes) : unstuffed (stuffed line) = line := by
  unfold stuffed
  split
  · rfl
  · rename_i plain
    rw [unstuffed, if_neg plain]

/-- No line of a message is taken for the end of it. -/
theorem stuffed_ne (line : Bytes) : stuffed line ≠ [fullStop] := by
  unfold stuffed
  split
  · rename_i dotted
    intro same
    cases same
    cases dotted
  · rename_i plain
    intro same
    subst same
    exact plain rfl

/-- A stuffed line is still one line. -/
theorem stuffed_single (single : lineFeed ∉ line) :
    lineFeed ∉ stuffed line ++ [carriageReturn] := by
  unfold stuffed
  split
  · simpa [lineFeed, fullStop, carriageReturn] using single
  · simpa [lineFeed, carriageReturn] using single

/-- Stuffing adds one byte at most. -/
theorem length_stuffed (line : Bytes) : (stuffed line).length ≤ line.length + 1 := by
  unfold stuffed
  split
  · exact Nat.le_refl _
  · exact Nat.le_succ _

/-- A line that was stuffed is read, and kept unless it makes the message too large. -/
theorem readMessageWith_line {fuel : Nat} {peer : Peer} (out : Bytes) (tooLarge : Bool)
    (single : lineFeed ∉ line) (short : line.length + 2 ≤ max maxBytes maxCommandBytes)
    (flat : peer.pieces.flatten = stuffed line ++ (crlf ++ rest)) :
    ∃ left, readMessageWith maxBytes (fuel + 1) out tooLarge peer =
        (if maxBytes < out.length + line.length + 2 then
          readMessageWith maxBytes fuel [] true ⟨left, peer.closes⟩
        else
          readMessageWith maxBytes fuel
            (if tooLarge then out else out ++ line ++ [carriageReturn, lineFeed]) tooLarge
            ⟨left, peer.closes⟩) ∧
      left.flatten = rest := by
  have first : peer.pieces.flatten = (stuffed line ++ [carriageReturn]) ++ lineFeed :: rest := by
    rw [flat, crlf]
    simp
  have within : (stuffed line ++ [carriageReturn]).length ≤ max maxBytes maxCommandBytes := by
    have dotted := length_stuffed line
    simp only [List.length_append, List.length_cons, List.length_nil]
    omega
  obtain ⟨left, read, isRest⟩ := readLine_pieces first (stuffed_single single) within
  have body : lineBody (stuffed line ++ [carriageReturn] ++ [lineFeed]) = stuffed line := by
    rw [List.append_assoc]
    exact lineBody_crlf _
  refine ⟨left, ?_, isRest⟩
  simp only [readMessageWith, read, bind, Except.bind, body, if_neg (stuffed_ne line),
    unstuffed_stuffed]

/-- The lines of a message that are left, and the dot, in any pieces. -/
theorem readMessageWith_payload {lines : List Bytes} {fuel : Nat} {peer : Peer} (out : Bytes)
    (tooLarge : Bool) (single : ∀ line ∈ lines, lineFeed ∉ line)
    (short : ∀ line ∈ lines, line.length + 2 ≤ max maxBytes maxCommandBytes)
    (flat : peer.pieces.flatten = stuffedLines lines ++ (fullStop :: crlf ++ rest))
    (enough : lines.length < fuel) (fits : out.length ≤ maxBytes) :
    ∃ left, readMessageWith maxBytes fuel out tooLarge peer =
        .ok (if tooLarge = true ∨ maxBytes < (out ++ contentOf lines).length then none
          else some (out ++ contentOf lines), ⟨left, peer.closes⟩) ∧
      left.flatten = rest := by
  induction lines generalizing fuel out tooLarge peer with
  | nil =>
      obtain ⟨fuel, rfl⟩ := Nat.exists_eq_add_one.mpr enough
      have first : peer.pieces.flatten = [fullStop, carriageReturn] ++ lineFeed :: rest := flat
      have fewer : 2 ≤ max maxBytes maxCommandBytes :=
        Nat.le_trans (by decide) (Nat.le_max_right ..)
      obtain ⟨left, read, isRest⟩ := readLine_pieces first (by decide) fewer
      refine ⟨left, ?_, isRest⟩
      have body : lineBody ([fullStop, carriageReturn] ++ [lineFeed]) = [fullStop] := by decide
      have room : ¬ maxBytes < (out ++ contentOf []).length := by
        rw [contentOf, List.flatMap_nil, List.append_nil]
        omega
      simp only [readMessageWith, read, bind, Except.bind, body, if_true, room, or_false]
      rw [contentOf, List.flatMap_nil, List.append_nil]
  | cons line lines ih =>
      obtain ⟨fuel, rfl⟩ := Nat.exists_eq_add_one.mpr (Nat.lt_of_le_of_lt (Nat.zero_le _) enough)
      have first : peer.pieces.flatten =
          stuffed line ++ (crlf ++ (stuffedLines lines ++ (fullStop :: crlf ++ rest))) := by
        rw [flat, stuffedLines, List.flatMap_cons, ← stuffedLines]
        simp
      obtain ⟨left, read, isRest⟩ := readMessageWith_line out tooLarge
        (single line List.mem_cons_self) (short line List.mem_cons_self) first
      have onward (out : Bytes) (tooLarge : Bool) (fits : out.length ≤ maxBytes) :=
        ih out tooLarge (fun line member => single line (.tail _ member))
          (fun line member => short line (.tail _ member))
          (show (Peer.mk left peer.closes).pieces.flatten = _ from isRest)
          (Nat.lt_of_succ_lt_succ enough) fits
      have total : (out ++ contentOf (line :: lines)).length =
          out.length + line.length + 2 + (contentOf lines).length := by
        simp only [contentOf, List.flatMap_cons, List.length_append, crlf, List.length_cons,
          List.length_nil]
        omega
      rw [read]
      by_cases tooMany : maxBytes < out.length + line.length + 2
      · obtain ⟨last, reads, isRest⟩ := onward [] true (Nat.zero_le _)
        refine ⟨last, ?_, isRest⟩
        rw [if_pos tooMany, reads, if_pos (.inl rfl), if_pos (.inr (by omega))]
      · rw [if_neg tooMany]
        cases tooLarge with
        | true =>
            obtain ⟨last, reads, isRest⟩ := onward out true fits
            refine ⟨last, ?_, isRest⟩
            rw [if_pos rfl, reads, if_pos (.inl rfl), if_pos (.inl rfl)]
        | false =>
            have longer : out ++ line ++ [carriageReturn, lineFeed] ++ contentOf lines =
                out ++ contentOf (line :: lines) := by
              simp [contentOf, crlf]
            obtain ⟨last, reads, isRest⟩ :=
              onward (out ++ line ++ [carriageReturn, lineFeed]) false (by
                simp only [List.length_append, List.length_cons, List.length_nil]
                omega)
            rw [longer] at reads
            exact ⟨last, reads, isRest⟩

theorem length_lines_le (lines : List Bytes) : lines.length ≤ (stuffedLines lines).length := by
  induction lines with
  | nil => exact Nat.le_refl _
  | cons line lines ih =>
      rw [stuffedLines, List.flatMap_cons, ← stuffedLines]
      simp only [List.length_append, crlf, List.length_cons, List.length_nil]
      omega

/-- What was stuffed and sent is what is read, unless it is more than the receiver takes; and
what comes after it is left in either case. -/
theorem readMessage_payload {lines : List Bytes} {peer : Peer}
    (single : ∀ line ∈ lines, lineFeed ∉ line)
    (short : ∀ line ∈ lines, line.length + 2 ≤ max maxBytes maxCommandBytes)
    (flat : peer.pieces.flatten = stuffedLines lines ++ (fullStop :: crlf ++ rest)) :
    ∃ left, readMessage maxBytes peer =
        .ok (if (contentOf lines).length ≤ maxBytes then some (contentOf lines) else none,
          ⟨left, peer.closes⟩) ∧
      left.flatten = rest := by
  have enough : lines.length < peer.pieces.flatten.length + 1 := by
    have counted := length_lines_le lines
    rw [flat, List.length_append]
    omega
  obtain ⟨left, read, isRest⟩ :=
    readMessageWith_payload [] false single short flat enough (Nat.zero_le _)
  refine ⟨left, ?_, isRest⟩
  rw [readMessage, read, List.nil_append]
  by_cases fits : (contentOf lines).length ≤ maxBytes
  · rw [if_pos fits, if_neg (by simp [fits])]
  · rw [if_neg fits, if_pos (.inr (Nat.lt_of_not_le fits))]

end Pieces

/-! ### What the commands of a relay are taken to be -/

section Commands

variable {text : List Char} {address : Address} {service : Service} {before : Session}
  {command : List Char} {rest : Bytes}

theorem Sayable.append {other : List Char} (sayable : Sayable text) (also : Sayable other) :
    Sayable (text ++ other) := fun char member =>
  (List.mem_append.mp member).elim (sayable char) (also char)

/-- Text that may be said does not end a line. -/
theorem Sayable.not_lineEnd (sayable : Sayable text) :
    ∀ char ∈ text, (char = '\r' || char = '\n') = false := by
  intro char member
  have printed := (sayable char member).1
  simp only [Bool.or_eq_false_iff, decide_eq_false_iff_not]
  constructor
  · rintro rfl
    exact absurd printed (by decide)
  · rintro rfl
    exact absurd printed (by decide)

/-- The bytes of a command are read as its text. -/
theorem Sayable.lossy (sayable : Sayable text) :
    fromUtf8Lossy (ascii text ++ crlf) = text ++ ['\r', '\n'] := by
  have line : ascii text ++ crlf = ascii (text ++ ['\r', '\n']) := by
    rw [ascii, ascii, List.map_append]
    rfl
  rw [line]
  refine fromUtf8Lossy_ascii fun char member => ?_
  rcases List.mem_append.mp member with isText | isEnd
  · exact Nat.lt_trans (sayable char isText).2 (by decide)
  · have ends : ∀ char ∈ ['\r', '\n'], char.toNat < 128 := by decide
    exact ends char isEnd

/-- A command is taken apart without its line end. -/
theorem Sayable.parsed (sayable : Sayable text) :
    parsed (text ++ ['\r', '\n']) = firstWord text := by
  have trimmed : (text ++ ['\r', '\n']).rdropWhile (fun char => char = '\r' || char = '\n') =
      text := by
    rw [List.rdropWhile, List.reverse_append]
    change List.reverse (List.dropWhile _ ('\n' :: '\r' :: text.reverse)) = _
    rw [List.dropWhile_cons_of_pos (by decide), List.dropWhile_cons_of_pos (by decide)]
    cases reversed : text.reverse with
    | nil => simpa using reversed.symm
    | cons char back =>
        have member : char ∈ text := List.mem_reverse.mp (reversed ▸ List.mem_cons_self)
        rw [List.dropWhile_cons_of_neg (by simpa using sayable.not_lineEnd char member), ← reversed,
          List.reverse_reverse]
  rw [Smtp.parsed, trimmed]

/-- A command is one line. -/
theorem Sayable.line (sayable : Sayable text) : lineFeed ∉ ascii text ++ [carriageReturn] := by
  intro member
  rcases List.mem_append.mp member with isText | isEnd
  · obtain ⟨char, isChar, same⟩ := List.mem_map.mp isText
    have printed := sayable char isChar
    have value := congrArg UInt8.toNat same
    rw [toNat_toUInt8 (Nat.lt_trans printed.2 (by decide))] at value
    change char.toNat = 10 at value
    omega
  · exact absurd isEnd (by decide)

/-- A word and an argument without a blank. -/
theorem firstWord_pair {word argument : List Char} (solid : ' ' ∉ word)
    (plain : trim argument = argument) :
    firstWord (word ++ ' ' :: argument) = (word.map Char.toUpper, argument) := by
  rw [firstWord, splitOnce_append solid]
  simp only [plain]

/-- The only blank that may be said is the space. -/
theorem sayable_blank {char : Char} (printed : 32 ≤ char.toNat ∧ char.toNat < 127)
    (solid : char ≠ ' ') : isWhitespace char = false := by
  have apart : char.toNat ≠ 32 := fun same => solid (Char.toNat_inj.mp same)
  simp only [isWhitespace, List.mem_cons, List.not_mem_nil, or_false, Bool.or_eq_false_iff,
    decide_eq_false_iff_not, Bool.and_eq_false_iff]
  omega

/-- There is nothing to trim where there are no spaces. -/
theorem trim_solid (sayable : Sayable text) (solid : ' ' ∉ text) : trim text = text := by
  have notBlank : ∀ char ∈ text, isWhitespace char = false := fun char member =>
    sayable_blank (sayable char member) fun same => solid (same ▸ member)
  exact trim_eq_self (fun char member => notBlank char (List.mem_of_mem_head? member))
    fun char member => notBlank char (List.mem_of_mem_getLast? member)

theorem sayable_enclosed {keyword : List Char} (sayable : Sayable keyword) (address : Address) :
    Sayable (enclosed keyword address) := by
  have marks : Sayable [':', '<'] := by decide
  have last : Sayable ['>'] := by decide
  have split : enclosed keyword address = keyword ++ ([':', '<'] ++ (address.text ++ ['>'])) := rfl
  rw [split]
  exact sayable.append (marks.append (address.sayable.append last))

theorem solid_enclosed {keyword : List Char} (solid : ' ' ∉ keyword) (address : Address) :
    ' ' ∉ enclosed keyword address := by
  simpa [enclosed, solid] using address.solid

/-- The address that was enclosed is the one that is read. -/
theorem addressOf_enclosed {keyword : List Char} (sayable : Sayable keyword)
    (solid : ' ' ∉ keyword) (plain : ':' ∉ keyword) (upper : keyword.map Char.toUpper = keyword)
    (address : Address) : addressOf keyword (enclosed keyword address) = some address.text := by
  have value : Sayable ('<' :: (address.text ++ ['>'])) := by
    have first : Sayable ['<'] := by decide
    have last : Sayable ['>'] := by decide
    exact first.append (address.sayable.append last)
  have unspaced : ' ' ∉ '<' :: (address.text ++ ['>']) := by
    simpa using address.solid
  have closes : splitOnce '>' ('<' :: (address.text ++ ['>'])) =
      some ('<' :: address.text, []) := by
    have absent : '>' ∉ '<' :: address.text := by simpa using address.unbracketed
    exact splitOnce_append absent
  have opens : ['<'].isPrefixOf? (('<' :: address.text).dropWhile isWhitespace) =
      some address.text := by
    rw [List.dropWhile_cons_of_neg (by decide)]
    have first : ['<'].isPrefixOf? (['<'] ++ address.text) = some address.text :=
      isPrefixOf?_append
    exact first
  rw [addressOf, enclosed, splitOnce_append plain]
  simp only [bind, Option.bind, trim_solid sayable solid, upper, ne_eq, not_true, if_false,
    trim_solid value unspaced, closes, opens, trim_solid address.sayable address.solid]
  rfl

end Commands

/-! ### The session that the relay has -/

section Turns

/-- The message that an entry of the log hands on. -/
def Entry.message : Entry → Option (SmtpSource × Bytes)
  | .handed source raw => some (source, raw)
  | _ => none

/-- The messages that were handed on, in order. -/
def handedOf (log : List Entry) : List (SmtpSource × Bytes) := log.reverse.filterMap Entry.message

/-- Where a session stands that has authenticated and met with no complaint. -/
structure Stands (session : Session) (rest : Bytes) (tx : Transaction)
    (handed : List (SmtpSource × Bytes)) (delivered : Nat) : Prop where
  rest : session.peer.pieces.flatten = rest
  tx : session.tx = tx
  handed : handedOf session.log = handed
  delivered : session.delivered = delivered
  authenticated : session.authenticated = true
  bad : session.bad = 0

variable {service : Service} {before after : Session} {command : List Char} {rest : Bytes}
  {tx : Transaction} {handed : List (SmtpSource × Bytes)} {delivered turns : Nat}
  {done : Bool → Session → Prop} {failed : IoError → Session → Prop}

/-- An entry more is at most a message more. -/
theorem handedOf_cons (entry : Entry) (log : List Entry) :
    handedOf (entry :: log) = handedOf log ++ entry.message.toList := by
  rw [handedOf, List.reverse_cons, List.filterMap_append, ← handedOf]
  cases shown : entry.message with
  | none | some => simp [shown]

theorem handedOf_said (line : List Char) (log : List Entry) :
    handedOf (.said line :: log) = handedOf log := by
  rw [handedOf_cons]
  exact List.append_nil _

theorem handedOf_heard (line : List Char) (log : List Entry) :
    handedOf (.heard line :: log) = handedOf log := by
  rw [handedOf_cons]
  exact List.append_nil _

/-- A command is read as it was spoken, in any pieces. -/
theorem ends_turn (sayable : Sayable command) (short : command.length < maxCommandBytes)
    (flat : before.peer.pieces.flatten = spoken command ++ rest)
    (performs : ∀ peer, peer.pieces.flatten = rest →
      Talk.Ends (perform service (firstWord command).2
          ((verbs.lookup (firstWord command).1).getD .other))
        (before.hears (command ++ ['\r', '\n']) peer)
        (fun goesOn after => after.bad < maxBadCommands ∧ done goesOn after) failed) :
    Talk.Ends (turn service) before done failed := by
  have first : before.peer.pieces.flatten = (ascii command ++ [carriageReturn]) ++
      lineFeed :: rest := by
    rw [flat, spoken, crlf]
    simp
  have within : (ascii command ++ [carriageReturn]).length ≤ maxCommandBytes := by
    simp only [ascii, List.length_append, List.length_map, List.length_cons, List.length_nil]
    omega
  obtain ⟨left, read, isRest⟩ := readLine_pieces first sayable.line within
  have heard : fromUtf8Lossy (ascii command ++ [carriageReturn] ++ [lineFeed]) =
      command ++ ['\r', '\n'] := by
    rw [List.append_assoc]
    exact sayable.lossy
  rw [turn, Talk.ends_bind, readCommand, Talk.ends_bind]
  refine ends_receive (fun answer peer reads => ?_) fun failure breaks => ?_
  · cases read.symm.trans reads
    simp only [Talk.ends_bind, note, Talk.ends_modify, Talk.ends_pure, heard]
    rw [verbOf, sayable.parsed]
    refine (performs ⟨left, before.peer.closes⟩ isRest).imp (fun goesOn after ended => ?_)
      fun _ _ broke => broke
    cases goesOn with
    | false => exact ended.2
    | true =>
        simp only [if_true, Talk.ends_bind, Talk.ends_get, if_neg (Nat.not_le.mpr ended.1)]
        exact ended.2
  · cases read.symm.trans breaks

/-- A session is its first command and the session after it. -/
theorem session_turn {finished : PUnit → Session → Prop}
    (ends : Talk.Ends (turn service) before done failed)
    (goesOn : ∀ after, done true after →
      Talk.Ends (session service turns) after finished failed)
    (stops : ∀ after, done false after → finished ⟨⟩ after) :
    Talk.Ends (session service (turns + 1)) before finished failed := by
  rw [session, Talk.ends_bind]
  refine ends.imp (fun again after isDone => ?_) fun _ _ broke => broke
  cases again with
  | false => exact stops after isDone
  | true => exact goesOn after isDone

/-- A command that is heard leaves what comes after it. -/
theorem Stands.hears (stands : Stands before (spoken command ++ rest) tx handed delivered)
    {peer : Peer} (isRest : peer.pieces.flatten = rest) (line : List Char) :
    Stands (before.hears line peer) rest tx handed delivered where
  rest := isRest
  tx := stands.tx
  handed := (handedOf_heard line before.log).trans stands.handed
  delivered := stands.delivered
  authenticated := stands.authenticated
  bad := stands.bad

/-- A reply changes nothing of where the session stands. -/
theorem Stands.spoke (stands : Stands before rest tx handed delivered) (line : List Char) :
    Stands (before.note (.said line)) rest tx handed delivered :=
  { stands with handed := (handedOf_said line before.log).trans stands.handed }

/-- The transaction is the one that is set. -/
theorem Stands.begins (stands : Stands before rest tx handed delivered) (next : Transaction) :
    Stands { before with tx := next } rest next handed delivered :=
  { stands with tx := rfl }

theorem Stands.patience (stands : Stands after rest tx handed delivered) :
    after.bad < maxBadCommands :=
  stands.bad.trans_lt (by decide)

/-- A command that names an address. -/
theorem ends_addressed {verb keyword : List Char} {address : Address}
    (sayable : Sayable verb) (solid : ' ' ∉ verb) (upper : verb.map Char.toUpper = verb)
    (keySayable : Sayable keyword) (keySolid : ' ' ∉ keyword)
    (short : verb.length + keyword.length ≤ 1024)
    (flat : before.peer.pieces.flatten = spoken (addressed verb keyword address) ++ rest)
    (performs : ∀ peer, peer.pieces.flatten = rest →
      Talk.Ends (perform service (enclosed keyword address) ((verbs.lookup verb).getD .other))
        (before.hears (addressed verb keyword address ++ ['\r', '\n']) peer)
        (fun goesOn after => after.bad < maxBadCommands ∧ done goesOn after) failed) :
    Talk.Ends (turn service) before done failed := by
  have value := sayable_enclosed keySayable address
  have unspaced := solid_enclosed keySolid address
  have said : Sayable (addressed verb keyword address) := by
    have blank : Sayable [' '] := by decide
    exact sayable.append (blank.append value)
  have fits : (addressed verb keyword address).length < maxCommandBytes := by
    have bound := address.short
    simp only [addressed, enclosed, List.length_append, List.length_cons, List.length_nil,
      maxCommandBytes]
    omega
  have word : firstWord (addressed verb keyword address) = (verb, enclosed keyword address) := by
    rw [addressed, firstWord_pair solid (trim_solid value unspaced), upper]
  refine ends_turn said fits flat ?_
  rw [word]
  exact performs

/-- `MAIL` begins a transaction with its sender. -/
theorem mail_stands {sender : Address}
    (stands : Stands before (spoken (mailCommand sender) ++ rest) {} handed delivered) :
    Talk.Ends (turn service) before
      (fun goesOn after => goesOn = true ∧
        Stands after rest { sender := some sender.text } handed delivered)
      fun _ _ => False := by
  have verb : Sayable "MAIL".toList := by decide
  have keyword : Sayable "FROM".toList := by decide
  refine ends_addressed verb (by decide) (by decide) keyword (by decide) (by decide) stands.rest
    fun peer isRest => ?_
  have heard := stands.hears isRest (mailCommand sender ++ ['\r', '\n'])
  have address := addressOf_enclosed keyword (by decide) (by decide) (by decide) sender
  have begun := (heard.begins { sender := some sender.text }).spoke "250 2.1.0 Ok".toList
  change Talk.Ends (perform service (enclosed "FROM".toList sender) .mail) _ _ _
  simp only [perform, mail, Talk.ends_bind, Talk.ends_get, hears_authenticated,
    stands.authenticated, hears_tx, stands.tx, address, Bool.not_true, Bool.false_eq_true, if_false,
    Option.isSome_none]
  exact ⟨begun.patience, rfl, begun⟩

/-- `RCPT` adds its recipient. -/
theorem rcpt_stands {sender : List Char} {taken : List (List Char)} {recipient : Address}
    (room : taken.length < maxRecipients)
    (stands : Stands before (spoken (rcptCommand recipient) ++ rest)
      { sender := some sender, recipients := taken } handed delivered) :
    Talk.Ends (turn service) before
      (fun goesOn after => goesOn = true ∧
        Stands after rest { sender := some sender, recipients := taken ++ [recipient.text] } handed
          delivered)
      fun _ _ => False := by
  have verb : Sayable "RCPT".toList := by decide
  have keyword : Sayable "TO".toList := by decide
  refine ends_addressed verb (by decide) (by decide) keyword (by decide) (by decide) stands.rest
    fun peer isRest => ?_
  have heard := stands.hears isRest (rcptCommand recipient ++ ['\r', '\n'])
  have address := addressOf_enclosed keyword (by decide) (by decide) (by decide) recipient
  have added := (heard.begins { before.tx with
    recipients := before.tx.recipients ++ [recipient.text] }).spoke "250 2.1.5 Ok".toList
  have grown : { before.tx with recipients := before.tx.recipients ++ [recipient.text] } =
      { sender := some sender, recipients := taken ++ [recipient.text] : Transaction } := by
    rw [stands.tx]
  change Talk.Ends (perform service (enclosed "TO".toList recipient) .rcpt) _ _ _
  simp only [perform, rcpt, Talk.ends_bind, Talk.ends_get, hears_authenticated,
    stands.authenticated, hears_tx, stands.tx, address, Bool.not_true, Bool.false_eq_true, if_false,
    Option.isNone_some, Nat.not_le.mpr room]
  exact ⟨added.patience, rfl, grown ▸ added⟩

/-- Where the session stands after a verdict, and whether it goes on. -/
def Settled (rest : Bytes) (handed : List (SmtpSource × Bytes)) (delivered : Nat) (goesOn : Bool)
    (after : Session) : Prop :=
  (goesOn = true ↔ delivered < maxTransactions) ∧ Stands after rest {} handed delivered

/-- After a verdict there is no transaction, and there is one message more. -/
theorem settle_stands (reply : List Char)
    (stands : Stands { before with delivered := before.delivered + 1 } rest {} handed delivered) :
    Talk.Ends (settle reply) before (fun goesOn after => after.bad < maxBadCommands ∧
      Settled rest handed delivered goesOn after) fun _ _ => False := by
  have said := stands.spoke reply
  have counted : before.delivered + 1 = delivered := stands.delivered
  simp only [settle, Talk.ends_bind, say, note, Talk.ends_modify, Talk.ends_get]
  split
  · rename_i full
    have full : maxTransactions ≤ before.delivered + 1 := full
    exact ⟨said.patience, iff_of_false Bool.false_ne_true (by omega), said.spoke _⟩
  · rename_i room
    have room : ¬ maxTransactions ≤ before.delivered + 1 := room
    exact ⟨said.patience, iff_of_true rfl (by omega), said⟩

/-- `DATA` hands the message on, unless it is too large. -/
theorem data_stands {lines : List Bytes} {sender : List Char} {taken : List (List Char)}
    (single : ∀ line ∈ lines, lineFeed ∉ line)
    (short : ∀ line ∈ lines, line.length + 2 ≤ max service.maxBytes maxCommandBytes)
    (named : taken ≠ [])
    (stands : Stands before
      (spoken "DATA".toList ++ (stuffedLines lines ++ (fullStop :: crlf ++ rest)))
      { sender := some sender, recipients := taken } handed delivered) :
    Talk.Ends (turn service) before
      (Settled rest
        (handed ++ if (contentOf lines).length ≤ service.maxBytes then
          [(⟨sender, taken, service.authservId⟩, contentOf lines)] else []) (delivered + 1))
      fun _ _ => False := by
  have sayable : Sayable "DATA".toList := by decide
  refine ends_turn sayable (by decide) stands.rest fun peer isPayload => ?_
  have heard := stands.hears isPayload ("DATA".toList ++ ['\r', '\n'])
  have asked := heard.spoke "354 End data with <CR><LF>.<CR><LF>".toList
  obtain ⟨left, read, isRest⟩ := readMessage_payload single short isPayload
  have word : firstWord "DATA".toList = ("DATA".toList, []) := by decide
  rw [word]
  change Talk.Ends (perform service [] .data) _ _ _
  simp only [perform, data, Talk.ends_bind, Talk.ends_get, hears_authenticated,
    stands.authenticated, hears_tx, stands.tx, Bool.not_true, Bool.false_eq_true, if_false,
    Option.isNone_some, named, false_or]
  simp only [takeMessage, observing, Talk.ends_bind, say, note, Talk.ends_modify,
    Talk.ends_tryCatch]
  refine ends_receive (fun message other reads => ?_) fun failure breaks => ?_
  · cases read.symm.trans reads
    simp only [Talk.ends_pure, Talk.ends_get]
    have counted : before.delivered + 1 = delivered + 1 := congrArg (· + 1) stands.delivered
    by_cases fits : (contentOf lines).length ≤ service.maxBytes
    · simp only [if_pos fits, deliver, note, Talk.ends_bind, Talk.ends_modify, Talk.ends_get,
        Talk.ends_pure]
      refine settle_stands _ ⟨isRest, rfl, ?_, counted, asked.authenticated, asked.bad⟩
      refine (handedOf_cons _ _).trans ?_
      rw [asked.handed]
      simp only [Session.note, hears_tx, stands.tx]
      rfl
    · simp only [if_neg fits, List.append_nil]
      exact settle_stands _ ⟨isRest, rfl, asked.handed, counted, asked.authenticated, asked.bad⟩
  · cases read.symm.trans breaks

end Turns

/-! ### The whole of the conversation -/

section Conversations

variable {service : Service} {before : Session} {rest : Bytes} {turns delivered : Nat}
  {handed : List (SmtpSource × Bytes)} {finished : PUnit → Session → Prop}

/-- A recipient after another. -/
theorem ends_recipients {sender : List Char} {recipients : List Address} {taken : List (List Char)}
    (few : taken.length + recipients.length ≤ maxRecipients)
    (stands : Stands before
      (recipients.flatMap (fun recipient => spoken (rcptCommand recipient)) ++ rest)
      { sender := some sender, recipients := taken } handed delivered)
    (onward : ∀ after, Stands after rest
        { sender := some sender, recipients := taken ++ recipients.map Address.text } handed
        delivered →
      Talk.Ends (session service turns) after finished fun _ _ => False) :
    Talk.Ends (session service (recipients.length + turns)) before finished
      fun _ _ => False := by
  induction recipients generalizing taken before with
  | nil =>
      rw [List.length_nil, Nat.zero_add]
      refine onward before ?_
      rw [List.map_nil, List.append_nil]
      exact stands
  | cons recipient recipients ih =>
      rw [List.length_cons] at few
      have first : Stands before (spoken (rcptCommand recipient) ++
          (recipients.flatMap (fun recipient => spoken (rcptCommand recipient)) ++ rest))
          { sender := some sender, recipients := taken } handed delivered := by
        rwa [List.flatMap_cons, List.append_assoc] at stands
      rw [List.length_cons, Nat.add_right_comm]
      have fewer : (taken ++ [recipient.text]).length + recipients.length ≤ maxRecipients := by
        rw [List.length_append, List.length_singleton]
        omega
      refine session_turn (rcpt_stands (by omega) first) (fun after stands => ?_) nofun
      refine ih fewer stands.2 fun last stands => onward last ?_
      rwa [List.append_assoc] at stands

/-- A message, of which the session makes one turn for each command. -/
theorem ends_message {message : Message}
    (short : ∀ line ∈ message.lines,
      line.length + 2 ≤ max service.maxBytes maxCommandBytes)
    (stands : Stands before (message.wire ++ rest) {} handed delivered)
    (onward : ∀ after,
      Stands after rest {} (handed ++ (message.handed service).toList) (delivered + 1) →
      delivered + 1 < maxTransactions →
      Talk.Ends (session service turns) after finished fun _ _ => False)
    (stops : ∀ after, handedOf after.log = handed ++ (message.handed service).toList →
      ¬ delivered + 1 < maxTransactions → finished ⟨⟩ after) :
    Talk.Ends (session service (message.turns + turns)) before finished fun _ _ => False := by
  have counted : message.turns + turns = message.recipients.length + (turns + 1) + 1 := by
    rw [Message.turns]
    omega
  have begins : Stands before (spoken (mailCommand message.sender) ++
      (message.recipients.flatMap (fun recipient => spoken (rcptCommand recipient)) ++
        (spoken "DATA".toList ++ (stuffedLines message.lines ++ (fullStop :: crlf ++ rest)))))
      {} handed delivered := by
    simpa only [Message.wire, List.append_assoc, List.cons_append] using stands
  have named : message.recipients.map Address.text ≠ [] := by simpa using message.named
  have verdict : (message.handed service).toList =
      if (contentOf message.lines).length ≤ service.maxBytes then
        [(⟨message.sender.text, message.recipients.map Address.text, service.authservId⟩,
          contentOf message.lines)] else [] := by
    unfold Message.handed
    split
    · rfl
    · rfl
  rw [counted]
  refine session_turn (mail_stands begins) (fun open_ opened => ?_) nofun
  refine ends_recipients (by simpa using message.few) opened.2 fun full stands => ?_
  refine session_turn (data_stands message.single short named stands) (fun after settled => ?_)
    fun after settled => ?_
  · rw [← verdict] at settled
    exact onward after settled.2 (settled.1.mp rfl)
  · rw [← verdict] at settled
    exact stops after settled.2.handed fun room => Bool.false_ne_true (settled.1.mpr room)

/-- Messages, until there are none or the connection has had enough of them. -/
theorem ends_messages {messages : List Message}
    (short : ∀ message ∈ messages, ∀ line ∈ message.lines,
      line.length + 2 ≤ max service.maxBytes maxCommandBytes)
    (room : delivered < maxTransactions)
    (stands : Stands before (messages.flatMap Message.wire ++ spoken "QUIT".toList) {} handed
      delivered) :
    Talk.Ends (session service ((messages.map Message.turns).sum + (turns + 1))) before
      (fun _ after => handedOf after.log = handed ++
        (messages.take (maxTransactions - delivered)).filterMap (Message.handed · service))
      fun _ _ => False := by
  induction messages generalizing before handed delivered with
  | nil =>
      have sayable : Sayable "QUIT".toList := by decide
      have last : Stands before (spoken "QUIT".toList ++ []) {} handed delivered := by
        rwa [List.flatMap_nil, List.nil_append, ← List.append_nil (spoken _)] at stands
      have goodbye : Talk.Ends (turn service) before
          (fun goesOn after => goesOn = false ∧ handedOf after.log = handed)
          fun _ _ => False := by
        refine ends_turn sayable (by decide) last.rest fun peer isRest => ?_
        have heard := last.hears isRest ("QUIT".toList ++ ['\r', '\n'])
        have left := heard.spoke "221 2.0.0 Bye".toList
        have word : firstWord "QUIT".toList = ("QUIT".toList, []) := by decide
        rw [word]
        exact ⟨left.patience, rfl, left.handed⟩
      rw [List.map_nil, List.sum_nil, Nat.zero_add]
      refine session_turn goodbye (fun _ ended => nomatch ended.1) fun after ended => ?_
      rw [ended.2, List.take_nil, List.filterMap_nil, List.append_nil]
  | cons message messages ih =>
      have left : maxTransactions - delivered = maxTransactions - (delivered + 1) + 1 := by omega
      have taken : (message :: messages).take (maxTransactions - delivered) =
          message :: messages.take (maxTransactions - (delivered + 1)) := by
        rw [left, List.take_succ_cons]
      have shown (more : List Message) :
          handed ++ (message :: more).filterMap (Message.handed · service) =
            handed ++ (message.handed service).toList ++
              more.filterMap (Message.handed · service) := by
        rw [List.filterMap_cons, List.append_assoc]
        cases message.handed service with
        | none | some => rfl
      rw [List.flatMap_cons, List.append_assoc] at stands
      rw [List.map_cons, List.sum_cons, Nat.add_assoc, taken, shown]
      refine ends_message (short message List.mem_cons_self) stands (fun after stands room => ?_)
        fun after isHanded full => ?_
      · exact ih (fun message member => short message (.tail _ member)) room stands
      · rw [Nat.sub_eq_zero_of_le (Nat.le_of_not_lt full), List.take_zero, List.filterMap_nil,
          List.append_nil]
        exact isHanded

/-- The relay has the credential of the receiver. -/
def Relay.Knows (relay : Relay) (service : Service) : Prop :=
  ∃ username password : Bytes,
    service.decodeB64 relay.blob = some (0 :: (username ++ 0 :: password)) ∧
    0 ∉ username ∧ 0 ∉ password ∧ fromUtf8 username = some service.credential.username ∧
    fromUtf8 password = some service.credential.password

/-- A session whose peer has greeted and nothing more. -/
structure Greets (session : Session) (rest : Bytes) : Prop where
  rest : session.peer.pieces.flatten = rest
  greeted : session.greeted = true
  stranger : session.authenticated = false
  tx : session.tx = {}
  handed : handedOf session.log = []
  delivered : session.delivered = 0
  bad : session.bad = 0

/-- The first command is taken for a greeting. -/
theorem ehlo_greets {peer : Peer} (flat : peer.pieces.flatten = spoken "EHLO relay".toList ++ rest)
    (line : List Char) :
    Talk.Ends (turn service) (Session.note { peer } (.said line))
      (fun goesOn after => goesOn = true ∧ Greets after rest) fun _ _ => False := by
  have sayable : Sayable "EHLO relay".toList := by decide
  refine ends_turn sayable (by decide) flat fun other isRest => ?_
  have word : firstWord "EHLO relay".toList = ("EHLO".toList, "relay".toList) := by decide
  rw [word]
  have nobody : handedOf [.said "250 AUTH PLAIN LOGIN".toList, .said "250-SMTPUTF8".toList,
      .said "250-8BITMIME".toList,
      .said ("250-SIZE ".toList ++ Nat.toDigits 10 service.maxBytes),
      .said ("250-".toList ++ serverName), .heard ("EHLO relay".toList ++ ['\r', '\n']),
      .said line] = [] := rfl
  exact ⟨show 0 < maxBadCommands by decide, rfl, isRest, rfl, rfl, rfl, nobody, rfl, rfl⟩

theorem trim_blob (relay : Relay) : trim relay.blob = relay.blob :=
  trim_solid relay.sayable relay.solid

theorem trim_plain (relay : Relay) :
    trim ("PLAIN".toList ++ ' ' :: relay.blob) = "PLAIN".toList ++ ' ' :: relay.blob := by
  have first : ("PLAIN".toList ++ ' ' :: relay.blob).head? = some 'P' := rfl
  refine trim_eq_self (by rw [first]; decide) fun char member => ?_
  have last : ("PLAIN".toList ++ ' ' :: relay.blob).getLast? = relay.blob.getLast? := by
    rw [List.getLast?_append_of_ne_nil _ (List.cons_ne_nil _ _),
      List.getLast?_cons_of_ne_nil relay.nonempty]
  have isBlob := List.mem_of_mem_getLast? (last ▸ member)
  exact sayable_blank (relay.sayable char isBlob) fun same => relay.solid (same ▸ isBlob)

/-- The verb of the second command, and what comes after it. -/
theorem authCommand_words (relay : Relay) :
    firstWord (authCommand relay.blob) =
      ("AUTH".toList, "PLAIN".toList ++ ' ' :: relay.blob) := by
  unfold authCommand
  rw [firstWord_pair (by decide) (trim_plain relay)]
  rfl

/-- The mechanism, and the credential in the same line. -/
theorem plain_words (relay : Relay) :
    firstWord ("PLAIN".toList ++ ' ' :: relay.blob) = ("PLAIN".toList, relay.blob) := by
  rw [firstWord_pair (by decide) (trim_blob relay)]
  rfl

theorem authCommand_split (blob : List Char) :
    authCommand blob = "AUTH PLAIN ".toList ++ blob := by
  have words : "AUTH PLAIN ".toList = "AUTH".toList ++ ' ' :: ("PLAIN".toList ++ [' ']) := by decide
  unfold authCommand
  rw [words, List.append_assoc, List.cons_append, List.append_assoc, List.singleton_append]

/-- The line of the credential is one that the receiver reads to its end. -/
theorem authCommand_fits (relay : Relay) :
    Sayable (authCommand relay.blob) ∧ (authCommand relay.blob).length < maxCommandBytes := by
  have words : Sayable "AUTH PLAIN ".toList := by decide
  have bound := relay.short
  rw [authCommand_split]
  refine ⟨words.append relay.sayable, ?_⟩
  rw [List.length_append]
  change 11 + relay.blob.length < 2048
  omega

/-- A relay that knows the credential is let in. -/
theorem auth_stands {relay : Relay} (knows : relay.Knows service)
    (greets : Greets before (spoken (authCommand relay.blob) ++ rest)) :
    Talk.Ends (turn service) before
      (fun goesOn after => goesOn = true ∧ Stands after rest {} [] 0) fun _ _ => False := by
  obtain ⟨username, password, decodes, noNul, alsoNoNul, isUsername, isPassword⟩ := knows
  have fields : (0 :: (username ++ 0 :: password)).splitOn 0 = [[], username, password] := by
    rw [← List.nil_append (0 :: _), List.splitOn_append_cons_self_of_not_mem (List.not_mem_nil),
      List.splitOn_append_cons_self_of_not_mem noNul, List.splitOn_eq_singleton alsoNoNul]
  have accepts :
      service.accepts service.credential.username service.credential.password = true := by
    simp [Service.accepts, secretEq]
  obtain ⟨sayable, short⟩ := authCommand_fits relay
  refine ends_turn sayable short greets.rest fun peer isRest => ?_
  rw [authCommand_words]
  change Talk.Ends (perform service ("PLAIN".toList ++ ' ' :: relay.blob) .auth) _ _ _
  simp only [perform, auth, Talk.ends_bind, Talk.ends_get, Session.hears, greets.greeted,
    greets.stranger, Bool.not_true, Bool.false_eq_true, if_false, authenticate, plain_words,
    if_true, authenticatePlain, given, relay.nonempty, Talk.ends_pure, trim_blob, decodes,
    Option.map_some, fields, compare, isUsername, isPassword, note, Talk.ends_modify, accepts]
  have patient : before.bad < maxBadCommands := greets.bad.trans_lt (by decide)
  have nobody : handedOf (.said "235 2.7.0 Authentication successful".toList ::
      .checked service.credential.username service.credential.password ::
      .heard (authCommand relay.blob ++ ['\r', '\n']) :: before.log) = [] := by
    rw [handedOf_said, handedOf_cons, handedOf_heard, greets.handed]
    rfl
  exact ⟨patient, trivial, isRest, greets.tx, nobody, greets.delivered, rfl, greets.bad⟩

/-- A relay that has the credential sends messages; in whatever pieces its bytes arrive, the
receiver hands on, in order and byte for byte as they were before they were stuffed, those that are
not too large, of as many as one connection may bring. -/
theorem relays (service : Service) (relay : Relay) (knows : relay.Knows service)
    (short : ∀ message ∈ relay.messages, ∀ line ∈ message.lines,
      line.length + 2 ≤ max service.maxBytes maxCommandBytes)
    (peer : Peer) (flat : peer.pieces.flatten = relay.wire) (turns : Nat) :
    let ended := connection service (relay.turns + turns) peer
    ended.1 = .ok ⟨⟩ ∧ handedOf ended.2.log =
      (relay.messages.take maxTransactions).filterMap (Message.handed · service) := by
  have counted : relay.turns + turns =
      (relay.messages.map Message.turns).sum + (turns + 1) + 1 + 1 := by
    rw [Relay.turns]
    omega
  have ends : Talk.Ends (session service (relay.turns + turns))
      (Session.note { peer } (.said ("220 ".toList ++ serverName ++
        " NookOS inbound SMTP".toList)))
      (fun _ after => handedOf after.log =
        (relay.messages.take maxTransactions).filterMap (Message.handed · service))
      fun _ _ => False := by
    rw [counted]
    refine session_turn (ehlo_greets flat _) (fun after greeted => ?_) nofun
    refine session_turn (auth_stands knows greeted.2) (fun after stands => ?_) nofun
    exact ends_messages short (by decide) stands.2
  have ran : connection service (relay.turns + turns) peer =
      (session service (relay.turns + turns)).run
        (Session.note { peer } (.said ("220 ".toList ++ serverName ++
          " NookOS inbound SMTP".toList))) := rfl
  rw [ran]
  unfold Talk.Ends at ends
  cases ended : (session service (relay.turns + turns)).run _ with
  | mk result after =>
      rw [ended] at ends
      cases result with
      | ok => exact ⟨rfl, ends⟩
      | error => exact ends.elim

/-- A sender who is the recipient too. -/
def staff : Address := ⟨"a@b".toList, by decide, by decide, by decide, by decide⟩

/-- A message with a line that is a dot, and one that is too large. -/
def dotted : Message :=
  ⟨staff, [staff], by decide, by decide, [ascii "Hi".toList, [fullStop]], by decide⟩

/-- A message of more bytes than the receiver takes. -/
def large : Message :=
  ⟨staff, [staff], by decide, by decide, [ascii "0123456789".toList], by decide⟩

/-- The large message comes first. -/
def relay : Relay := ⟨"AHUAcA==".toList, by decide, by decide, by decide, by decide,
  [large, dotted]⟩

/-- A receiver that takes ten bytes of a message. -/
def receiver : Service where
  maxBytes := 10
  authservId := none
  credential := ⟨"u".toList, "p".toList⟩
  tag := ascii
  decodeB64 blob := if blob = "AHUAcA==".toList then some [0, 117, 0, 112] else none
  receive _ _ _ := .ok .filed

/-- The bytes come one at a time. -/
theorem relays_bytewise :
    handedOf (connection receiver (relay.turns + 0)
        ⟨relay.wire.map ([·]), true⟩).2.log =
      [(⟨"a@b".toList, ["a@b".toList], none⟩, ascii "Hi\r\n.\r\n".toList)] := by
  have knows : relay.Knows receiver := ⟨[117], [112], rfl, by decide, by decide, rfl, rfl⟩
  have short : ∀ message ∈ relay.messages, ∀ line ∈ message.lines,
      line.length + 2 ≤ max receiver.maxBytes maxCommandBytes := by decide
  have flat : (relay.wire.map ([·])).flatten = relay.wire := by
    rw [← List.flatMap_def, List.flatMap_singleton']
  exact (relays receiver relay knows short ⟨relay.wire.map ([·]), true⟩ flat 0).2

end Conversations

end NookOs.Mail.Smtp
