/-
Module: NookOs.Mail.ImapReplies
Purpose: The replies of an IMAP server as it writes them, what the session reads of them, and
  which of the bodies in a reply it files under their own numbers.
Trusted boundary: none
Main exports: Line, Line.wire, Fetch, Reply, readResponse_wire, Orderly, null_body_shifts
-/
import Mathlib.Data.List.Infix
import NookOs.Mail.Imap

namespace NookOs.Mail.Imap

open Lib Lib.Text Lib.Utf8

/-! ### The server's side -/

section Wire

/-- Text that may stand on a line. -/
def Clean (text : List Char) : Prop :=
  ∀ char ∈ text, char.toNat < 128 ∧ char ≠ '\r' ∧ char ≠ '\n'

instance (text : List Char) : Decidable (Clean text) :=
  inferInstanceAs <| Decidable <| ∀ char ∈ text, char.toNat < 128 ∧ char ≠ '\r' ∧ char ≠ '\n'

/-- Text that may stand in a line. -/
abbrev CleanText := { text : List Char // Clean text }

/-- Bytes that can be announced. -/
abbrev Literal := { bytes : Bytes // bytes.length < 2 ^ 32 }

/-- A piece of a line: text, or a literal. -/
inductive Chunk where
  | text (text : CleanText)
  | literal (bytes : Literal)

/-- One response, as the server writes it. -/
abbrev Line := List Chunk

/-- The end of a line. -/
def crlf : Bytes := [carriageReturn, lineFeed]

/-- `{5}`. -/
def announcement (bytes : Literal) : List Char :=
  '{' :: (Nat.toDigits 10 bytes.val.length ++ ['}'])

/-- The line as the server sends it. -/
def Line.wire : Line → Bytes
  | [] => crlf
  | .text text :: rest => ascii text.val ++ Line.wire rest
  | .literal bytes :: rest =>
      ascii (announcement bytes) ++ crlf ++ (bytes.val ++ Line.wire rest)

/-- The line without its literals. -/
def Line.spoken : Line → List Char
  | [] => []
  | .text text :: rest => text.val ++ Line.spoken rest
  | .literal bytes :: rest => announcement bytes ++ Line.spoken rest

/-- The literals of the line, in order. -/
def Line.literals : Line → List Bytes
  | [] => []
  | .text _ :: rest => Line.literals rest
  | .literal bytes :: rest => bytes.val :: Line.literals rest

/-- What follows the last literal, given what comes before. -/
def Line.ending : List Char → Line → List Char
  | before, [] => before
  | before, .text text :: rest => Line.ending (before ++ text.val) rest
  | _, .literal _ :: rest => Line.ending [] rest

/-- The end of a line does not read like the announcement of a literal. -/
def Line.Plain (line : Line) : Prop := trailingLiteralLen (ascii (line.ending [])) = none

instance (line : Line) : Decidable line.Plain :=
  inferInstanceAs <| Decidable <| trailingLiteralLen (ascii (line.ending [])) = none

end Wire

/-! ### A line of the server is read as it was written -/

section Lines

variable {text other before : List Char} {char : Char} {number bits : Nat} {line : Line}

theorem Clean.isAscii (clean : Clean text) : IsAscii text := fun char member =>
  (clean char member).1

/-- Clean texts make a clean text. -/
theorem Clean.append (clean : Clean text) (alsoClean : Clean other) : Clean (text ++ other) :=
  fun char member =>
    (List.mem_append.mp member).elim (clean char) (alsoClean char)

/-- A number is clean. -/
theorem clean_toDigits (number : Nat) : Clean (Nat.toDigits 10 number) := by
  intro char member
  have isDigit := Nat.isDigit_of_mem_toDigits (by decide) (by decide) member
  refine ⟨?_, ?_, ?_⟩
  · simp only [Char.isDigit, Bool.and_eq_true, decide_eq_true_eq, UInt32.le_iff_toNat_le] at isDigit
    exact lt_of_le_of_lt isDigit.2 (by decide)
  · rintro rfl
    cases isDigit
  · rintro rfl
    cases isDigit

theorem clean_announcement (bytes : Literal) : Clean (announcement bytes) :=
  (show Clean ['{'] by decide).append
    ((clean_toDigits bytes.val.length).append (show Clean ['}'] by decide))

/-- What the reader keeps of a line is clean. -/
theorem Line.clean_spoken (line : Line) : Clean line.spoken := by
  induction line with
  | nil => exact nofun
  | cons chunk rest ih =>
      cases chunk with
      | text text => exact text.2.append ih
      | literal bytes => exact (clean_announcement bytes).append ih

theorem ascii_append : ascii (text ++ other) = ascii text ++ ascii other := List.map_append

/-- No byte of a line is one of its end. -/
theorem Clean.ascii_ne (clean : Clean text) :
    ∀ byte ∈ ascii text, byte ≠ lineFeed ∧ byte ≠ carriageReturn := by
  refine List.forall_mem_map.mpr fun char member => ?_
  obtain ⟨isAscii, noReturn, noFeed⟩ := clean char member
  have apart (mark : Char) {byte : UInt8} (isMark : byte.toNat = mark.toNat)
      (notMark : char ≠ mark) : char.toNat.toUInt8 ≠ byte := by
    rintro rfl
    rw [toNat_toUInt8 isAscii] at isMark
    exact notMark (Char.toNat_inj.mp isMark)
  exact ⟨apart '\n' rfl noFeed, apart '\r' rfl noReturn⟩

/-- A clean line is read back. -/
theorem readLine_ascii (clean : Clean text) (more : Bytes) :
    readLine (ascii text ++ crlf ++ more) = .ok (ascii text, more) := by
  have bytes := clean.ascii_ne
  have shape : ascii text ++ crlf ++ more =
      (ascii text ++ [carriageReturn]) ++ lineFeed :: more := by simp [crlf]
  have kept : ∀ byte ∈ ascii text ++ [carriageReturn], decide (byte ≠ lineFeed) = true := by
    intro byte member
    rcases List.mem_append.mp member with inText | isReturn
    · exact decide_eq_true (bytes byte inText).1
    · rw [List.mem_singleton.mp isReturn]
      rfl
  have line : ((ascii text ++ [carriageReturn]) ++ lineFeed :: more).takeWhile (· ≠ lineFeed) =
      ascii text ++ [carriageReturn] := by
    rw [List.takeWhile_append_of_pos kept, List.takeWhile_cons_of_neg (by simp), List.append_nil]
  have rest : ((ascii text ++ [carriageReturn]) ++ lineFeed :: more).dropWhile (· ≠ lineFeed) =
      lineFeed :: more := by
    rw [List.dropWhile_append_of_pos kept, List.dropWhile_cons_of_neg (by simp)]
  rw [readLine, if_neg (by simp [crlf]), shape, line, rest, List.rdropWhile_concat_pos _ _ _ rfl]
  refine congrArg (fun line => Except.ok (line, more)) ?_
  refine List.rdropWhile_eq_self_iff.mpr fun nonempty isEnd => ?_
  have last := bytes _ (List.getLast_mem nonempty)
  simp [last.1, last.2] at isEnd

theorem parseUnsigned_toDigits (fits : number < 2 ^ bits) :
    parseUnsigned bits (Nat.toDigits 10 number) = some number := by
  have digits : (Nat.toDigits 10 number).all Char.isDigit = true :=
    List.all_eq_true.mpr fun _ => Nat.isDigit_of_mem_toDigits (by decide) (by decide)
  have noSign : unsigned (Nat.toDigits 10 number) = Nat.toDigits 10 number := by
    unfold unsigned
    split
    · next rest isText =>
        rw [isText, List.all_cons] at digits
        exact absurd digits (by simp)
    · rfl
  rw [parseUnsigned, noSign, if_pos ⟨Nat.toDigits_ne_nil, digits⟩,
    Nat.ofDigitChars_ten_toDigits, if_pos fits]

theorem rsplitOnce_append {mark : Char} (absent : mark ∉ other) :
    rsplitOnce mark (text ++ mark :: other) = some (text, other) := by
  have reversed : (text ++ mark :: other).reverse = other.reverse ++ mark :: text.reverse := by
    simp
  rw [rsplitOnce, reversed, splitOnce_append fun member => absent (List.mem_reverse.mp member)]
  simp

/-- An announcement is understood. -/
theorem trailingLiteralLen_announcement (clean : Clean text) (bytes : Literal) :
    trailingLiteralLen (ascii (text ++ announcement bytes)) = some bytes.val.length := by
  have digit (mark : Char) (noDigit : mark.isDigit = false) :
      mark ∉ Nat.toDigits 10 bytes.val.length := by
    intro member
    rw [Nat.isDigit_of_mem_toDigits (by decide) (by decide) member] at noDigit
    cases noDigit
  have ends : trimEndMatches '+' (Nat.toDigits 10 bytes.val.length) =
      Nat.toDigits 10 bytes.val.length :=
    trimEndMatches_eq_self fun last =>
      digit '+' rfl (List.mem_of_mem_getLast? (Option.mem_def.mpr last))
  have shape : text ++ announcement bytes =
      (text ++ '{' :: Nat.toDigits 10 bytes.val.length) ++ ['}'] := by simp [announcement]
  rw [trailingLiteralLen, fromUtf8_ascii (clean.append (clean_announcement bytes)).isAscii,
    Option.bind_eq_bind, Option.bind_some, shape, List.getLast?_concat, if_pos rfl,
    List.dropLast_concat, rsplitOnce_append (digit '{' rfl), Option.bind_eq_bind,
    Option.bind_some]
  simp only [ends]
  exact parseUnsigned_toDigits (lt_trans bytes.2 (by decide))

/-- A response is read whole, by induction on its chunks; the text of the line that is being
read grows up to the next literal. -/
theorem readLines_wire (clean : Clean before) (plain : trailingLiteralLen
      (ascii (line.ending before)) = none) {fuel : Nat} (enough : line.literals.length < fuel)
    (out : Response) (more : Bytes) :
    readLines fuel out (ascii before ++ line.wire ++ more) =
      .ok ({ text := out.text ++ before ++ line.spoken
             literals := out.literals ++ line.literals }, more) := by
  induction line generalizing before fuel out with
  | nil =>
      obtain ⟨fuel, rfl⟩ := Nat.exists_eq_succ_of_ne_zero (Nat.ne_of_gt enough)
      have none : trailingLiteralLen (ascii before) = none := plain
      rw [readLines, Line.wire, readLine_ascii clean]
      simp only [bind, Except.bind, none, fromUtf8Lossy_ascii clean.isAscii]
      simp [Line.spoken, Line.literals]
  | cons chunk rest ih =>
      cases chunk with
      | text text =>
          have longer := ih (clean.append text.2) plain enough out
          rw [ascii_append, List.append_assoc (ascii before)] at longer
          rw [Line.wire, longer]
          simp [Line.spoken, Line.literals]
      | literal bytes =>
          obtain ⟨fuel, rfl⟩ := Nat.exists_eq_succ_of_ne_zero (Nat.ne_of_gt
            (Nat.lt_of_le_of_lt (Nat.zero_le _) enough))
          have cleanLine := clean.append (clean_announcement bytes)
          have shape : ascii before ++ Line.wire (.literal bytes :: rest) ++ more =
              ascii (before ++ announcement bytes) ++ crlf ++
                (bytes.val ++ (Line.wire rest ++ more)) := by
            simp [Line.wire, ascii_append]
          have later := ih (show Clean [] from nofun) plain
            (Nat.lt_of_succ_lt_succ enough)
            { text := out.text ++ (before ++ announcement bytes)
              literals := out.literals ++ [bytes.val] }
          rw [shape, readLines, readLine_ascii cleanLine]
          simp only [bind, Except.bind, trailingLiteralLen_announcement clean,
            fromUtf8Lossy_ascii cleanLine.isAscii, List.take_left', List.drop_left']
          rw [if_neg (by simp)]
          rw [show Line.wire rest ++ more = ascii [] ++ Line.wire rest ++ more from rfl, later]
          simp [Line.spoken, Line.literals]

theorem Line.length_literals (line : Line) : line.literals.length < line.wire.length := by
  induction line with
  | nil => decide
  | cons chunk rest ih =>
      cases chunk with
      | text text =>
          simp only [Line.wire, Line.literals, List.length_append]
          omega
      | literal bytes =>
          simp only [Line.wire, Line.literals, List.length_append, List.length_cons, crlf]
          omega

/-- A plain line is read as it was written. -/
theorem readResponse_wire (plain : line.Plain) (more : Bytes) :
    readResponse (line.wire ++ more) =
      .ok ({ text := line.spoken, literals := line.literals }, more) := by
  have enough := line.length_literals
  have read := readLines_wire (show Clean [] from nofun) plain
    (show line.literals.length < (line.wire ++ more).length + 1 by
      rw [List.length_append]
      omega) {} more
  exact read

end Lines

/-! ### Whole replies -/

section Replies

theorem clean_escaped (content : CleanText) : Clean (content.val.flatMap escape) := by
  intro char member
  obtain ⟨source, within, escaped⟩ := List.mem_flatMap.mp member
  have bare := content.2 source within
  unfold escape at escaped
  split at escaped
  · rcases List.mem_pair.mp escaped with rfl | rfl
    · decide
    · exact bare
  · exact List.mem_singleton.mp escaped ▸ bare

/-- How a server may send a body. -/
inductive Nstring where
  | literal (bytes : Literal)
  | quoted (content : CleanText)
  | null

/-- The string as it is written. -/
def Nstring.line : Nstring → Line
  | literal bytes => [.literal bytes]
  | quoted content =>
      [.text ⟨['"'], by decide⟩, .text ⟨content.val.flatMap escape, clean_escaped content⟩,
        .text ⟨['"'], by decide⟩]
  | null => [.text ⟨"NIL".toList, by decide⟩]

/-- The bytes of the string, where it is one. -/
def Nstring.content : Nstring → Option Bytes
  | literal bytes => some bytes.val
  | quoted content => some (ascii content.val)
  | null => none

/-- One item of a message: its number, its body, or another. -/
inductive Item where
  | uid (number : Nat)
  | body (value : Nstring)
  | other (line : Line)

/-- The item as it is written. -/
def Item.line : Item → Line
  | uid number =>
      [.text ⟨"UID ".toList, by decide⟩, .text ⟨Nat.toDigits 10 number, clean_toDigits number⟩]
  | body value => .text ⟨"BODY[] ".toList, by decide⟩ :: value.line
  | other line => line

/-- A `FETCH` response; its items stand in any order, the number and the body at most once. -/
structure Fetch where
  number : Nat
  items : List Item
  oneUid : ∀ uid other, .uid uid ∈ items → .uid other ∈ items → uid = other := by simp
  oneBody : ∀ value other, .body value ∈ items → .body other ∈ items → value = other := by simp

/-- The items with blanks between them. -/
def joined : List Item → Line
  | [] => []
  | [item] => item.line
  | item :: rest => item.line ++ .text ⟨[' '], by decide⟩ :: joined rest

def Fetch.opening (fetch : Fetch) : Line :=
  [.text ⟨"* ".toList, by decide⟩,
    .text ⟨Nat.toDigits 10 fetch.number, clean_toDigits fetch.number⟩,
    .text ⟨" FETCH (".toList, by decide⟩]

/-- The response that a message is sent in. -/
def Fetch.line (fetch : Fetch) : Line :=
  fetch.opening ++ (joined fetch.items ++ [.text ⟨[')'], by decide⟩])

/-- A response that belongs to no command: one of a message, or `EXISTS`, `EXPUNGE`, `OK`. -/
inductive Untagged where
  | fetch (fetch : Fetch)
  | other (line : Line)

/-- The untagged response as a line. -/
def Untagged.line : Untagged → Line
  | fetch message => message.line
  | other line => .text ⟨"* ".toList, by decide⟩ :: line

/-- What a server answers to one command. -/
structure Reply where
  untagged : List Untagged
  completion : CleanText

theorem clean_tagOf (number : Nat) : Clean (tagOf number) := by
  have zeros : Clean (List.replicate (4 - (Nat.toDigits 10 number).length) '0') := by
    intro char member
    rw [List.eq_of_mem_replicate member]
    decide
  exact (show Clean ['n'] by decide).append (zeros.append (clean_toDigits number))

/-- The line that ends the reply. -/
def tagged (number : Nat) (completion : CleanText) : Line :=
  [.text ⟨tagOf number, clean_tagOf number⟩, .text ⟨" OK ".toList, by decide⟩, .text completion]

/-- The reply to the command of a number. -/
def Reply.wire (number : Nat) (reply : Reply) : Bytes :=
  reply.untagged.flatMap (fun response => response.line.wire) ++
    (tagged number reply.completion).wire

/-- No line of the reply ends as if a literal followed. -/
structure Reply.Plain (number : Nat) (reply : Reply) : Prop where
  untagged : ∀ response ∈ reply.untagged, response.line.Plain
  completion : (tagged number reply.completion).Plain

/-- What the reader keeps of the reply. -/
def Reply.response (reply : Reply) : Response where
  text := reply.untagged.flatMap fun response => response.line.spoken ++ ['\n']
  literals := reply.untagged.flatMap fun response => response.line.literals

end Replies

/-! ### A reply of the server is read as it was written -/

section Reading

variable {text rest : List Char} {reply : Reply} {number : Nat}

theorem Untagged.spoken_head (response : Untagged) :
    response.line.spoken.head? = some '*' := by
  cases response <;> rfl

theorem rdropWhile_append_stop {test : Char → Bool} {mark : Char} (stops : test mark = false)
    (front text : List Char) :
    (front ++ mark :: text).rdropWhile test = front ++ mark :: text.rdropWhile test := by
  induction text using List.reverseRecOn with
  | nil => exact List.rdropWhile_concat_neg _ _ _ (by simp [stops])
  | append_singleton text char ih =>
      rw [← List.cons_append, ← List.append_assoc, List.rdropWhile_concat, ih,
        List.rdropWhile_concat]
      split <;> simp

/-- The last line says `OK`. -/
theorem completed (completion : List Char) :
    (splitWhitespace (trim ("OK ".toList ++ completion))).head? = some "OK".toList := by
  have ending : trim ("OK ".toList ++ completion) =
      "OK".toList ++ (' ' :: completion).rdropWhile isWhitespace :=
    rdropWhile_append_stop (show isWhitespace 'K' = false by decide) ['O'] (' ' :: completion)
  have kept : ∀ char ∈ "OK".toList, (!isWhitespace char) = true := by decide
  have begins : ((' ' :: completion).rdropWhile isWhitespace).takeWhile (!isWhitespace ·) = [] := by
    obtain ⟨after, split⟩ := List.rdropWhile_prefix isWhitespace (' ' :: completion)
    cases shape : (' ' :: completion).rdropWhile isWhitespace with
    | nil => rfl
    | cons char more =>
        rw [shape] at split
        rw [(List.cons.inj split).1]
        exact List.takeWhile_cons_of_neg (by decide)
  have word : (("OK".toList ++ (' ' :: completion).rdropWhile isWhitespace).dropWhile
      isWhitespace).takeWhile (!isWhitespace ·) = "OK".toList := by
    rw [show ∀ text, ("OK".toList ++ text).dropWhile isWhitespace = "OK".toList ++ text
      from fun text => rfl, List.takeWhile_append_of_pos kept, begins]
    rfl
  rw [ending, head_splitWhitespace, word]
  rfl

/-- A reply is collected up to its tagged line. -/
theorem collectWith_wire (plain : reply.Plain number) {fuel : Nat}
    (enough : reply.untagged.length < fuel) (collected : Response) (more : Bytes) :
    collectWith fuel (tagOf number) collected (reply.wire number ++ more) =
      .ok ({ text := collected.text ++ reply.response.text
             literals := collected.literals ++ reply.response.literals }, more) := by
  obtain ⟨untagged, completion⟩ := reply
  induction untagged generalizing fuel collected with
  | nil =>
      obtain ⟨fuel, rfl⟩ := Nat.exists_eq_succ_of_ne_zero (Nat.ne_of_gt enough)
      have begins : (tagOf number ++ [' ']).isPrefixOf? (tagged number completion).spoken =
          some ("OK ".toList ++ completion.val) := by
        have shape : (tagged number completion).spoken =
            (tagOf number ++ [' ']) ++ ("OK ".toList ++ completion.val) := by
          simp [tagged, Line.spoken]
        rw [shape]
        exact isPrefixOf?_append
      rw [collectWith, Reply.wire, List.flatMap_nil, List.nil_append,
        readResponse_wire plain.completion]
      simp only [bind, Except.bind, begins]
      rw [if_pos (completed completion.val)]
      simp [Reply.response]
  | cons response untagged ih =>
      obtain ⟨fuel, rfl⟩ := Nat.exists_eq_succ_of_ne_zero (Nat.ne_of_gt
        (Nat.lt_of_le_of_lt (Nat.zero_le _) enough))
      have apart : (tagOf number ++ [' ']).isPrefixOf? response.line.spoken = none := by
        obtain ⟨after, shape⟩ := List.head?_eq_some_iff.mp response.spoken_head
        rw [shape]
        rfl
      have shape : Reply.wire number ⟨response :: untagged, completion⟩ ++ more =
          response.line.wire ++ (Reply.wire number ⟨untagged, completion⟩ ++ more) := by
        simp [Reply.wire]
      have later := ih
        { text := collected.text ++ response.line.spoken ++ ['\n']
          literals := collected.literals ++ response.line.literals }
        ⟨fun other member => plain.untagged other (.tail response member), plain.completion⟩
        (Nat.lt_of_succ_lt_succ enough)
      rw [shape, collectWith, readResponse_wire (plain.untagged response List.mem_cons_self)]
      simp only [bind, Except.bind, apart]
      rw [later]
      simp [Reply.response]

/-- A plain reply is read whole. -/
theorem collect_wire (plain : reply.Plain number) (more : Bytes) :
    collect (tagOf number) (reply.wire number ++ more) = .ok (reply.response, more) := by
  have bytes (line : Line) : 0 < line.wire.length :=
    Nat.lt_of_le_of_lt (Nat.zero_le _) line.length_literals
  have size : reply.untagged.length ≤ (reply.wire number).length := by
    rw [Reply.wire, List.length_append]
    induction reply.untagged with
    | nil => exact Nat.zero_le _
    | cons response untagged ih =>
        have first := bytes response.line
        rw [List.flatMap_cons, List.length_append, List.length_cons]
        omega
  exact collectWith_wire plain (by rw [List.length_append]; omega) {} more

theorem lines_clean (clean : Clean text) (rest : List Char) :
    lines (text ++ '\n' :: rest) = text :: lines rest := by
  have pieces : (text ++ '\n' :: rest).splitOn '\n' = text :: rest.splitOn '\n' :=
    List.splitOn_append_cons_self_of_not_mem (fun member => (clean _ member).2.2 rfl) rest
  have unended : text.getLast? ≠ some '\r' := fun ends =>
    (clean _ (List.mem_of_mem_getLast? (Option.mem_def.mpr ends))).2.1 rfl
  have more := List.splitOn_ne_nil '\n' rest
  rw [lines, lines, pieces, List.dropLast_cons_of_ne_nil more, List.getLast?_cons]
  obtain ⟨front, last, isLast⟩ := List.eq_nil_or_concat _ |>.resolve_left more
  rw [isLast]
  cases last with
  | nil | cons => simp [unended]

/-- The lines that the reader finds are those that were sent. -/
theorem lines_response (reply : Reply) :
    lines reply.response.text = reply.untagged.map fun response => response.line.spoken := by
  rw [Reply.response]
  induction reply.untagged with
  | nil => rfl
  | cons response untagged ih =>
      rw [List.flatMap_cons, List.append_assoc, List.singleton_append,
        lines_clean response.line.clean_spoken, ih]
      rfl

end Reading

/-! ### Bodies and their numbers -/

section Pairing

/-- The server sends a body for a number. -/
def Sends (untagged : List Untagged) (uid : Nat) (value : Nstring) : Prop :=
  ∃ message, .fetch message ∈ untagged ∧ .uid uid ∈ message.items ∧ .body value ∈ message.items

/-- Each message that is returned has the body that was sent for its number; bodies that come
as literals are returned, up to the first that does not; and none beyond a body that is left
out. -/
structure FiledRight (uids : List Nat) (untagged : List Untagged)
    (messages : List FetchedMessage) : Prop where
  own : ∀ message ∈ messages, ∃ value, Sends untagged message.uid value ∧
    value.content = some message.raw
  kept : ∀ uid ∈ uids,
    (∀ other ∈ uids, other ≤ uid → ∃ bytes, Sends untagged other (.literal bytes)) →
      ∃ message ∈ messages, message.uid = uid
  short : ∀ uid ∈ uids, ∀ value, Sends untagged uid value →
    (∀ message ∈ messages, message.uid ≠ uid) → ∀ message ∈ messages, message.uid < uid

/-- The number that is read off a line that is taken to announce a body. -/
def counted (line : List Char) : List Nat :=
  if announcesBody line then (uidOf line).toList else []

/-- A response with a body as its only literal, and whose own number is read off it. -/
structure Fetch.Carries (message : Fetch) (uid : Nat) (bytes : Literal) : Prop where
  isUid : .uid uid ∈ message.items
  isBody : .body (.literal bytes) ∈ message.items
  only : message.line.literals = [bytes.val]
  read : uidOf message.line.spoken = some uid

/-- A response that neither has a literal nor is taken to announce one. -/
def Untagged.Silent (response : Untagged) : Prop :=
  counted response.line.spoken = [] ∧ response.line.literals = []

/-- Every literal of the reply is the body of the response that it stands in, no response that
is taken to announce a body comes without one before the last literal, and the bodies that do
not come as literals belong to numbers above all others. -/
structure Orderly (uids : List Nat) (untagged : List Untagged) : Prop where
  inPlace : ∃ front rest, untagged = front ++ rest ∧
    (∀ response ∈ front, response.Silent ∨
      ∃ message uid bytes, response = .fetch message ∧ message.Carries uid bytes) ∧
    ∀ response ∈ rest, response.line.literals = []
  last : ∀ message uid value, .fetch message ∈ untagged → .uid uid ∈ message.items →
    .body value ∈ message.items → uid ∈ uids → (∀ bytes, value ≠ .literal bytes) →
      ∀ other carried bytes, .fetch other ∈ untagged → other.Carries carried bytes → carried < uid

variable {uids : List Nat} {untagged front rest : List Untagged} {reply : Reply}
  {message : Fetch} {uid : Nat} {bytes : Literal} {line other : Line}

/-- Lines are spoken piece by piece. -/
theorem Line.spoken_append : Line.spoken (line ++ other) = line.spoken ++ other.spoken := by
  induction line with
  | nil => rfl
  | cons chunk line ih =>
      cases chunk with
      | text | literal =>
          rw [List.cons_append, Line.spoken, ih, Line.spoken, List.append_assoc]

theorem Line.literals_append :
    Line.literals (line ++ other) = line.literals ++ other.literals := by
  induction line with
  | nil => rfl
  | cons chunk line ih =>
      cases chunk with
      | text text => rw [List.cons_append, Line.literals, ih, Line.literals]
      | literal bytes =>
          rw [List.cons_append, Line.literals, ih, Line.literals]
          rfl

/-- What stands in one item stands in the items that are joined. -/
theorem joined_split {item : Item} {items : List Item} (member : item ∈ items) :
    ∃ before after, joined items = before ++ item.line ++ after := by
  induction items with
  | nil => cases member
  | cons first items ih =>
      cases items with
      | nil =>
          rw [List.mem_singleton.mp member]
          exact ⟨[], [], (List.append_nil _).symm⟩
      | cons second items =>
          rcases List.mem_cons.mp member with rfl | later
          · exact ⟨[], _, rfl⟩
          · obtain ⟨before, after, split⟩ := ih later
            refine ⟨first.line ++ .text ⟨[' '], by decide⟩ :: before, after, ?_⟩
            rw [joined, split]
            · simp
            · exact nofun

/-- An item of a message stands in its line. -/
theorem Fetch.line_split {item : Item} (member : item ∈ message.items) :
    ∃ before after, message.line = before ++ item.line ++ after := by
  obtain ⟨before, after, split⟩ := joined_split member
  refine ⟨message.opening ++ before, after ++ [.text ⟨[')'], by decide⟩], ?_⟩
  rw [Fetch.line, split]
  simp only [List.append_assoc]

/-- The pattern stands somewhere in the text. -/
theorem contains_iff {pattern text : List Char} :
    contains pattern text = true ↔ pattern <:+: text := by
  rw [contains, List.any_eq_true, List.infix_iff_prefix_suffix]
  exact exists_congr fun rest => and_comm.trans
    (and_congr List.isPrefixOf_iff_prefix (List.mem_tails _ _))

/-- A response that has a body is taken to announce one. -/
theorem announcesBody_of_body {value : Nstring} (isBody : .body value ∈ message.items) :
    announcesBody message.line.spoken = true := by
  obtain ⟨before, after, split⟩ := Fetch.line_split isBody
  have body : "BODY[".toList <:+: message.line.spoken := by
    rw [split, Line.spoken_append, Line.spoken_append]
    have here : "BODY[".toList <+: (Item.body value).line.spoken :=
      ⟨"] ".toList ++ Line.spoken value.line, rfl⟩
    exact here.isInfix.trans ((List.suffix_append _ _).isInfix.trans
      (List.prefix_append _ _).isInfix)
  have keyword : " FETCH ".toList <:+: message.line.spoken := by
    rw [Fetch.line, Line.spoken_append]
    refine List.IsInfix.trans ⟨"* ".toList ++ Nat.toDigits 10 message.number, ['('], ?_⟩
      (List.prefix_append _ _).isInfix
    simp [Fetch.opening, Line.spoken]
  exact Bool.and_eq_true_iff.mpr ⟨contains_iff.mpr keyword, contains_iff.mpr body⟩

/-- A body that is a literal is among the literals. -/
theorem literals_of_body (isBody : .body (.literal bytes) ∈ message.items) :
    bytes.val ∈ message.line.literals := by
  obtain ⟨before, after, split⟩ := Fetch.line_split isBody
  rw [split, Line.literals_append, Line.literals_append]
  exact List.mem_append_left _ (List.mem_append_right _ List.mem_cons_self)

/-- A message that carries its body is counted once. -/
theorem Fetch.Carries.counted (carries : message.Carries uid bytes) :
    counted message.line.spoken = [uid] := by
  rw [Imap.counted, if_pos (announcesBody_of_body carries.isBody), carries.read]
  rfl

/-- The messages of a reply, response by response. -/
theorem messages_eq (reply : Reply) :
    reply.response.messages = List.zipWith FetchedMessage.mk
      (reply.untagged.flatMap fun response => counted response.line.spoken)
      (reply.untagged.flatMap fun response => response.line.literals) := by
  have numbers (texts : List (List Char)) :
      (texts.filter announcesBody).filterMap uidOf = texts.flatMap counted := by
    induction texts with
    | nil => rfl
    | cons text texts ih =>
        rw [List.flatMap_cons, ← ih, counted, List.filter_cons]
        split
        · rw [List.filterMap_cons]
          cases uidOf text <;> rfl
        · rfl
  rw [Response.messages, lines_response, numbers, List.flatMap_map]
  rfl

/-- Where as many numbers as literals come from each response, the pairs are made in it. -/
theorem zipWith_balanced (front : List Untagged) (numbers : List Nat)
    (balanced : ∀ response ∈ front,
      (counted response.line.spoken).length = response.line.literals.length) :
    List.zipWith FetchedMessage.mk
        (front.flatMap (fun response => counted response.line.spoken) ++ numbers)
        (front.flatMap fun response => response.line.literals) =
      front.flatMap fun response =>
        List.zipWith FetchedMessage.mk (counted response.line.spoken) response.line.literals := by
  induction front with
  | nil => simp
  | cons response front ih =>
      have later := ih fun other member => balanced other (.tail response member)
      rw [List.flatMap_cons, List.flatMap_cons, List.flatMap_cons, List.append_assoc,
        List.zipWith_append (balanced response List.mem_cons_self), later]

/-- What is returned of an orderly reply: the body of each response that carries one. -/
theorem mem_messages (orderly : Orderly uids reply.untagged) {found : FetchedMessage} :
    found ∈ reply.response.messages ↔
      ∃ message bytes, .fetch message ∈ reply.untagged ∧ message.Carries found.uid bytes ∧
        found.raw = bytes.val := by
  obtain ⟨front, rest, split, inFront, inRest⟩ := orderly.inPlace
  have none : rest.flatMap (fun response => response.line.literals) = [] :=
    List.flatMap_eq_nil_iff.mpr inRest
  have balanced : ∀ response ∈ front,
      (counted response.line.spoken).length = response.line.literals.length := by
    intro response member
    rcases inFront response member with silent | ⟨message, uid, bytes, rfl, carries⟩
    · rw [silent.1, silent.2]
      rfl
    · exact (congrArg List.length carries.counted).trans (congrArg List.length carries.only).symm
  have pairs {message : Fetch} {uid : Nat} {bytes : Literal} (carries : message.Carries uid bytes) :
      List.zipWith FetchedMessage.mk (counted (Untagged.fetch message).line.spoken)
        (Untagged.fetch message).line.literals = [⟨uid, bytes.val⟩] := by
    rw [show (Untagged.fetch message).line = message.line from rfl, carries.counted, carries.only]
    rfl
  rw [messages_eq, split, List.flatMap_append, List.flatMap_append, none, List.append_nil,
    zipWith_balanced front _ balanced, List.mem_flatMap]
  constructor
  · rintro ⟨response, member, isFound⟩
    rcases inFront response member with silent | ⟨message, uid, bytes, rfl, carries⟩
    · rw [silent.1] at isFound
      cases isFound
    · rw [pairs carries] at isFound
      cases List.mem_singleton.mp isFound
      exact ⟨message, bytes, List.mem_append_left _ member, carries, rfl⟩
  · rintro ⟨message, bytes, member, carries, isRaw⟩
    refine ⟨.fetch message, ?_, ?_⟩
    · rcases List.mem_append.mp member with inside | beyond
      · exact inside
      · have alone := (carries.only.symm.trans (inRest _ beyond))
        cases alone
    · rw [pairs carries, ← isRaw]
      exact List.mem_singleton_self _

/-- Where the replies are orderly, each message is filed under its own number. -/
theorem filedRight_messages (orderly : Orderly uids reply.untagged) {messages : List FetchedMessage}
    (same : ∀ found, found ∈ messages ↔ found ∈ reply.response.messages) :
    FiledRight uids reply.untagged messages := by
  have returned {message : Fetch} {uid : Nat} {bytes : Literal}
      (member : .fetch message ∈ reply.untagged) (carries : message.Carries uid bytes) :
      ⟨uid, bytes.val⟩ ∈ messages :=
    (same _).mpr ((mem_messages orderly).mpr ⟨message, bytes, member, carries, rfl⟩)
  have carried {uid : Nat} {bytes : Literal} (sends : Sends reply.untagged uid (.literal bytes)) :
      ∃ found ∈ messages, found.uid = uid := by
    obtain ⟨message, member, isUid, isBody⟩ := sends
    obtain ⟨front, rest, split, inFront, inRest⟩ := orderly.inPlace
    have literal := literals_of_body isBody
    rcases List.mem_append.mp (split ▸ member) with inside | beyond
    · rcases inFront _ inside with silent | ⟨again, other, bytes, isSame, carries⟩
      · rw [show message.line.literals = [] from silent.2] at literal
        cases literal
      · cases isSame
        have one := message.oneUid _ _ isUid carries.isUid
        exact ⟨_, returned member carries, one.symm⟩
    · rw [show message.line.literals = [] from inRest _ beyond] at literal
      cases literal
  refine ⟨fun found isFound => ?_, fun uid member literals => ?_,
    fun uid member value sends leftOut found isFound => ?_⟩
  · obtain ⟨message, bytes, member, carries, isRaw⟩ :=
      (mem_messages orderly).mp ((same _).mp isFound)
    exact ⟨.literal bytes, ⟨message, member, carries.isUid, carries.isBody⟩,
      congrArg some isRaw.symm⟩
  · obtain ⟨bytes, sends⟩ := literals uid member le_rfl
    exact carried sends
  · obtain ⟨other, bytes, isOther, carries, -⟩ := (mem_messages orderly).mp ((same _).mp isFound)
    cases value with
    | literal sent =>
        obtain ⟨again, isAgain, isUid⟩ := carried sends
        exact absurd isUid (leftOut again isAgain)
    | quoted | null =>
        obtain ⟨message, isMessage, isUid, isBody⟩ := sends
        exact orderly.last message uid _ isMessage isUid isBody member nofun other _ bytes isOther
          carries

end Pairing

/-! ### The poll -/

section Polls

/-- What a server says over one poll. -/
structure Conversation where
  greeting : Line
  login : Reply
  select : Reply
  search : Reply
  fetch : Reply
  logout : Bytes

/-- The number of the command that selects the mailbox. -/
def Conversation.selectTag (conversation : Conversation) : Nat :=
  if contains "* PREAUTH".toList conversation.greeting.spoken then 1 else 2

/-- The session that the poll finds. -/
def Conversation.session (conversation : Conversation) : Session :=
  Session.new conversation.greeting.wire <|
    (if contains "* PREAUTH".toList conversation.greeting.spoken then []
      else [conversation.login.wire 1]) ++
    [conversation.select.wire conversation.selectTag,
      conversation.search.wire (conversation.selectTag + 1),
      conversation.fetch.wire (conversation.selectTag + 2), conversation.logout]

/-- The server lets the poll get as far as to fetch some messages. -/
structure Conversation.Reaches (conversation : Conversation) (account : ImapAccount)
    (since : Watermark) (validity : Nat) (uids : List Nat) : Prop where
  greets : contains "* BYE".toList conversation.greeting.spoken = false
  greeting : conversation.greeting.Plain
  login : conversation.login.Plain 1
  select : conversation.select.Plain conversation.selectTag
  search : conversation.search.Plain (conversation.selectTag + 1)
  quotable : ∀ value ∈ [account.username, account.password, account.mailbox],
    value.any isControl = false
  selected : uidValidity conversation.select.response.text = some validity
  wants : wanted (since.sinceUid validity) (searchResults conversation.search.response.text) = uids
  asks : uids ≠ []

/-- The poll ends, and files the bodies that the server sends. -/
def Conversation.Files (conversation : Conversation) (account : ImapAccount) (since : Watermark)
    (validity : Nat) (uids : List Nat) : Prop :=
  ∃ messages, ((poll account since).run conversation.session).1 =
      .ok { uidValidity := validity, messages } ∧
    FiledRight uids conversation.fetch.untagged messages

variable {Answer Next : Type} {session after : Session} {answer : Answer} {reply : Reply}
  {conversation : Conversation} {account : ImapAccount} {since : Watermark} {validity : Nat}
  {uids : List Nat}

theorem bind_ok {talk : Talk Answer} {next : Answer → Talk Next}
    (ran : talk.run session = (.ok answer, after)) :
    (talk >>= next).run session = (next answer).run after := by
  change StateT.bind talk.run (ExceptT.bindCont next) session = (next answer).run after
  rw [StateT.bind, ran]
  rfl

/-- A command reads the reply to it. -/
theorem command_reads {tag : Nat} (plain : reply.Plain (tag + 1)) (sent : List (List Char))
    (rest : List Bytes) (text : List Char) :
    ∃ more, (command text).run
        { tag, sent, pending := [], replies := reply.wire (tag + 1) :: rest } =
      (.ok reply.response, { tag := tag + 1, sent := more, pending := [], replies := rest }) := by
  have read := collect_wire plain []
  rw [List.append_nil] at read
  refine ⟨sent ++ [tagOf (tag + 1) ++ ' ' :: text ++ ['\r', '\n']], ?_⟩
  change (receive (collect (tagOf (tag + 1)))).run _ = _
  simp only [Session.write, receive, ExceptT.run, List.headD_cons, List.tail_cons,
    List.nil_append, read]

theorem receive_reads {read : Bytes → Except ApiError (Answer × Bytes)} {more : Bytes}
    (reads : read session.pending = .ok (answer, more)) :
    (receive read).run session = (.ok answer, { session with pending := more }) := by
  simp only [receive, ExceptT.run, reads]

theorem quoted_ok {value : List Char} (plain : value.any isControl = false) :
    quoted value = .ok ('"' :: (value.flatMap escape ++ ['"'])) := by
  rw [quoted, plain, if_neg Bool.false_ne_true]

theorem run_tryCatch (talk : Talk Answer) (other : ApiError → Talk Answer) :
    (tryCatch talk other).run session = match talk.run session with
      | (.ok answer, after) => (.ok answer, after)
      | (.error failure, after) => (other failure).run after := by
  simp only [tryCatch, tryCatchThe, MonadExceptOf.tryCatch, ExceptT.tryCatch, ExceptT.run,
    ExceptT.mk, bind, StateT.bind]
  cases talk session with
  | mk result after => cases result <;> rfl

theorem tried_ok {talk : Talk Answer} {other : ApiError → Talk PUnit}
    (ran : talk.run session = (.ok answer, after)) :
    (tryCatch (discard talk) other).run session = (.ok ⟨⟩, after) := by
  have discarded : (discard talk).run session = (.ok ⟨⟩, after) := bind_ok ran
  rw [run_tryCatch, discarded]

/-- A command whose failure is let go. -/
theorem tried_anyway (session : Session) (talk : Talk PUnit) :
    ∃ after, (tryCatch talk fun _ => pure ⟨⟩).run session = (.ok ⟨⟩, after) := by
  rw [run_tryCatch]
  cases talk.run session with
  | mk result after =>
      cases result with
      | ok | error => exact ⟨after, rfl⟩

/-- The login goes through. -/
theorem login_reaches (reaches : conversation.Reaches account since validity uids)
    (rest : List Bytes) :
    ∃ sent, (login account).run { pending := [], replies := conversation.login.wire 1 :: rest } =
      (.ok ⟨⟩, { tag := 1, sent, pending := [], replies := rest }) := by
  have username := quoted_ok (reaches.quotable account.username (by simp))
  have password := quoted_ok (reaches.quotable account.password (by simp))
  obtain ⟨sent, logs⟩ := command_reads reaches.login [] rest
    (loginText ('"' :: (account.username.flatMap escape ++ ['"']))
      ('"' :: (account.password.flatMap escape ++ ['"'])))
  refine ⟨sent, ?_⟩
  rw [login, username, password]
  exact tried_ok logs

/-- The mailbox is opened. -/
theorem select_reaches (reaches : conversation.Reaches account since validity uids) {tag : Nat}
    (next : tag + 1 = conversation.selectTag) (sent : List (List Char)) (rest : List Bytes) :
    ∃ more, (select account).run
        { tag, sent, pending := []
          replies := conversation.select.wire conversation.selectTag :: rest } =
      (.ok validity,
        { tag := conversation.selectTag, sent := more, pending := [], replies := rest }) := by
  have mailbox := quoted_ok (reaches.quotable account.mailbox (by simp))
  obtain ⟨more, selects⟩ := command_reads (next ▸ reaches.select) sent rest
    ("SELECT ".toList ++ ('"' :: (account.mailbox.flatMap escape ++ ['"'])))
  have named : (select account).run
      { tag, sent, pending := [], replies := conversation.select.wire (tag + 1) :: rest } =
      (command ("SELECT ".toList ++ ('"' :: (account.mailbox.flatMap escape ++ ['"']))) >>=
        reported account).run
        { tag, sent, pending := [], replies := conversation.select.wire (tag + 1) :: rest } := by
    rw [select, mailbox]
    rfl
  refine ⟨more, ?_⟩
  rw [← next, named, bind_ok selects, reported, reaches.selected]
  rfl

/-- Both, with the greeting before them. -/
theorem openMailbox_reaches (reaches : conversation.Reaches account since validity uids) :
    ∃ sent, (openMailbox account).run conversation.session = (.ok validity,
      { tag := conversation.selectTag, sent, pending := []
        replies := [conversation.search.wire (conversation.selectTag + 1),
          conversation.fetch.wire (conversation.selectTag + 2), conversation.logout] }) := by
  have greeted := readResponse_wire reaches.greeting []
  rw [List.append_nil] at greeted
  have greets : (receive readResponse).run conversation.session = _ := receive_reads greeted
  have session : conversation.session = Session.new conversation.greeting.wire _ := rfl
  rw [openMailbox, bind_ok greets, session]
  simp only [reaches.greets, Bool.false_eq_true, if_false, Session.new]
  by_cases isPreauth : contains "* PREAUTH".toList conversation.greeting.spoken = true
  · have next : 0 + 1 = conversation.selectTag := by
      rw [Conversation.selectTag, if_pos isPreauth]
    rw [if_pos isPreauth, if_pos isPreauth]
    exact select_reaches reaches next [] _
  · have next : 1 + 1 = conversation.selectTag := by
      rw [Conversation.selectTag, if_neg isPreauth]
    obtain ⟨sent, logs⟩ := login_reaches reaches
      [conversation.select.wire conversation.selectTag,
        conversation.search.wire (conversation.selectTag + 1),
        conversation.fetch.wire (conversation.selectTag + 2), conversation.logout]
    rw [if_neg isPreauth, if_neg isPreauth]
    exact (bind_ok logs) ▸ select_reaches reaches next sent _

/-- The messages are asked for and read. -/
theorem fetch_reads {tag : Nat} (plain : reply.Plain (tag + 1)) (asks : uids ≠ [])
    (sent : List (List Char)) (rest : List Bytes) :
    ∃ more, (fetch uids).run
        { tag, sent, pending := [], replies := reply.wire (tag + 1) :: rest } =
      (.ok (reply.response.messages.insertionSort fun first second => first.uid ≤ second.uid),
        { tag := tag + 1, sent := more, pending := [], replies := rest }) := by
  obtain ⟨more, fetches⟩ := command_reads plain sent rest (fetchText uids)
  rw [fetch, if_neg asks]
  exact ⟨more, bind_ok fetches⟩

/-- The poll gets to its end. -/
theorem poll_reaches (reaches : conversation.Reaches account since validity uids)
    (plain : conversation.fetch.Plain (conversation.selectTag + 2)) :
    ((poll account since).run conversation.session).1 =
      .ok { uidValidity := validity
            messages := conversation.fetch.response.messages.insertionSort
              fun first second => first.uid ≤ second.uid } := by
  obtain ⟨sent, opens⟩ := openMailbox_reaches reaches
  obtain ⟨sent, searches⟩ := command_reads reaches.search sent
    [conversation.fetch.wire (conversation.selectTag + 2), conversation.logout]
    (searchText (since.sinceUid validity))
  obtain ⟨sent, fetches⟩ := fetch_reads plain reaches.asks sent [conversation.logout]
  obtain ⟨after, leaves⟩ := tried_anyway _ (discard (command "LOGOUT".toList))
  rw [poll, bind_ok opens, bind_ok searches, reaches.wants, bind_ok fetches, bind_ok leaves]
  rfl

/-- The bodies of an orderly reply are filed under their own numbers. -/
theorem files_of_orderly (reaches : conversation.Reaches account since validity uids)
    (plain : conversation.fetch.Plain (conversation.selectTag + 2))
    (orderly : Orderly uids conversation.fetch.untagged) :
    conversation.Files account since validity uids :=
  ⟨_, poll_reaches reaches plain, filedRight_messages orderly fun _ => List.mem_insertionSort _⟩

def clean (text : String) : CleanText :=
  if clean : Clean text.toList then ⟨text.toList, clean⟩ else ⟨[], nofun⟩

def say (text : String) : Line := [.text (clean text)]

/-- A server with two messages. -/
def quiet : Conversation where
  greeting := say "* OK ready"
  login := ⟨[], clean "LOGIN completed"⟩
  select := ⟨[.other (say "OK [UIDVALIDITY 9] UIDs valid")], clean "SELECT completed"⟩
  search := ⟨[.other (say "SEARCH 101 102")], clean "SEARCH completed"⟩
  fetch := ⟨[], clean "FETCH completed"⟩
  logout := []

def server (fetched : List Untagged) : Conversation :=
  { quiet with fetch := ⟨fetched, clean "FETCH completed"⟩ }

def mailbox : ImapAccount := ⟨"support".toList, "hunter2".toList, "INBOX".toList⟩

theorem quiet_reaches : quiet.Reaches mailbox {} 9 [101, 102] where
  greets := by decide +kernel
  greeting := by decide +kernel
  login := ⟨nofun, by decide +kernel⟩
  select := ⟨List.forall_mem_singleton.mpr (by decide +kernel), by decide +kernel⟩
  search := ⟨List.forall_mem_singleton.mpr (by decide +kernel), by decide +kernel⟩
  quotable := by decide
  selected := by decide +kernel
  wants := by decide +kernel
  asks := nofun

theorem server_reaches (fetched : List Untagged) :
    (server fetched).Reaches mailbox {} 9 [101, 102] :=
  { quiet_reaches with }

def first : Fetch where
  number := 1
  items := [.uid 101, .body (.literal ⟨ascii "first".toList, by decide⟩)]

def seen : Fetch where
  number := 3
  items := [.uid 103, .other (say "FLAGS (\\Seen)")]

def second : Fetch where
  number := 2
  items := [.body (.quoted (clean "second")), .uid 102]

theorem first_carries : first.Carries 101 ⟨ascii "first".toList, by decide⟩ where
  isUid := by simp [first]
  isBody := by simp [first]
  only := rfl
  read := by decide +kernel

theorem orderly_seen : Orderly [101, 102] [.fetch first, .fetch seen, .fetch second] where
  inPlace := by
    refine ⟨[.fetch first, .fetch seen], [.fetch second], rfl, ?_,
      List.forall_mem_singleton.mpr rfl⟩
    refine List.forall_mem_cons.mpr ⟨.inr ⟨first, 101, _, rfl, first_carries⟩, ?_⟩
    exact List.forall_mem_singleton.mpr (.inl ⟨by decide +kernel, rfl⟩)
  last := by
    intro message uid value member isUid isBody _ noLiteral other carried bytes isOther carries
    have isCarried := carries.isUid
    have isLiteral := carries.isBody
    simp only [List.mem_cons, List.not_mem_nil, or_false, Untagged.fetch.injEq] at member isOther
    rcases isOther with rfl | rfl | rfl
    · rcases member with rfl | rfl | rfl
      · simp [first] at isBody
        exact absurd isBody (noLiteral _)
      · simp [seen] at isBody
      · simp [first] at isCarried
        simp [second] at isUid
        omega
    · simp [seen] at isLiteral
    · simp [second] at isLiteral

/-- A literal, a flag of another message, and a quoted string at the end. -/
theorem files_of_orderly_seen :
    (server [.fetch first, .fetch seen, .fetch second]).Files mailbox {} 9 [101, 102] := by
  refine files_of_orderly (server_reaches _) ⟨?_, ?_⟩ orderly_seen
  · change ∀ response ∈ [.fetch first, .fetch seen, .fetch second],
      Line.Plain (Untagged.line response)
    decide +kernel
  · decide +kernel

def missing : Fetch where
  number := 1
  items := [.uid 101, .body .null]

def present : Fetch where
  number := 2
  items := [.uid 102, .body (.literal ⟨ascii "second".toList, by decide⟩)]

/-- A body that is sent as `NIL` takes the bytes of the next one. -/
theorem null_body_shifts :
    ¬ ∀ (conversation : Conversation) account since validity uids,
      conversation.Reaches account since validity uids →
        conversation.Files account since validity uids := by
  intro files
  obtain ⟨messages, polls, filed⟩ :=
    files _ _ _ _ _ (server_reaches [.fetch missing, .fetch present])
  have shifted : ((poll mailbox {}).run (server [.fetch missing, .fetch present]).session).1 =
      .ok { uidValidity := 9, messages := [⟨101, ascii "second".toList⟩] } := by
    decide +kernel
  cases shifted.symm.trans polls
  obtain ⟨value, ⟨message, member, isUid, isBody⟩, isRaw⟩ :=
    filed.own _ (List.mem_singleton_self _)
  simp only [server, List.mem_cons, List.not_mem_nil, or_false, Untagged.fetch.injEq] at member
  rcases member with rfl | rfl
  · simp [missing] at isBody
    subst isBody
    cases isRaw
  · simp [present] at isUid

end Polls

end NookOs.Mail.Imap
