/-
Module: NookOs.Mail.Imap
Purpose: The session that polls a mailbox over IMAP: its commands, how it reads a reply, and
  how it pairs the messages of a reply with their numbers.
Trusted boundary: none
Main exports: Session, Response, readResponse, collect, Response.messages, Session.command, poll
-/
import Mathlib.Data.List.Sort
import NookOs.Lib.Text
import NookOs.Lib.Utf8

namespace NookOs.Mail.Imap

open Lib Lib.Text Lib.Utf8

abbrev Bytes := List UInt8

/-- Why a poll fails. -/
inductive ApiError where
  | badRequest (message : List Char)
  | serviceUnavailable (message : List Char)
  deriving DecidableEq

/-- How many messages one poll takes. -/
def maxMessagesPerPoll : Nat := 50

/-- The mailbox to poll, and how to get in. -/
structure ImapAccount where
  username : List Char
  password : List Char
  mailbox : List Char

/-- A message with its number. -/
structure FetchedMessage where
  uid : Nat
  raw : Bytes
  deriving DecidableEq

/-- What a poll brings back. -/
structure Polled where
  uidValidity : Nat
  messages : List FetchedMessage
  deriving DecidableEq

/-- How far the mailbox has been read. -/
structure Watermark where
  uidValidity : Option Nat := none
  lastUid : Nat := 0

/-! ### What is read off a line -/

section Readers

def contains (pattern text : List Char) : Bool := text.tails.any pattern.isPrefixOf

/-- What follows an optional plus sign. -/
def unsigned : List Char → List Char
  | '+' :: rest => rest
  | text => text

/-- A decimal number of an unsigned type. -/
def parseUnsigned (bits : Nat) (text : List Char) : Option Nat :=
  let digits := unsigned text
  if digits ≠ [] ∧ digits.all Char.isDigit then
    let value := Nat.ofDigitChars 10 digits 0
    if value < 2 ^ bits then some value else none
  else none

/-- The number of bytes that a line says will follow. -/
def trailingLiteralLen (line : Bytes) : Option Nat := do
  let line ← fromUtf8 line
  let (_, inner) ← if line.getLast? = some '}' then rsplitOnce '{' line.dropLast else none
  parseUnsigned 64 (trimEndMatches '+' inner)

/-- What stands between the first two places that the key stands at. -/
def uidValidity (text : List Char) : Option Nat := do
  let (_, after) ← splitOnceOf "UIDVALIDITY".toList text
  let piece := ((splitOnceOf "UIDVALIDITY".toList after).map Prod.fst).getD after
  parseUnsigned 32 ((piece.dropWhile isWhitespace).takeWhile Char.isDigit)

/-- The numbers on the `SEARCH` lines. -/
def searchResults (text : List Char) : List Nat :=
  ((lines text).filterMap fun line => "* SEARCH".toList.isPrefixOf? (trim line)).flatMap
    fun rest => (splitWhitespace rest).filterMap (parseUnsigned 32)

/-- The word without its brackets. -/
def bare (word : List Char) : List Char :=
  (word.dropWhile (!Char.isAlphanum ·)).rdropWhile (!Char.isAlphanum ·)

/-- The number after the first word that is the key. -/
def uidIn : List (List Char) → Option Nat
  | [] => none
  | word :: words =>
      if (bare word).map Char.toLower = "uid".toList then
        words.head?.bind fun value => parseUnsigned 32 (bare value)
      else uidIn words

/-- The number that a line says its message has. -/
def uidOf (line : List Char) : Option Nat := uidIn (splitWhitespace line)

def controlInCredential : List Char :=
  "an IMAP host, mailbox or credential may not contain a control character".toList

/-- A control character. -/
def isControl (char : Char) : Bool :=
  char.toNat < 0x20 || (0x7F ≤ char.toNat && char.toNat ≤ 0x9F)

/-- A character that may stand between quotes. -/
def escape (char : Char) : List Char :=
  if char = '\\' ∨ char = '"' then ['\\', char] else [char]

/-- A value between quotes, unless it has a control character. -/
def quoted (value : List Char) : Except ApiError (List Char) :=
  if value.any isControl then .error (.badRequest controlInCredential)
  else .ok ('"' :: (value.flatMap escape ++ ['"']))

end Readers

/-! ### One reply -/

section Replies

/-- The text of a response without its literals, and these in order. -/
structure Response where
  text : List Char := []
  literals : List Bytes := []
  deriving DecidableEq

def lineFeed : UInt8 := 10

def carriageReturn : UInt8 := 13

/-- The stream ended between two lines. -/
def closed : ApiError :=
  .serviceUnavailable "the IMAP server closed the connection mid-response".toList

/-- The stream ended within a literal. -/
def cutShort : ApiError := .serviceUnavailable "the IMAP connection failed: early eof".toList

/-- One line without its end, and the bytes after it. -/
def readLine (pending : Bytes) : Except ApiError (Bytes × Bytes) :=
  if pending = [] then .error closed
  else
    .ok ((pending.takeWhile (· ≠ lineFeed)).rdropWhile fun byte =>
        byte = lineFeed || byte = carriageReturn,
      (pending.dropWhile (· ≠ lineFeed)).drop 1)

/-- Lines, each with the literal that it announces, until one announces none. -/
def readLines : Nat → Response → Bytes → Except ApiError (Response × Bytes)
  | 0, _, _ => .error closed
  | fuel + 1, out, pending => do
      let (line, pending) ← readLine pending
      let text := out.text ++ fromUtf8Lossy line
      match trailingLiteralLen line with
      | none => .ok ({ out with text }, pending)
      | some len =>
          if pending.length < len then .error cutShort
          else
            readLines fuel { text, literals := out.literals ++ [pending.take len] }
              (pending.drop len)

/-- Each line takes a byte at least. -/
def readResponse (pending : Bytes) : Except ApiError (Response × Bytes) :=
  readLines (pending.length + 1) {} pending

/-- The server says no. -/
def refused (rest : List Char) : ApiError :=
  .serviceUnavailable ("the IMAP server refused a command: ".toList ++ rest)

/-- Responses, up to the one that has the tag. -/
def collectWith : Nat → List Char → Response → Bytes → Except ApiError (Response × Bytes)
  | 0, _, _, _ => .error closed
  | fuel + 1, tag, collected, pending => do
      let (response, pending) ← readResponse pending
      match (tag ++ [' ']).isPrefixOf? response.text with
      | none =>
          collectWith fuel tag
            { text := collected.text ++ response.text ++ ['\n']
              literals := collected.literals ++ response.literals } pending
      | some rest =>
          if (splitWhitespace (trim rest)).head? = some "OK".toList then
            .ok (collected, pending)
          else .error (refused (trim rest))

/-- The responses to one command. -/
def collect (tag : List Char) (pending : Bytes) : Except ApiError (Response × Bytes) :=
  collectWith (pending.length + 1) tag {} pending

/-- A line that is taken to have announced a body. -/
def announcesBody (line : List Char) : Bool :=
  contains " FETCH ".toList line && contains "BODY[".toList line

def Response.messages (response : Response) : List FetchedMessage :=
  List.zipWith FetchedMessage.mk
    (((lines response.text).filter announcesBody).filterMap uidOf) response.literals

end Replies

/-! ### The session -/

section Sessions

/-- The commands that were sent, what the server has sent and nobody has read, and what it will
answer to each command to come. -/
structure Session where
  tag : Nat := 0
  sent : List (List Char) := []
  pending : Bytes
  replies : List Bytes

/-- A connection before its greeting is read. -/
def Session.new (greeting : Bytes) (replies : List Bytes) : Session :=
  { pending := greeting, replies }

/-- A conversation that may fail. -/
abbrev Talk := ExceptT ApiError (StateM Session)

/-- One read of what the server sends. -/
def receive {Answer : Type} (read : Bytes → Except ApiError (Answer × Bytes)) : Talk Answer :=
  fun session =>
    match read session.pending with
    | .ok (answer, pending) => (.ok answer, { session with pending })
    | .error failure => (.error failure, session)

/-- `n0001`. -/
def tagOf (number : Nat) : List Char :=
  'n' :: (List.replicate (4 - (Nat.toDigits 10 number).length) '0' ++ Nat.toDigits 10 number)

/-- The server has the line and answers it. -/
def Session.write (session : Session) (line : List Char) : Session :=
  { session with
    sent := session.sent ++ [line]
    pending := session.pending ++ session.replies.headD []
    replies := session.replies.tail }

/-- A command with the next tag, and the responses to it. -/
def command (text : List Char) : Talk Response := do
  modify fun session => { session with tag := session.tag + 1 }
  let tag := tagOf (← get).tag
  modify (·.write (tag ++ ' ' :: text ++ ['\r', '\n']))
  receive (collect tag)

def closedOnGreeting : ApiError :=
  .serviceUnavailable "the IMAP server closed the connection on greeting".toList

def rejected : ApiError :=
  .badRequest "the IMAP server rejected the poller's credentials".toList

def noUidValidity (mailbox : List Char) : ApiError :=
  .serviceUnavailable ("the IMAP server reported no UIDVALIDITY for ".toList ++ mailbox)

def loginText (username password : List Char) : List Char :=
  "LOGIN ".toList ++ username ++ ' ' :: password

/-- The login, whose refusal is the account's fault. -/
def login (account : ImapAccount) : Talk PUnit := do
  let username ← quoted account.username
  let password ← quoted account.password
  try discard (command (loginText username password))
  catch _ => throw rejected

/-- Where the search starts: nowhere in a namespace that is not the one of the watermark. -/
def Watermark.sinceUid (since : Watermark) (uidValidity : Nat) : Nat :=
  if since.uidValidity = some uidValidity then since.lastUid else 0

/-- The search for what is new. -/
def searchText (sinceUid : Nat) : List Char :=
  "UID SEARCH UID ".toList ++ Nat.toDigits 10 (min (sinceUid + 1) (2 ^ 32 - 1)) ++ ":*".toList

/-- The messages to fetch, of those that a search found. -/
def wanted (sinceUid : Nat) (found : List Nat) : List Nat :=
  ((found.filter (sinceUid < ·)).insertionSort (· ≤ ·)).take maxMessagesPerPoll

/-- The fetch of some messages. -/
def fetchText (uids : List Nat) : List Char :=
  "UID FETCH ".toList ++ [','].intercalate (uids.map (Nat.toDigits 10)) ++
    " (BODY.PEEK[])".toList

/-- The messages that were asked for, the oldest first. -/
def fetch (uids : List Nat) : Talk (List FetchedMessage) := do
  if uids = [] then return []
  let fetched ← command (fetchText uids)
  return fetched.messages.insertionSort fun first second => first.uid ≤ second.uid

/-- The validity that the server reports of the mailbox. -/
def reported (account : ImapAccount) (selected : Response) : Talk Nat :=
  match uidValidity selected.text with
  | some uidValidity => return uidValidity
  | none => throw (noUidValidity account.mailbox)

/-- The mailbox is selected. -/
def select (account : ImapAccount) : Talk Nat := do
  let mailbox ← quoted account.mailbox
  let selected ← command ("SELECT ".toList ++ mailbox)
  reported account selected

/-- The greeting, the login where it is wanted, and the mailbox. -/
def openMailbox (account : ImapAccount) : Talk Nat := do
  let greeting ← receive readResponse
  if contains "* BYE".toList greeting.text then throw closedOnGreeting
  unless contains "* PREAUTH".toList greeting.text do login account
  select account

/-- One poll of a mailbox. -/
def poll (account : ImapAccount) (since : Watermark) : Talk Polled := do
  let uidValidity ← openMailbox account
  let sinceUid := since.sinceUid uidValidity
  let found ← command (searchText sinceUid)
  let messages ← fetch (wanted sinceUid (searchResults found.text))
  try discard (command "LOGOUT".toList)
  catch _ => pure ()
  return { uidValidity, messages }

end Sessions

end NookOs.Mail.Imap
