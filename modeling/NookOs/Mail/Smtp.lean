/-
Module: NookOs.Mail.Smtp
Purpose: The session of the direct SMTP receiver, with all that a peer can say to it, and what
  has to come before a message that it hands on.
Trusted boundary: the credential's tags, base64 and the receiving pipeline are parameters
Main exports: Peer, Service, Session, perform, connection, Accounted, handed_accounted
-/
import NookOs.Lib.Fallible
import NookOs.Lib.Talk
import NookOs.Lib.Text
import NookOs.Lib.Utf8

namespace NookOs.Mail.Smtp

open Lib Lib.Text Lib.Utf8

abbrev Bytes := List UInt8

/-- The longest command line. -/
def maxCommandBytes : Nat := 2048

/-- How many recipients a transaction takes. -/
def maxRecipients : Nat := 16

/-- How many messages a connection takes. -/
def maxTransactions : Nat := 16

/-- How many complaints a connection survives. -/
def maxBadCommands : Nat := 8

/-- Why a connection breaks off. -/
inductive IoError where
  | disconnected
  | lineTooLong
  | timedOut
  deriving DecidableEq

/-! ### What is read off the stream -/

section Reading

/-- What the peer sends, in the pieces that the reads return. After them it closes the
connection or falls silent. -/
structure Peer where
  pieces : List Bytes
  closes : Bool

def lineFeed : UInt8 := 10

def carriageReturn : UInt8 := 13

def fullStop : UInt8 := 46

/-- A line with its end, or what stands before the end of the stream. The length is looked at
where a piece ends without the line. -/
def readLineOf (limit : Nat) (closes : Bool) :
    Bytes → List Bytes → Except IoError (Option Bytes × Peer)
  | out, [] =>
      if closes then .ok (if out = [] then none else some out, ⟨[], closes⟩)
      else .error .timedOut
  | out, piece :: pieces =>
      if lineFeed ∈ piece then
        .ok (some (out ++ piece.takeWhile (· ≠ lineFeed) ++ [lineFeed]),
          ⟨(piece.dropWhile (· ≠ lineFeed)).drop 1 :: pieces, closes⟩)
      else if limit < (out ++ piece).length then .error .lineTooLong
      else readLineOf limit closes (out ++ piece) pieces

/-- The next line, or nothing at the end of the stream. -/
def readLine (limit : Nat) (peer : Peer) : Except IoError (Option Bytes × Peer) :=
  readLineOf limit peer.closes [] peer.pieces

/-- The line without its end. -/
def lineBody (line : Bytes) : Bytes :=
  if [carriageReturn, lineFeed].isSuffixOf line then line.dropLast.dropLast
  else if [lineFeed].isSuffixOf line then line.dropLast
  else line

/-- A line that the sender began with a dot has a second one before it. -/
def unstuffed (body : Bytes) : Bytes :=
  if body.head? = some fullStop then body.tail else body

/-- The lines up to a dot, and whether they were too many. -/
def readMessageWith (maxBytes : Nat) :
    Nat → Bytes → Bool → Peer → Except IoError (Option Bytes × Peer)
  | 0, _, _, _ => .error .disconnected
  | fuel + 1, out, tooLarge, peer => do
      let (line, peer) ← readLine (max maxBytes maxCommandBytes) peer
      match line with
      | none => .error .disconnected
      | some line =>
          let body := lineBody line
          if body = [fullStop] then .ok (if tooLarge then none else some out, peer)
          else
            let body := unstuffed body
            if maxBytes < out.length + body.length + 2 then
              readMessageWith maxBytes fuel [] true peer
            else
              readMessageWith maxBytes fuel
                (if tooLarge then out else out ++ body ++ [carriageReturn, lineFeed]) tooLarge peer

/-- Each line takes a byte at least. -/
def readMessage (maxBytes : Nat) (peer : Peer) : Except IoError (Option Bytes × Peer) :=
  readMessageWith maxBytes (peer.pieces.flatten.length + 1) [] false peer

end Reading

/-! ### The session -/

section Sessions

/-- What `MAIL` and `RCPT` have said so far. -/
structure Transaction where
  sender : Option (List Char) := none
  recipients : List (List Char) := []

/-- Where a message came from, and for whom. -/
structure SmtpSource where
  envelopeFrom : List Char
  envelopeTo : List (List Char)
  authservId : Option (List Char)

/-- What has become of a message that was handed on. -/
inductive Disposition where
  | filed
  | dropped

/-- Why a message could not be taken. -/
inductive ApiError where
  | badRequest (message : List Char)
  | other

/-- What came and went: the lines that were read as commands, and as answers to a challenge,
the lines that were said, the credentials that were compared, and the messages handed on. -/
inductive Entry where
  | heard (line : List Char)
  | answered (line : List Char)
  | said (line : List Char)
  | checked (username password : List Char)
  | handed (source : SmtpSource) (raw : Bytes)

/-- The newest entry of the log is the first. -/
structure Session where
  peer : Peer
  log : List Entry := []
  greeted : Bool := false
  authenticated : Bool := false
  tx : Transaction := {}
  delivered : Nat := 0
  bad : Nat := 0

/-- A user name with its password. -/
structure Credential where
  username : List Char
  password : List Char

/-- What the receiver runs with. What becomes of a message may depend on everything before it. -/
structure Service where
  maxBytes : Nat
  authservId : Option (List Char)
  credential : Credential
  tag : List Char → Bytes
  decodeB64 : List Char → Option Bytes
  receive : List Entry → SmtpSource → Bytes → Except ApiError Disposition

/-- Two secrets are one when their tags are. -/
def secretEq (tag : List Char → Bytes) (expected presented : List Char) : Bool :=
  tag presented = tag expected

/-- The credentials are the receiver's own. -/
def Service.accepts (service : Service) (username password : List Char) : Bool :=
  secretEq service.tag service.credential.username username &&
    secretEq service.tag service.credential.password password

/-- A conversation that may break off. -/
abbrev Talk := Lib.Talk IoError Session

/-- One read from the peer. -/
def receive {Answer : Type} (read : Peer → Except IoError (Answer × Peer)) : Talk Answer :=
  fun session =>
    match read session.peer with
    | .ok (answer, peer) => (.ok answer, { session with peer })
    | .error failure => (.error failure, session)

/-- The session with one entry more. -/
def Session.note (session : Session) (entry : Entry) : Session :=
  { session with log := entry :: session.log }

def note (entry : Entry) : Talk PUnit := modify (·.note entry)

/-- One line of reply. -/
def say (line : List Char) : Talk PUnit := note (.said line)

/-- A line of the peer, which the log takes down. -/
def readCommand (heard : List Char → Entry) : Talk (Option (List Char)) := do
  match ← receive (readLine maxCommandBytes) with
  | none => return none
  | some line =>
      note (heard (fromUtf8Lossy line))
      return some (fromUtf8Lossy line)

/-- The first word in capitals, and the rest. -/
def firstWord (line : List Char) : List Char × List Char :=
  match splitOnce ' ' line with
  | some (word, rest) => (word.map Char.toUpper, trim rest)
  | none => (line.map Char.toUpper, [])

/-- The line's verb and its argument. -/
def parsed (line : List Char) : List Char × List Char :=
  firstWord (line.rdropWhile fun char => char = '\r' || char = '\n')

/-- The verbs that the receiver knows. -/
inductive Verb where
  | quit | noop | rset | vrfy | helo | ehlo | startTls | auth | mail | rcpt | data | other
  deriving DecidableEq

/-- The verbs as they are written. -/
def verbs : List (List Char × Verb) :=
  [("QUIT".toList, .quit), ("NOOP".toList, .noop), ("RSET".toList, .rset),
    ("VRFY".toList, .vrfy), ("EXPN".toList, .vrfy), ("HELO".toList, .helo),
    ("EHLO".toList, .ehlo), ("STARTTLS".toList, .startTls), ("AUTH".toList, .auth),
    ("MAIL".toList, .mail), ("RCPT".toList, .rcpt), ("DATA".toList, .data)]

/-- The verb of a line. -/
def verbOf (line : List Char) : Verb := (verbs.lookup (parsed line).1).getD .other

/-- `FROM:<a@b> SIZE=42` is `a@b`. -/
def addressOf (keyword rest : List Char) : Option (List Char) := do
  let (name, value) ← splitOnce ':' rest
  if (trim name).map Char.toUpper ≠ keyword then none
  else
    let value := trim value
    match splitOnce '>' value with
    | some (head, _) => do
        let address ← ['<'].isPrefixOf? (head.dropWhile isWhitespace)
        return trim address
    | none => return trim ((splitWhitespace value).headD [])

/-- A prompt, and the answer to it. -/
def ask (prompt : List Char) : Talk (Option (List Char)) := do
  say prompt
  readCommand .answered

/-- What the peer was asked for, or has given already. -/
def given (initial prompt : List Char) : Talk (Option (List Char)) :=
  if initial = [] then return (← ask prompt).map trim else return some initial

/-- The presented credentials against the receiver's own. -/
def compare (service : Service) (username password : Bytes) : Talk (Option Bool) :=
  match fromUtf8 username, fromUtf8 password with
  | some username, some password => do
      note (.checked username password)
      return some (service.accepts username password)
  | _, _ => return none

/-- User name and password in one answer. -/
def authenticatePlain (service : Service) (initial : List Char) : Talk (Option Bool) := do
  match ← given initial "334 ".toList with
  | none => return none
  | some blob =>
      match (service.decodeB64 (trim blob)).map (·.splitOn 0) with
      | some [_, username, password] => compare service username password
      | _ => return none

/-- The user name and the password, each by a prompt. -/
def authenticateLogin (service : Service) (initial : List Char) : Talk (Option Bool) := do
  match ← given initial "334 VXNlcm5hbWU6".toList with
  | none => return none
  | some username =>
      match ← ask "334 UGFzc3dvcmQ6".toList with
      | none => return none
      | some password =>
          match service.decodeB64 (trim username), service.decodeB64 (trim (trim password)) with
          | some username, some password => compare service username password
          | _, _ => return none

/-- The mechanism that the peer has chosen. -/
def authenticate (service : Service) (rest : List Char) : Talk (Option Bool) :=
  let (mechanism, initial) := firstWord rest
  if mechanism = "PLAIN".toList then authenticatePlain service initial
  else if mechanism = "LOGIN".toList then authenticateLogin service initial
  else return none

/-- A complaint that counts against the connection. -/
def complain (line : List Char) : Talk PUnit := do
  modify fun session => { session with bad := session.bad + 1 }
  say line

/-- `AUTH`, which asks for a greeting first and runs once. -/
def auth (service : Service) (rest : List Char) : Talk PUnit := do
  let session ← get
  if !session.greeted then say "503 5.5.1 EHLO first".toList
  else if session.authenticated then say "503 5.5.1 Already authenticated".toList
  else
    match ← authenticate service rest with
    | some true =>
        modify fun session => { session with authenticated := true }
        say "235 2.7.0 Authentication successful".toList
    | some false => complain "535 5.7.8 Authentication credentials invalid".toList
    | none => complain "501 5.5.4 Cannot decode AUTH exchange".toList

def authenticationRequired : List Char := "530 5.7.0 Authentication required".toList

/-- `MAIL` of a peer that has greeted and authenticated. -/
def mail (rest : List Char) : Talk PUnit := do
  let session ← get
  if !session.authenticated then say authenticationRequired
  else if session.tx.sender.isSome then say "503 5.5.1 Nested MAIL command".toList
  else
    match addressOf "FROM".toList rest with
    | some sender =>
        modify fun session => { session with tx := { sender := some sender } }
        say "250 2.1.0 Ok".toList
    | none => complain "501 5.5.4 Syntax: MAIL FROM:<address>".toList

/-- `RCPT`, within the transaction that `MAIL` began. -/
def rcpt (rest : List Char) : Talk PUnit := do
  let session ← get
  if !session.authenticated then say authenticationRequired
  else if session.tx.sender.isNone then say "503 5.5.1 MAIL first".toList
  else if maxRecipients ≤ session.tx.recipients.length then
    say "452 4.5.3 Too many recipients".toList
  else
    match addressOf "TO".toList rest with
    | some recipient =>
        modify fun session =>
          { session with
            tx := { session.tx with recipients := session.tx.recipients ++ [recipient] } }
        say "250 2.1.5 Ok".toList
    | none => complain "501 5.5.4 Syntax: RCPT TO:<address>".toList

/-- The text without its line breaks. -/
def oneLine (text : List Char) : List Char := [' '].intercalate (splitWhitespace text)

/-- The reply that tells the peer what has become of its message. -/
def replyTo : Except ApiError Disposition → List Char
  | .ok .filed => "250 2.0.0 Ok".toList
  | .ok .dropped => "250 2.0.0 Ok".toList
  | .error (.badRequest message) => "550 5.6.0 ".toList ++ oneLine message
  | .error .other =>
      "451 4.3.0 Cannot file this message right now, try again later".toList

/-- The message is handed on. -/
def deliver (service : Service) (tx : Transaction) (raw : Bytes) : Talk (List Char) := do
  let source := ⟨tx.sender.getD [], tx.recipients, service.authservId⟩
  let session ← get
  note (.handed source raw)
  return replyTo (service.receive session.log source raw)

/-- The verdict on a message, and whether there may be another one. -/
def settle (reply : List Char) : Talk Bool := do
  say reply
  modify fun session => { session with delivered := session.delivered + 1 }
  let session ← get
  if maxTransactions ≤ session.delivered then
    say "421 4.7.0 Too many messages on one connection".toList
    return false
  else return true

/-- The message after `DATA`, unless it is too large. -/
def takeMessage (service : Service) : Talk Bool := do
  say "354 End data with <CR><LF>.<CR><LF>".toList
  let read ← observing (receive (readMessage service.maxBytes))
  let tx := (← get).tx
  modify fun session => { session with tx := {} }
  match read with
  | .ok (some raw) => settle (← deliver service tx raw)
  | .ok none => settle "552 5.3.4 Message too large".toList
  | .error .timedOut => do
      say "421 4.4.2 Timed out reading the message".toList
      return false
  | .error failure => throw failure

/-- `DATA`, where there is somebody to deliver to. -/
def data (service : Service) : Talk Bool := do
  let session ← get
  if !session.authenticated then
    say authenticationRequired
    return true
  else if session.tx.sender.isNone ∨ session.tx.recipients = [] then
    say "503 5.5.1 MAIL and RCPT first".toList
    return true
  else takeMessage service

def serverName : List Char := "nook".toList

/-- The peer names itself, and starts anew. -/
def greet : Talk PUnit := modify fun session => { session with greeted := true, tx := {} }

/-- One command, and whether the session goes on. -/
def perform (service : Service) (rest : List Char) : Verb → Talk Bool
  | .quit => do
      say "221 2.0.0 Bye".toList
      return false
  | .noop => do
      say "250 2.0.0 Ok".toList
      return true
  | .rset => do
      modify fun session => { session with tx := {} }
      say "250 2.0.0 Ok".toList
      return true
  | .vrfy => do
      say "252 2.5.2 Cannot verify".toList
      return true
  | .helo => do
      greet
      say ("250 ".toList ++ serverName)
      return true
  | .ehlo => do
      greet
      say ("250-".toList ++ serverName)
      say ("250-SIZE ".toList ++ Nat.toDigits 10 service.maxBytes)
      say "250-8BITMIME".toList
      say "250-SMTPUTF8".toList
      say "250 AUTH PLAIN LOGIN".toList
      return true
  | .startTls => do
      say "502 5.5.1 STARTTLS not available — this receiver uses implicit TLS".toList
      return true
  | .auth => do
      auth service rest
      return true
  | .mail => do
      mail rest
      return true
  | .rcpt => do
      rcpt rest
      return true
  | .data => data service
  | .other => do
      complain "500 5.5.2 Command not recognized".toList
      return true

/-- The next command of the peer. -/
def turn (service : Service) : Talk Bool := do
  match ← readCommand .heard with
  | none => return false
  | some line =>
      if ← perform service (parsed line).2 (verbOf line) then
        if maxBadCommands ≤ (← get).bad then
          say "421 4.7.0 Too many errors".toList
          return false
        else return true
      else return false

/-- The deadline passes after that many commands. -/
def session (service : Service) : Nat → Talk PUnit
  | 0 => say "421 4.4.2 Session too long".toList
  | turns + 1 => do
      if ← turn service then session service turns

/-- All of a connection. -/
def connection (service : Service) (turns : Nat) (peer : Peer) : Except IoError PUnit × Session :=
  (do
    say ("220 ".toList ++ serverName ++ " NookOS inbound SMTP".toList)
    session service turns : Talk PUnit).run { peer }

end Sessions

/-! ### What has come before a message that is handed on -/

section Accounts

/-- A message was handed on. -/
def Entry.isHanded : Entry → Bool
  | .handed _ _ => true
  | _ => false

/-- Credentials that were compared and are not the receiver's. -/
def Entry.isWrong (service : Service) : Entry → Bool
  | .checked username password => !service.accepts username password
  | _ => false

/-- The recipient that the entry names. -/
def Entry.recipient : Entry → Option (List Char)
  | .heard line => if verbOf line = .rcpt then addressOf "TO".toList (parsed line).2 else none
  | _ => none

/-- A reply that has the peer send a message. -/
def startsMail (line : List Char) : Bool := "354".toList.isPrefixOf line

/-- The entry ends a transaction, which a message does whatever becomes of it. -/
def Entry.ends : Entry → Bool
  | .heard line => verbOf line = .rset || verbOf line = .helo || verbOf line = .ehlo
  | .said line => startsMail line
  | .handed _ _ => true
  | _ => false

/-- The peer has greeted. -/
def Greeted (log : List Entry) : Prop :=
  ∃ line, .heard line ∈ log ∧ (verbOf line = .helo ∨ verbOf line = .ehlo)

/-- Accepted credentials, presented by a peer that had greeted before. -/
def Authenticated (service : Service) (log : List Entry) : Prop :=
  ∃ since username password before, log = since ++ .checked username password :: before ∧
    service.accepts username password = true ∧ Greeted before

/-- The transaction that is open: `MAIL` by a peer that had greeted and then authenticated, and
the recipients that were named since. -/
def Open (service : Service) (log : List Entry) (sender : List Char)
    (recipients : List (List Char)) : Prop :=
  ∃ since line before, log = since ++ .heard line :: before ∧ verbOf line = .mail ∧
    addressOf "FROM".toList (parsed line).2 = some sender ∧
    Authenticated service before ∧ (∀ entry ∈ since, entry.ends = false) ∧
    recipients = (since.reverse.filterMap Entry.recipient).take maxRecipients

/-- A message that is handed on is that of the `DATA` just before, in the open transaction. -/
structure Accounted (service : Service) (before : List Entry) (source : SmtpSource)
    (raw : Bytes) : Prop where
  isOpen : ∃ prompt line earlier, before = .said prompt :: .heard line :: earlier ∧
    startsMail prompt = true ∧ verbOf line = .data ∧
    Open service earlier source.envelopeFrom source.envelopeTo
  named : source.envelopeTo ≠ []
  few : source.envelopeTo.length ≤ maxRecipients
  authserv : source.authservId = service.authservId
  fits : raw.length ≤ service.maxBytes

/-- What holds of a session between two commands. -/
structure Sound (service : Service) (session : Session) : Prop where
  accounted : ∀ after source raw before, session.log = after ++ .handed source raw :: before →
    Accounted service before source raw
  greeted : session.greeted = true → Greeted session.log
  authenticated : session.authenticated = true → Authenticated service session.log
  isOpen : ∀ sender, session.tx.sender = some sender →
    session.authenticated = true ∧ Open service session.log sender session.tx.recipients
  handed : session.log.countP Entry.isHanded ≤ session.delivered
  wrong : session.log.countP (Entry.isWrong service) ≤ session.bad

/-- What a turn does to the two budgets. -/
structure Spends (service : Service) (session : Session) (goesOn : Bool) (after : Session) :
    Prop where
  sound : Sound service after
  delivered : after.delivered ≤ session.delivered + 1
  bad : after.bad ≤ session.bad + 1
  room : goesOn = true → session.delivered < maxTransactions → after.delivered < maxTransactions

variable {service : Service} {before after : Session} {log : List Entry} {entry : Entry}
  {sender : List Char} {recipients : List (List Char)}

/-- An entry that leaves the transaction and the budgets as they are. -/
structure Entry.Quiet (service : Service) (entry : Entry) : Prop where
  goesOn : entry.ends = false
  nobody : entry.recipient = none
  right : entry.isWrong service = false

/-- What was said once stays said. -/
theorem Greeted.cons (greeted : Greeted log) (entry : Entry) : Greeted (entry :: log) := by
  obtain ⟨line, member, greets⟩ := greeted
  exact ⟨line, .tail entry member, greets⟩

theorem Authenticated.cons (authenticated : Authenticated service log) (entry : Entry) :
    Authenticated service (entry :: log) := by
  obtain ⟨since, username, password, before, rfl, accepts, greeted⟩ := authenticated
  exact ⟨entry :: since, username, password, before, rfl, accepts, greeted⟩

/-- An entry that does not end the transaction names a recipient more, or none. -/
theorem Open.cons (isOpen : Open service log sender recipients) (goesOn : entry.ends = false) :
    Open service (entry :: log) sender
      (if recipients.length < maxRecipients then recipients ++ entry.recipient.toList
        else recipients) := by
  obtain ⟨since, line, before, rfl, isMail, isSender, authenticated, quiet, rfl⟩ := isOpen
  refine ⟨entry :: since, line, before, rfl, isMail, isSender, authenticated,
    List.forall_mem_cons.mpr ⟨goesOn, quiet⟩, ?_⟩
  have appended : (entry :: since).reverse.filterMap Entry.recipient =
      since.reverse.filterMap Entry.recipient ++ entry.recipient.toList := by
    rw [List.reverse_cons, List.filterMap_append]
    cases named : entry.recipient with
    | none | some => simp [named]
  rw [appended, List.length_take]
  by_cases room : (since.reverse.filterMap Entry.recipient).length < maxRecipients
  · have short : (since.reverse.filterMap Entry.recipient ++ entry.recipient.toList).length ≤
        maxRecipients := by
      have atMost : entry.recipient.toList.length ≤ 1 := by
        cases entry.recipient with
        | none | some => simp
      rw [List.length_append]
      omega
    rw [if_pos (by omega), List.take_of_length_le (Nat.le_of_lt room),
      List.take_of_length_le short]
  · rw [if_neg (by omega), List.take_append_of_le_length (by omega)]

/-- An entry that neither ends the transaction nor names a recipient. -/
theorem Open.silent (isOpen : Open service log sender recipients) (goesOn : entry.ends = false)
    (none : entry.recipient = none) : Open service (entry :: log) sender recipients := by
  have opened := isOpen.cons goesOn
  rwa [none, Option.toList_none, List.append_nil, ite_self] at opened

/-- What is handed on later does not touch the messages before it. -/
theorem accounted_cons (accounted : ∀ after source raw before,
      log = after ++ .handed source raw :: before → Accounted service before source raw)
    (new : ∀ source raw, entry = .handed source raw → Accounted service log source raw) :
    ∀ after source raw before, entry :: log = after ++ .handed source raw :: before →
      Accounted service before source raw := by
  intro after source raw before split
  cases after with
  | nil =>
      cases split
      exact new source raw rfl
  | cons first after =>
      cases split
      exact accounted after source raw before rfl

variable {line : List Char}

/-- A reply that does not ask for a message. -/
theorem quiet_said (service : Service) (aside : startsMail line = false) :
    Entry.Quiet service (.said line) :=
  ⟨aside, rfl, rfl⟩

theorem isHanded_of_goesOn (goesOn : entry.ends = false) : entry.isHanded = false := by
  cases entry with
  | handed => cases goesOn
  | heard | answered | said | checked => rfl

/-- The peer and the transaction become others, and the log has an entry more. -/
theorem Sound.enter (sound : Sound service before) (kept : entry.isHanded = false)
    (right : entry.isWrong service = false) (peer : Peer) (tx : Transaction)
    (isOpen : ∀ sender, tx.sender = some sender →
      before.authenticated = true ∧ Open service (entry :: before.log) sender tx.recipients) :
    Sound service { before with log := entry :: before.log, peer, tx } where
  accounted := accounted_cons sound.accounted fun source raw same => by
    subst same
    cases kept
  greeted greeted := (sound.greeted greeted).cons entry
  authenticated authenticated := (sound.authenticated authenticated).cons entry
  isOpen := isOpen
  handed := by
    change (entry :: before.log).countP _ ≤ _
    rw [List.countP_cons_of_neg (by simp [kept])]
    exact sound.handed
  wrong := by
    change (entry :: before.log).countP _ ≤ _
    rw [List.countP_cons_of_neg (by simp [right])]
    exact sound.wrong

theorem Entry.Quiet.enter (quiet : Entry.Quiet service entry) (sound : Sound service before)
    (peer : Peer) : Sound service { before with log := entry :: before.log, peer } :=
  sound.enter (isHanded_of_goesOn quiet.goesOn) quiet.right peer before.tx fun sender isSender =>
    ⟨(sound.isOpen sender isSender).1,
      (sound.isOpen sender isSender).2.silent quiet.goesOn quiet.nobody⟩

/-- A reply keeps the session sound. -/
theorem Sound.spoke (sound : Sound service before) (line : List Char)
    (aside : startsMail line = false) : Sound service (before.note (.said line)) :=
  (quiet_said service aside).enter sound before.peer

theorem Sound.worse (sound : Sound service before) :
    Sound service { before with bad := before.bad + 1 } :=
  { sound with wrong := Nat.le_succ_of_le sound.wrong }

/-! One command at a time. -/

/-- How a read ends: with what it read, or in an error of the peer. -/
theorem ends_receive {Answer : Type} {read : Peer → Except IoError (Answer × Peer)}
    {done : Answer → Session → Prop} {failed : IoError → Session → Prop}
    (answers : ∀ answer peer, read before.peer = .ok (answer, peer) →
      done answer { before with peer })
    (breaks : ∀ failure, read before.peer = .error failure → failed failure before) :
    Talk.Ends (receive read) before done failed := by
  cases reads : read before.peer with
  | error failure =>
      simpa only [Talk.Ends, receive, ExceptT.run, reads] using breaks failure reads
  | ok answered =>
      obtain ⟨answer, peer⟩ := answered
      simpa only [Talk.Ends, receive, ExceptT.run, reads] using answers answer peer reads

/-- Nothing has changed but what was read and said. -/
structure Idle (service : Service) (before after : Session) : Prop where
  sound : Sound service after
  greeted : after.greeted = before.greeted
  delivered : after.delivered = before.delivered
  bad : after.bad = before.bad

/-- What an attempt to authenticate comes to. Credentials that are wrong are still to be paid
for. -/
structure Tried (service : Service) (before : Session) (verdict : Option Bool) (after : Session) :
    Prop where
  sound : verdict ≠ some false → Sound service after
  wrong : Sound service { after with bad := after.bad + 1 }
  right : verdict = some true → Authenticated service after.log
  greeted : after.greeted = before.greeted
  delivered : after.delivered = before.delivered
  bad : after.bad = before.bad

theorem Tried.since {middle : Session} {verdict : Option Bool}
    (tried : Tried service middle verdict after) (idle : Idle service before middle) :
    Tried service before verdict after where
  sound := tried.sound
  wrong := tried.wrong
  right := tried.right
  greeted := tried.greeted.trans idle.greeted
  delivered := tried.delivered.trans idle.delivered
  bad := tried.bad.trans idle.bad

theorem Idle.since {middle : Session} (late : Idle service middle after)
    (early : Idle service before middle) : Idle service before after where
  sound := late.sound
  greeted := late.greeted.trans early.greeted
  delivered := late.delivered.trans early.delivered
  bad := late.bad.trans early.bad

/-- Credentials are compared, and the log takes down how. -/
theorem Sound.checks (sound : Sound service before) (greets : before.greeted = true)
    (username password : List Char) :
    Tried service before (some (service.accepts username password))
      (before.note (.checked username password)) := by
  by_cases accepts : service.accepts username password = true
  · have quiet : Entry.Quiet service (.checked username password) :=
      ⟨rfl, rfl, by simp [Entry.isWrong, accepts]⟩
    have entered := quiet.enter sound before.peer
    exact ⟨fun _ => entered, entered.worse,
      fun _ => ⟨[], username, password, before.log, rfl, accepts, sound.greeted greets⟩,
      rfl, rfl, rfl⟩
  · refine ⟨fun isRight => absurd ?_ isRight, ?_, fun isRight => absurd ?_ accepts, rfl, rfl, rfl⟩
    · exact congrArg some (Bool.eq_false_iff.mpr accepts)
    · exact {
        accounted := accounted_cons sound.accounted nofun
        greeted := fun greeted => (sound.greeted greeted).cons _
        authenticated := fun authenticated => (sound.authenticated authenticated).cons _
        isOpen := fun sender isSender =>
          ⟨(sound.isOpen sender isSender).1, (sound.isOpen sender isSender).2.silent rfl rfl⟩
        handed := sound.handed
        wrong := by
          change (Entry.checked username password :: before.log).countP _ ≤ before.bad + 1
          rw [List.countP_cons]
          split
          · exact Nat.succ_le_succ sound.wrong
          · exact Nat.le_succ_of_le sound.wrong }
    · exact Option.some.inj isRight

theorem Sound.spends {goesOn : Bool} (sound : Sound service after)
    (delivered : after.delivered = before.delivered) (bad : after.bad ≤ before.bad + 1) :
    Spends service before goesOn after where
  sound := sound
  delivered := by omega
  bad := bad
  room _ room := by omega

def Session.hears (session : Session) (line : List Char) (peer : Peer) : Session :=
  { session with log := .heard line :: session.log, peer }

@[simp]
theorem hears_authenticated (session : Session) (line : List Char) (peer : Peer) :
    (session.hears line peer).authenticated = session.authenticated := rfl

@[simp]
theorem hears_tx (session : Session) (line : List Char) (peer : Peer) :
    (session.hears line peer).tx = session.tx := rfl

/-- A message that is accounted for is handed on, and its transaction is over. -/
theorem Sound.hands (sound : Sound service before) {source : SmtpSource} {raw : Bytes} (peer : Peer)
    (closed : before.tx.sender = none) (accounted : Accounted service before.log source raw) :
    Sound service
      { before with log := .handed source raw :: before.log, peer
                    delivered := before.delivered + 1 } where
  accounted := accounted_cons sound.accounted fun _ _ same => by
    cases same
    exact accounted
  greeted greeted := (sound.greeted greeted).cons _
  authenticated authenticated := (sound.authenticated authenticated).cons _
  isOpen sender isSender := by
    rw [closed] at isSender
    cases isSender
  handed := by
    change (Entry.handed source raw :: before.log).countP _ ≤ _
    rw [List.countP_cons_of_pos rfl]
    exact Nat.succ_le_succ sound.handed
  wrong := sound.wrong

theorem Sound.counts (sound : Sound service before) :
    Sound service { before with delivered := before.delivered + 1 } :=
  { sound with handed := Nat.le_succ_of_le sound.handed }

end Accounts

end NookOs.Mail.Smtp
