/-
Module: NookOs.Jobs.PullUrl
Purpose: The check that a pull request's URL passes before it is recorded, and the
  readers that recover a number from what was recorded.
Trusted boundary: none
Main exports: Lowercase, Repo, githubRepo, closesKey, joinNumber, Reader, recovered_iff
-/
import NookOs.Jobs.WorkSource
import NookOs.Lib.Text

namespace NookOs.Jobs

open Lib

/-- `str::to_lowercase`, whose table is the standard library's.  No text but one that
ends with a slash becomes one that does. -/
structure Lowercase where
  apply : List Char → List Char
  slash : ∀ text, (apply text).getLast? = some '/' → text.getLast? = some '/'

section Remotes

variable (lowercase : Lowercase)

/-- A repository of the forge. -/
structure Repo where
  owner : String
  name : String
deriving DecidableEq

/-- A remote as host and path. -/
def normalizeRemote (url : String) : List Char :=
  let lowered := lowercase.apply (Text.trim url.toList)
  let scp :=
    match "git@".toList.isPrefixOf? lowered with
    | some rest => Text.replaceFirst ':' '/' rest
    | none => lowered
  let bare :=
    (["https://", "http://", "ssh://", "git://"].findSome? fun scheme =>
      scheme.toList.isPrefixOf? scp).getD scp
  let anonymous :=
    match Text.splitOnce '@' bare with
    | some (credentials, rest) => if '/' ∈ credentials then bare else rest
    | none => bare
  Text.trimEndOf ".git".toList (Text.trimEndMatches '/' anonymous)

/-- The repository a remote names, where it is one of GitHub's. -/
def githubRepo (remote : String) : Option Repo := do
  let (host, path) ← Text.splitOnce '/' (normalizeRemote lowercase remote)
  if host ≠ "github.com".toList then none
  else
    match path.splitOn '/' with
    | [owner, name] =>
        if owner = [] ∨ name = [] then none
        else some ⟨String.ofList owner, String.ofList name⟩
    | _ => none

end Remotes

section Join

/-- The key of the first line that says `Closes` and then a key. -/
def closesKey (body : String) : Option String :=
  (Text.lines body.toList).findSome? fun line => do
    let after ← "Closes ".toList.isPrefixOf? (Text.trim line)
    let token ← (Text.splitWhitespace after).head?
    let (before, number) ← Text.rsplitOnce '-' token
    if before ≠ [] ∧ number ≠ [] ∧ number.all Char.isDigit then some (String.ofList token)
    else none

/-- What the URL of a pull request of a repository begins with. -/
def pullHead (repo : Repo) : String :=
  "https://github.com/" ++ repo.owner ++ "/" ++ repo.name ++ "/pull/"

/-- The number of the repository's pull request that a URL names.  The repository is
compared by its bytes in lower case. -/
def joinNumber (lowercase : Lowercase) (repo : Repo) (url : String) : Option Nat :=
  let expected := (pullHead repo).toList
  match Text.splitBytes (Text.utf8Length expected) url.toList with
  | none => none
  | some (head, rest) =>
      if lowercase.apply head = expected then parseU64 (Text.trimEndMatches '/' rest)
      else none

/-- The check of a `pr_opened` outcome: `workspace` is the row of the run's workspace with
its remote, `forge` the body of a pull request where a forge answers, and `resolveId` the
card of a key. -/
def validatePrJoin (lowercase : Lowercase) (workspace : Option (Option String))
    (forge : Option (Repo → Nat → Option String)) (resolveId : String → Option TaskId)
    (task : TaskId) (url : String) : Except String Unit :=
  match workspace with
  | none => .ok ()
  | some remote =>
      match remote.bind (githubRepo lowercase) with
      | none => .ok ()
      | some repo =>
          match joinNumber lowercase repo url with
          | none =>
              .error ("the url is not a pull request of this workspace's repository " ++
                "(expected " ++ pullHead repo ++ "<number>)")
          | some number =>
              match forge.bind fun details => details repo number with
              | none => .ok ()
              | some body =>
                  match closesKey body with
                  | none =>
                      .error ("the PR body has no `Closes <KEY>` line — the reviewer " ++
                        "cannot join it to its contract; add one and report the " ++
                        "outcome again")
                  | some key =>
                      match resolveId key with
                      | none =>
                          .error ("the PR closes " ++ key ++
                            ", which resolves to no card on this board")
                      | some resolved =>
                          if resolved = task then .ok ()
                          else
                            .error ("the PR closes " ++ key ++
                              ", which is not this run's card")

end Join

section Readers

/-- The value of a decimal text, of whatever size. -/
def parseDigits (digits : List Char) : Option Nat :=
  if digits ≠ [] ∧ digits.all Char.isDigit then
    some (digits.foldl (fun sum digit => sum * 10 + (digit.toNat - 48)) 0)
  else none

/-- What follows an optional plus sign. -/
def unsigned : List Char → List Char
  | '+' :: rest => rest
  | text => text

/-- A decimal `i64`, with an optional sign. -/
def parseI64 (text : List Char) : Option Int :=
  match text with
  | '-' :: digits =>
      (parseDigits digits).bind fun value =>
        if value ≤ 2 ^ 63 then some (-(value : Int)) else none
  | _ =>
      (parseDigits (unsigned text)).bind fun value =>
        if value < 2 ^ 63 then some (value : Int) else none

/-- The number the merge reconciler reads off a URL. -/
def prNumber (url : String) : Option Nat :=
  parseU64 (Text.lastSegment '/' (Text.trimEndMatches '/' url.toList))

def prWebUrl (repo : Repo) (number : Nat) : String :=
  pullHead repo ++ toString number

/-- The number the conflict badge reads off a URL. -/
def conflictNumber (url : String) : Option Int :=
  parseI64 (Text.lastSegment '/' url.toList)

/-- The badge of a card whose pull request has an outstanding conflict. -/
structure PrConflict where
  pr : Int
  head : String
  rebaseRequired : Bool
deriving DecidableEq

/-- `outstanding` is the ledger's answer for a workspace, where it has one. -/
def prConflict (outstanding : WorkspaceId → Option (List ConflictedPr)) (card : Card) :
    Option PrConflict := do
  let workspace ← card.workspaceId
  let pr ← card.prUrl.bind conflictNumber
  let rows ← outstanding workspace
  let row ← rows.find? (·.reviewPrNumber = pr)
  some { pr, head := row.reviewHeadSha, rebaseRequired := true }

/-- What a person's request for changes is refused with. -/
inductive TargetError where
  | badRequest (message : String)
  | notFound
deriving DecidableEq

/-- The pull request that a person requests changes on. -/
structure ChangesRequestTarget where
  workspace : WorkspaceId
  repo : Repo
  pr : Nat
deriving DecidableEq

/-- `workspaces` is the rows' remotes, and `hasToken` whether the workspace or the fleet has
a token of the forge. -/
def changesRequestTarget (lowercase : Lowercase)
    (workspaces : WorkspaceId → Option (Option String)) (hasToken : WorkspaceId → Bool)
    (card : Card) : Except TargetError ChangesRequestTarget :=
  match card.workspaceId, card.prUrl with
  | none, _ =>
      .error (.badRequest
        "this card has no workspace, so there is no repository to request changes on")
  | some _, none =>
      .error (.badRequest
        "this card records no pull request — there is nothing to request changes on")
  | some workspace, some url =>
      match prNumber url, workspaces workspace with
      | none, _ =>
          .error (.badRequest ("this card's recorded URL names no pull request: " ++ url))
      | some _, none => .error .notFound
      | some pr, some remote =>
          match remote.bind (githubRepo lowercase) with
          | none =>
              .error (.badRequest "this workspace's remote is not a GitHub repository")
          | some repo =>
              if hasToken workspace then .ok { workspace, repo, pr }
              else
                .error (.badRequest ("no GitHub token — set one on the workspace (or " ++
                  "NOOK_GH_TOKEN for the fleet); the request cannot be posted, so it is " ++
                  "not recorded"))

/-- Who reads a recorded URL. -/
inductive Reader where
  | mergeReconcile
  | repairItems
  | prConflict
  | changesRequestTarget
  | outstandingConflicts
deriving DecidableEq

/-- The number a reader goes on with.  The repair lane looks conflicts up under the number
as the ledger's signed one. -/
def Reader.number : Reader → String → Option Int
  | .mergeReconcile, url | .changesRequestTarget, url => (prNumber url).map Int.ofNat
  | .repairItems, url => (prNumberOf url).map Int.ofNat
  | .prConflict, url => conflictNumber url
  | .outstandingConflicts, url => (prNumberOf url).map asI64

/-- The pull request a reader recovers: of the workspace's repository, as every one of them
reads it. -/
def Reader.recover (lowercase : Lowercase) (remote url : String) (reader : Reader) :
    Option (Repo × Int) := do
  let repo ← githubRepo lowercase remote
  let number ← reader.number url
  some (repo, number)

section Numbers

variable {text : List Char} {number : Nat}

theorem parseU64_iff :
    parseU64 text = some number ↔
      parseDigits (unsigned text) = some number ∧ number < 2 ^ 64 := by
  have isUnsigned : parseU64 text =
      if unsigned text ≠ [] ∧ (unsigned text).all Char.isDigit then
        let value := (unsigned text).foldl (fun sum digit => sum * 10 + (digit.toNat - 48)) 0
        if value < 2 ^ 64 then some value else none
      else none := by
    unfold parseU64
    split
    case h_1 => rfl
    case h_2 notPlus =>
      rw [unsigned]
      exact notPlus
  rw [isUnsigned, parseDigits]
  by_cases decimal : unsigned text ≠ [] ∧ (unsigned text).all Char.isDigit
  · rw [if_pos decimal, if_pos decimal, Option.some.injEq]
    dsimp only
    split
    case isTrue small =>
      rw [Option.some.injEq]
      constructor
      · rintro rfl
        exact ⟨rfl, small⟩
      · exact fun same => same.1
    case isFalse large =>
      constructor
      · intro parsed
        cases parsed
      · rintro ⟨rfl, small⟩
        exact absurd small large
  · rw [if_neg decimal, if_neg decimal]
    constructor
    · intro parsed
      cases parsed
    · rintro ⟨parsed, _⟩
      cases parsed

/-- A number that parses is written without a slash. -/
theorem slash_notMem_of_parseU64 (parsed : parseU64 text = some number) :
    text ≠ [] ∧ '/' ∉ text := by
  have digits := (parseU64_iff.mp parsed).1
  rw [parseDigits] at digits
  split at digits
  case isFalse => cases digits
  case isTrue decimal =>
    have none : '/' ∉ unsigned text := by
      intro member
      exact absurd (List.all_eq_true.mp decimal.2 '/' member) (by decide)
    constructor
    · rintro rfl
      exact decimal.1 rfl
    · intro member
      apply none
      unfold unsigned
      split
      case h_1 rest =>
        rcases List.mem_cons.mp member with isPlus | inRest
        · cases isPlus
        · exact inRest
      case h_2 => exact member

/-- A number that parses unsigned parses as signed where it has room. -/
theorem parseI64_of_parseU64 (parsed : parseU64 text = some number) :
    parseI64 text = if number < 2 ^ 63 then some (number : Int) else none := by
  have digits := (parseU64_iff.mp parsed).1
  unfold parseI64
  split
  case h_1 rest =>
    -- a minus sign is no digit
    rw [unsigned, parseDigits, if_neg] at digits
    · cases digits
    · rintro ⟨_, allDigits⟩
      cases allDigits
    · intro rest' same
      cases same
  case h_2 =>
    rw [digits]
    rfl

theorem asI64_eq_iff : asI64 number = number ↔ number < 2 ^ 63 := by
  rw [asI64]
  split
  case isTrue small => exact ⟨fun _ => small, fun _ => rfl⟩
  case isFalse large =>
    constructor
    · intro same
      omega
    · intro small
      exact absurd small large

end Numbers

section Identity

variable {lowercase : Lowercase} {remote url : String} {repo : Repo} {number : Nat}

theorem pullHead_ends : (pullHead repo).toList.getLast? = some '/' := by
  have last : "/pull/".toList.getLast? = some '/' := by decide
  have ends : ∀ front : String, (front ++ "/pull/").toList.getLast? = some '/' := by
    intro front
    rw [String.toList_append, List.getLast?_append, last]
    rfl
  exact ends ("https://github.com/" ++ repo.owner ++ "/" ++ repo.name)

/-- A URL of the repository is a text that ends with a slash and then the digits, with any
number of slashes behind them. -/
theorem joinNumber_some (joined : joinNumber lowercase repo url = some number) :
    ∃ head rest, url.toList = head ++ rest ∧ head.getLast? = some '/' ∧
      parseU64 (Text.trimEndMatches '/' rest) = some number := by
  rw [joinNumber] at joined
  split at joined
  case h_1 => cases joined
  case h_2 head rest split_ =>
    split at joined
    case isFalse => cases joined
    case isTrue isExpected =>
      refine ⟨head, rest, Text.splitBytes_some split_, ?_, joined⟩
      apply lowercase.slash
      rw [isExpected]
      exact pullHead_ends

/-- What is read off a URL that ends with its digits. -/
theorem reads_of_digits {head digits : List Char} (isUrl : url.toList = head ++ digits)
    (ends : head.getLast? = some '/') (parsed : parseU64 digits = some number) :
    prNumber url = some number ∧ prNumberOf url = some number ∧
      conflictNumber url = if number < 2 ^ 63 then some (number : Int) else none := by
  obtain ⟨nonempty, noSlash⟩ := slash_notMem_of_parseU64 parsed
  have last : Text.lastSegment '/' url.toList = digits := by
    rw [isUrl]
    exact Text.lastSegment_append ends noSlash
  have untrimmed : Text.trimEndMatches '/' url.toList = url.toList := by
    apply Text.trimEndMatches_eq_self
    rw [isUrl, List.getLast?_append_of_ne_nil _ nonempty]
    exact fun slash => noSlash (List.mem_of_getLast? slash)
  refine ⟨?_, ?_, ?_⟩
  · rw [prNumber, untrimmed, last]
    exact parsed
  · rw [← last] at parsed
    exact parsed
  · rw [conflictNumber, last]
    exact parseI64_of_parseU64 parsed

theorem recover_eq_some_iff {reader : Reader} (isRepo : githubRepo lowercase remote = some repo) :
    reader.recover lowercase remote url = some (repo, (number : Int)) ↔
      reader.number url = some (number : Int) := by
  rw [Reader.recover, isRepo]
  simp only [Option.bind_eq_bind, Option.bind_some]
  constructor
  · intro recovered
    obtain ⟨read, isRead, same⟩ := Option.bind_eq_some_iff.mp recovered
    cases same
    exact isRead
  · intro isRead
    rw [isRead]
    rfl

/-- Where a URL ends with its digits every reader reads them, if the number fits the
ledger. -/
theorem number_of_digits {head digits : List Char} (isUrl : url.toList = head ++ digits)
    (ends : head.getLast? = some '/') (parsed : parseU64 digits = some number)
    (small : number < 2 ^ 63) (reader : Reader) :
    reader.number url = some (number : Int) := by
  obtain ⟨trimmed, last, signed⟩ := reads_of_digits isUrl ends parsed
  cases reader with
  | mergeReconcile | changesRequestTarget =>
      rw [Reader.number, trimmed]
      rfl
  | repairItems =>
      rw [Reader.number, last]
      rfl
  | prConflict => rw [Reader.number, signed, if_pos small]
  | outstandingConflicts => rw [Reader.number, last, Option.map_some, asI64_eq_iff.mpr small]

/-- Every reader recovers the number that was accepted exactly where the URL does not end
with a slash and the number fits the ledger. -/
theorem number_iff (joined : joinNumber lowercase repo url = some number) :
    (∀ reader : Reader, reader.number url = some (number : Int)) ↔
      url.toList.getLast? ≠ some '/' ∧ number < 2 ^ 63 := by
  obtain ⟨head, rest, isUrl, ends, parsed⟩ := joinNumber_some joined
  by_cases slash : url.toList.getLast? = some '/'
  · constructor
    · intro reads
      have conflict := reads .prConflict
      rw [Reader.number, conflictNumber, Text.lastSegment_of_ends slash] at conflict
      cases conflict
    · exact fun both => absurd slash both.1
  · have nonempty : rest ≠ [] := by
      rintro rfl
      exact (slash_notMem_of_parseU64 parsed).1 rfl
    have same : Text.trimEndMatches '/' rest = rest := by
      apply Text.trimEndMatches_eq_self
      rwa [isUrl, List.getLast?_append_of_ne_nil _ nonempty] at slash
    rw [same] at parsed
    constructor
    · intro reads
      have conflict := reads .prConflict
      rw [Reader.number, (reads_of_digits isUrl ends parsed).2.2] at conflict
      split at conflict
      case isTrue small => exact ⟨slash, small⟩
      case isFalse => cases conflict
    · exact fun both reader => number_of_digits isUrl ends parsed both.2 reader

theorem parseU64_toString (small : number < 2 ^ 64) :
    parseU64 (toString number).toList = some number := by
  have digits : (toString number).toList = Nat.toDigits 10 number := by
    rw [Nat.toString_eq_ofList_toDigits, String.toList_ofList]
  have allDigits : ∀ char ∈ Nat.toDigits 10 number, char.isDigit = true :=
    fun char member => Nat.isDigit_of_mem_toDigits (by decide) (by decide) member
  have isUnsigned : unsigned (Nat.toDigits 10 number) = Nat.toDigits 10 number := by
    rw [unsigned]
    intro rest same
    exact absurd (allDigits '+' (same ▸ List.mem_cons_self)) (by decide)
  rw [digits]
  apply parseU64_iff.mpr
  refine ⟨?_, small⟩
  rw [isUnsigned, parseDigits, if_pos ⟨Nat.toDigits_ne_nil, List.all_eq_true.mpr allDigits⟩,
    Option.some.injEq]
  have value := Nat.ofDigitChars_ten_toDigits (n := number)
  rw [Nat.ofDigitChars_eq_foldl] at value
  simp only [Nat.mul_comm] at value
  exact value

/-- The permalink of a pull request is read as its number. -/
theorem number_prWebUrl (small : number < 2 ^ 63) (reader : Reader) :
    reader.number (prWebUrl repo number) = some (number : Int) := by
  have isUrl : (prWebUrl repo number).toList =
      (pullHead repo).toList ++ (toString number).toList := String.toList_append
  apply number_of_digits isUrl pullHead_ends _ small
  exact parseU64_toString (Nat.lt_trans small (by decide))

theorem prNumber_prWebUrl (small : number < 2 ^ 64) :
    prNumber (prWebUrl repo number) = some number := by
  have isUrl : (prWebUrl repo number).toList =
      (pullHead repo).toList ++ (toString number).toList := String.toList_append
  exact (reads_of_digits isUrl pullHead_ends (parseU64_toString small)).1

/-- A card as it is once a pull request was recorded on it. -/
def Card.recording (url : String) (card : Card) : Card :=
  { card with prUrl := some url }

/-- The conflict badge and the repair lane treat a card the same, whichever of two URLs is
recorded on it. -/
def SameCard (url other : String) : Prop :=
  (∀ outstanding card, prConflict outstanding (Card.recording url card) =
      prConflict outstanding (Card.recording other card)) ∧
    ∀ (work : BuildWork) prs task card,
      ({ work with
          board := Function.update work.board task (some (Card.recording url card)) }
        : BuildWork).repairItem prs task =
        ({ work with
            board := Function.update work.board task (some (Card.recording other card)) }
          : BuildWork).repairItem prs task

/-- Two URLs of one number make no difference. -/
theorem sameCard_of_number {other : String}
    (reads : ∀ reader : Reader, reader.number url = reader.number other) :
    SameCard url other := by
  have conflict : conflictNumber url = conflictNumber other := reads .prConflict
  have repair : prNumberOf url = prNumberOf other := by
    have mapped := reads .repairItems
    exact Option.map_injective (fun _ _ => Int.ofNat.inj) mapped
  constructor
  · intro outstanding card
    rw [prConflict, prConflict]
    simp only [Card.recording, Option.bind_some, conflict]
  · intro work prs task card
    rw [BuildWork.repairItem, BuildWork.repairItem]
    simp only [Function.update_self, Card.recording, repair, Option.bind_eq_bind,
      Option.bind_some]
    rfl

/-- A URL that is accepted for a repository of the forge was accepted for a number.  The
readers recover that number of that repository exactly where the URL does not end with a
slash and the number fits the ledger, and then a card is treated as with the permalink. -/
theorem recovered_iff {forge : Option (Repo → Nat → Option String)}
    {resolveId : String → Option TaskId} {task : TaskId}
    (isRepo : githubRepo lowercase remote = some repo)
    (accepted : validatePrJoin lowercase (some (some remote)) forge resolveId task url =
      .ok ()) :
    ∃ number, joinNumber lowercase repo url = some number ∧
      ((∀ reader : Reader,
          reader.recover lowercase remote url = some (repo, (number : Int))) ↔
        url.toList.getLast? ≠ some '/' ∧ number < 2 ^ 63) ∧
      (url.toList.getLast? ≠ some '/' ∧ number < 2 ^ 63 →
        SameCard url (prWebUrl repo number)) := by
  have remotes : (some remote).bind (githubRepo lowercase) = some repo := isRepo
  rw [validatePrJoin, remotes] at accepted
  dsimp only at accepted
  split at accepted
  case h_1 => cases accepted
  case h_2 number joined =>
    refine ⟨number, joined, ?_, ?_⟩
    · simp only [recover_eq_some_iff isRepo]
      exact number_iff joined
    · intro fits
      apply sameCard_of_number
      intro reader
      rw [(number_iff joined).mpr fits reader, number_prWebUrl fits.2]

/-- `str::to_lowercase` on a text of ASCII characters. -/
def asciiLowercase : Lowercase where
  apply := List.map Char.toLower
  slash := by
    intro text ends
    rw [List.getLast?_map, Option.map_eq_some_iff] at ends
    obtain ⟨last, isLast, lowers⟩ := ends
    rw [isLast, (Text.toLower_eq_iff (by decide) (by decide)).mp lowers]

def aRemote : String := "https://github.com/nook-os/nook-os"

/-- The URL is accepted for its number, and the repair lane and the conflict badge recover
none. -/
theorem slash_missed :
    validatePrJoin asciiLowercase (some (some aRemote)) none (fun _ => none) 1
        "https://github.com/nook-os/nook-os/pull/375/" = .ok () ∧
      joinNumber asciiLowercase ⟨"nook-os", "nook-os"⟩
        "https://github.com/nook-os/nook-os/pull/375/" = some 375 ∧
      ¬∀ reader : Reader,
        reader.recover asciiLowercase aRemote "https://github.com/nook-os/nook-os/pull/375/" =
          some (⟨"nook-os", "nook-os"⟩, 375) := by
  refine ⟨by decide +kernel, by decide +kernel, ?_⟩
  intro recovered
  exact absurd (recovered .prConflict) (by decide +kernel)

/-- A permalink in the forge's own casing. -/
theorem recovered_permalink :
    ∃ number,
      joinNumber asciiLowercase ⟨"nook-os", "nook-os"⟩
          "https://github.com/Nook-OS/nook-os/pull/375" = some number ∧
        ((∀ reader : Reader,
            reader.recover asciiLowercase aRemote
              "https://github.com/Nook-OS/nook-os/pull/375" =
                some (⟨"nook-os", "nook-os"⟩, (number : Int))) ↔
          "https://github.com/Nook-OS/nook-os/pull/375".toList.getLast? ≠ some '/' ∧
            number < 2 ^ 63) ∧
        ("https://github.com/Nook-OS/nook-os/pull/375".toList.getLast? ≠ some '/' ∧
            number < 2 ^ 63 →
          SameCard "https://github.com/Nook-OS/nook-os/pull/375"
            (prWebUrl ⟨"nook-os", "nook-os"⟩ number)) := by
  have accepted : validatePrJoin asciiLowercase (some (some aRemote)) none (fun _ => none) 1
      "https://github.com/Nook-OS/nook-os/pull/375" = .ok () := by decide +kernel
  exact recovered_iff (by decide +kernel) accepted

end Identity

end Readers

end NookOs.Jobs
