/-
Module: NookOs.Jobs.Remotes
Purpose: The spellings of a git remote, the identity that discovery gives it, and
  the place that a node compares.
Trusted boundary: the lowercase table of the standard library, on ASCII
Main exports: normalizedRemote, scpStyle, stripGitSuffix, normalizedRemote_text, one_identity
-/
import NookOs.Jobs.PullUrl

namespace NookOs.Jobs

open Lib

section Node

def stripGitSuffix (path : List Char) : List Char :=
  (".git".toList.isSuffixOf? path).getD path

/-- A colon before any slash. -/
def scpStyle (url : List Char) : Option (List Char × List Char) :=
  match Text.splitOnce ':' url with
  | some (authority, path) =>
      if authority ≠ [] ∧ '/' ∉ authority then some (authority, path) else none
  | none => none

def toAsciiLowercase (text : List Char) : List Char := text.map Char.toLower

/-- A hostname has no letter case, and the user and the path have one. -/
def foldHost (authority : List Char) : List Char :=
  match Text.splitOnce '@' authority with
  | some (user, host) => user ++ '@' :: toAsciiLowercase host
  | none => toAsciiLowercase authority

/-- A remote of a scheme, as the place it names. -/
def located (scheme rest : List Char) : List Char :=
  let rest := Text.trimEndMatches '/' rest
  let (authority, path) := (Text.splitOnce '/' rest).getD (rest, [])
  scheme ++ "://".toList ++ foldHost authority ++ '/' ::
    stripGitSuffix (Text.trimEndMatches '/' path)

/-- A remote reduced to the place it names, so that the spellings of one remote
compare equal. -/
def normalizedRemote (url : List Char) : List Char :=
  let trimmed := Text.trimEndMatches '/' (Text.trim url)
  match Text.splitOnceOf "://".toList trimmed with
  | some (scheme, rest) => located (toAsciiLowercase scheme) rest
  | none =>
      match scpStyle trimmed with
      | some (authority, path) => located "ssh".toList (authority ++ '/' :: path)
      | none => stripGitSuffix trimmed

end Node

section Letters

variable {char mark : Char} {text : List Char}

theorem mem_lower_iff (noLetter : ¬ (97 ≤ mark.toNat ∧ mark.toNat ≤ 122))
    (fixed : mark.toLower = mark) : mark ∈ toAsciiLowercase text ↔ mark ∈ text := by
  rw [toAsciiLowercase, List.mem_map]
  simp only [Text.toLower_eq_iff noLetter fixed, exists_eq_right]

theorem lower_lower : toAsciiLowercase (toAsciiLowercase text) = toAsciiLowercase text := by
  rw [toAsciiLowercase, toAsciiLowercase, List.map_map]
  exact List.map_congr_left fun char _ => Text.toLower_toLower

theorem toLower_ascii (isAscii : char.toNat < 128) : char.toLower.toNat < 128 := by
  rcases Text.toLower_cases char with same | ⟨-, atMost⟩
  · rwa [same]
  · omega

end Letters

section Grammar

/-- How a remote is spelled: as a URL, perhaps with a user and a password, or as
`git@host:path`. -/
inductive Form where
  | url (scheme : List Char) (credentials : Option (List Char))
  | scp
deriving DecidableEq

/-- A spelling of a remote. -/
structure Remote where
  form : Form
  host : List Char
  port : Option (List Char) := none
  path : List Char
  dotGit : Bool := false
  slashes : Nat := 0
deriving DecidableEq

/-- The repository that a remote names.  Neither the host nor the path has a
letter case. -/
structure Place where
  host : List Char
  port : Option (List Char)
  path : List Char
deriving DecidableEq

def schemes : List (List Char) :=
  ["https".toList, "http".toList, "ssh".toList, "git".toList]

/-- A form of the grammar. -/
def Form.Legal : Form → Prop
  | .url scheme credentials =>
      toAsciiLowercase scheme ∈ schemes ∧ ∀ text ∈ credentials, '/' ∉ text ∧ '@' ∉ text
  | .scp => True

namespace Remote

def portText : Option (List Char) → List Char
  | none => []
  | some digits => ':' :: digits

def authority (remote : Remote) : List Char := remote.host ++ portText remote.port

/-- The path with its `.git` and its slashes. -/
def tail (remote : Remote) : List Char :=
  remote.path ++ (if remote.dotGit then ".git".toList else []) ++
    List.replicate remote.slashes '/'

def text (remote : Remote) : List Char :=
  match remote.form with
  | .url scheme none => scheme ++ "://".toList ++ (remote.authority ++ '/' :: remote.tail)
  | .url scheme (some credentials) =>
      scheme ++ "://".toList ++ (credentials ++ '@' :: (remote.authority ++ '/' :: remote.tail))
  | .scp => "git@".toList ++ (remote.host ++ ':' :: remote.tail)

def place (remote : Remote) : Place :=
  { host := toAsciiLowercase remote.host
    port := remote.port
    path := toAsciiLowercase remote.path }

/-- The grammar of remotes.  The path is what is left when the slashes and the
`.git` are taken away; a colon within the host stands in brackets. -/
structure Legal (remote : Remote) : Prop where
  ascii : ∀ char ∈ remote.text, char.toNat < 128
  form : Form.Legal remote.form
  host : remote.host ≠ []
  hostChars : ∀ char ∈ remote.host, char ≠ '/' ∧ char ≠ '@' ∧ Text.isWhitespace char = false
  brackets : ':' ∈ remote.host → remote.host.getLast? = some ']'
  port : ∀ digits ∈ remote.port, digits ≠ [] ∧ ∀ char ∈ digits, char.isDigit = true
  path : remote.path ≠ []
  pathEnd : ∀ char ∈ remote.path.getLast?, char ≠ '/' ∧ Text.isWhitespace char = false
  noSuffix : ¬ ".git".toList <:+ toAsciiLowercase remote.path
  scp : remote.form = .scp →
    ':' ∉ remote.host ∧ remote.port = none ∧ ¬ "://".toList <:+: remote.text

end Remote

/-- The identity of the repository that a remote names. -/
def Place.identity (place : Place) : List Char :=
  place.host ++ Remote.portText place.port ++ '/' :: place.path

end Grammar

section Identity

/-- `str::to_lowercase` on a text of ASCII characters. -/
def Lowercase.Ascii (lowercase : Lowercase) : Prop :=
  ∀ text, (∀ char ∈ text, char.toNat < 128) → lowercase.apply text = toAsciiLowercase text

variable {lowercase : Lowercase}

/-- Without credentials the first `@` stands after the first slash. -/
theorem anonymous_none {who path : List Char} (absent : '@' ∉ who) :
    (match Text.splitOnce '@' (who ++ '/' :: path) with
      | some (credentials, rest) =>
          if '/' ∈ credentials then who ++ '/' :: path else rest
      | none => who ++ '/' :: path) = who ++ '/' :: path := by
  cases split : Text.splitOnce '@' (who ++ '/' :: path) with
  | none => rfl
  | some pieces =>
      obtain ⟨credentials, rest⟩ := pieces
      obtain ⟨same, -⟩ := Text.splitOnce_some split
      have slash : '/' ∈ credentials := by
        by_contra noSlash
        have isPrefix : credentials ++ ['@'] <+: who ++ '/' :: path :=
          ⟨rest, by rw [same, List.append_assoc]; rfl⟩
        have within := Text.prefix_of_append_mark isPrefix (by
          simp only [List.mem_append, noSlash, List.mem_singleton, Char.reduceEq, or_self,
            not_false_eq_true])
        exact absent (within.subset (List.mem_append_right credentials List.mem_cons_self))
      dsimp only
      rw [if_pos slash]

theorem anonymous_some {credentials rest : List Char} (noSlash : '/' ∉ credentials)
    (absent : '@' ∉ credentials) :
    (match Text.splitOnce '@' (credentials ++ '@' :: rest) with
      | some (head, tail) =>
          if '/' ∈ head then credentials ++ '@' :: rest else tail
      | none => credentials ++ '@' :: rest) = rest := by
  rw [Text.splitOnce_append absent]
  dsimp only
  rw [if_neg noSlash]

/-- The slashes and the `.git` at the end of a path are trimmed. -/
theorem trimmed_tail {who path : List Char} {dotGit : Bool} {slashes : Nat}
    (nonempty : path ≠ []) (ends : path.getLast? ≠ some '/')
    (noSuffix : ¬ ".git".toList <:+ path) :
    Text.trimEndOf ".git".toList (Text.trimEndMatches '/' (who ++ '/' :: (path ++
      (if dotGit then ".git".toList else []) ++ List.replicate slashes '/'))) =
        who ++ '/' :: path := by
  have apart : ¬ ".git".toList <:+ who ++ '/' :: path := fun isSuffix =>
    noSuffix (Text.suffix_of_append_mark isSuffix (by decide))
  have lasts : (who ++ '/' :: path).getLast? = path.getLast? := by
    obtain ⟨front, last, rfl⟩ := List.eq_nil_or_concat path |>.resolve_left nonempty
    simp only [List.concat_eq_append, ← List.cons_append, ← List.append_assoc,
      List.getLast?_concat]
  rw [← List.cons_append, ← List.append_assoc, Text.trimEndMatches_replicate]
  cases dotGit with
  | false =>
      rw [if_neg Bool.false_ne_true, List.append_nil,
        Text.trimEndMatches_eq_self (lasts ▸ ends), Text.trimEndOf_eq_self apart]
  | true =>
      rw [if_pos rfl, ← List.cons_append, ← List.append_assoc, Text.trimEndMatches_eq_self,
        Text.trimEndOf_append apart (by decide)]
      have isEnd : ".git".toList.getLast? = some 't' := by decide
      rw [List.getLast?_append, isEnd, Option.some_or]
      decide

/-- What is put after a scheme is what is left of it. -/
theorem bare_url {scheme rest : List Char} (isScheme : scheme ∈ schemes) :
    "git@".toList.isPrefixOf? (scheme ++ "://".toList ++ rest) = none ∧
      (["https://", "http://", "ssh://", "git://"].findSome? fun scheme' =>
        scheme'.toList.isPrefixOf? (scheme ++ "://".toList ++ rest)) = some rest := by
  simp only [schemes, List.mem_cons, List.not_mem_nil, or_false] at isScheme
  rcases isScheme with rfl | rfl | rfl | rfl <;> exact ⟨rfl, rfl⟩

/-- A host that no port is missing after is no scheme, so nothing is taken from
it. -/
theorem bare_host {who path : List Char} (noSlash : '/' ∉ who)
    (ends : who.getLast? ≠ some ':') :
    (["https://", "http://", "ssh://", "git://"].findSome? fun scheme =>
      scheme.toList.isPrefixOf? (who ++ '/' :: path)) = none := by
  have apart (scheme : List Char) (slashless : '/' ∉ scheme) :
      (scheme ++ "://".toList).isPrefixOf? (who ++ '/' :: path) = none := by
    apply Text.isPrefixOf?_none
    intro ⟨rest, same⟩
    have colon : '/' ∉ scheme ++ [':'] := by
      simp only [List.mem_append, slashless, List.mem_singleton, Char.reduceEq, or_self,
        not_false_eq_true]
    have split : scheme ++ [':'] ++ '/' :: ('/' :: rest) = who ++ '/' :: path := by
      rw [← same]
      simp
    obtain ⟨isHost, -⟩ := Text.append_mark_inj colon noSlash split
    rw [← isHost, List.getLast?_concat] at ends
    exact ends rfl
  simp only [List.findSome?_cons, List.findSome?_nil]
  have https := apart "https".toList (by decide)
  have http := apart "http".toList (by decide)
  have ssh := apart "ssh".toList (by decide)
  have git := apart "git".toList (by decide)
  have names : "https".toList ++ "://".toList = "https://".toList ∧
      "http".toList ++ "://".toList = "http://".toList ∧
      "ssh".toList ++ "://".toList = "ssh://".toList ∧
      "git".toList ++ "://".toList = "git://".toList := by decide
  rw [names.1] at https
  rw [names.2.1] at http
  rw [names.2.2.1] at ssh
  rw [names.2.2.2] at git
  rw [https, http, ssh, git]

/-- Nothing is taken from a host without a user. -/
theorem scp_host {who path : List Char} (absent : '@' ∉ who) :
    "git@".toList.isPrefixOf? (who ++ '/' :: path) = none := by
  apply Text.isPrefixOf?_none
  intro isPrefix
  exact absent ((Text.prefix_of_append_mark isPrefix (by decide)).subset (by decide))

namespace Remote

variable {remote : Remote}

theorem Legal.noSlash (legal : remote.Legal) : '/' ∉ remote.authority := by
  intro member
  rcases List.mem_append.mp member with inHost | inPort
  · exact (legal.hostChars '/' inHost).1 rfl
  · cases isPort : remote.port with
    | none =>
        rw [isPort] at inPort
        cases inPort
    | some digits =>
        rw [isPort] at inPort
        rcases List.mem_cons.mp inPort with isColon | inDigits
        · cases isColon
        · exact absurd ((legal.port digits isPort).2 '/' inDigits) (by decide)

theorem Legal.noUser (legal : remote.Legal) : '@' ∉ remote.authority := by
  intro member
  rcases List.mem_append.mp member with inHost | inPort
  · exact (legal.hostChars '@' inHost).2.1 rfl
  · cases isPort : remote.port with
    | none =>
        rw [isPort] at inPort
        cases inPort
    | some digits =>
        rw [isPort] at inPort
        rcases List.mem_cons.mp inPort with isColon | inDigits
        · cases isColon
        · exact absurd ((legal.port digits isPort).2 '@' inDigits) (by decide)

/-- The authority begins and ends with a character of the host or of the port. -/
theorem Legal.noColon (legal : remote.Legal) : remote.authority.getLast? ≠ some ':' := by
  intro ends
  rw [authority] at ends
  cases isPort : remote.port with
  | none =>
      rw [isPort, portText, List.append_nil] at ends
      have inBrackets := legal.brackets (List.mem_of_getLast? ends)
      rw [ends] at inBrackets
      cases inBrackets
  | some digits =>
      obtain ⟨nonempty, areDigits⟩ := legal.port digits isPort
      obtain ⟨front, last, rfl⟩ := List.eq_nil_or_concat digits |>.resolve_left nonempty
      rw [isPort, portText, List.concat_eq_append, ← List.cons_append, ← List.append_assoc,
        List.getLast?_concat, Option.some.injEq] at ends
      have isDigit := areDigits last (by simp)
      rw [ends] at isDigit
      cases isDigit

theorem lower_append (head rest : List Char) :
    toAsciiLowercase (head ++ rest) = toAsciiLowercase head ++ toAsciiLowercase rest :=
  List.map_append

theorem lower_cons (char : Char) (rest : List Char) :
    toAsciiLowercase (char :: rest) = char.toLower :: toAsciiLowercase rest :=
  List.map_cons

theorem lower_digits {digits : List Char} (areDigits : ∀ char ∈ digits, char.isDigit = true) :
    toAsciiLowercase digits = digits := by
  rw [toAsciiLowercase]
  conv_rhs => rw [← List.map_id digits]
  apply List.map_congr_left
  intro char member
  have isDigit := areDigits char member
  have small : ¬ (char.val ≥ 'A'.val ∧ char.val ≤ 'Z'.val) := by
    intro isUpper
    have atLeast : 65 ≤ char.val.toNat := UInt32.le_iff_toNat_le.mp isUpper.1
    rw [Char.isDigit, Bool.and_eq_true, decide_eq_true_eq, decide_eq_true_eq] at isDigit
    have atMost : char.val.toNat ≤ 57 := UInt32.le_iff_toNat_le.mp isDigit.2
    omega
  unfold Char.toLower
  rw [dif_neg small]
  rfl

theorem Legal.lower_port (legal : remote.Legal) :
    toAsciiLowercase (portText remote.port) = portText remote.port := by
  cases isPort : remote.port with
  | none => rfl
  | some digits =>
      rw [portText, lower_cons, lower_digits (legal.port digits isPort).2]
      rfl

theorem Legal.identity_eq (legal : remote.Legal) :
    remote.place.identity =
      toAsciiLowercase remote.authority ++ '/' :: toAsciiLowercase remote.path := by
  rw [authority, lower_append, legal.lower_port]
  rfl

theorem Legal.lower_path (legal : remote.Legal) : toAsciiLowercase remote.path ≠ [] :=
  fun empty => legal.path (List.map_eq_nil_iff.mp empty)

theorem Legal.lower_pathEnd (legal : remote.Legal) :
    (toAsciiLowercase remote.path).getLast? ≠ some '/' := by
  intro ends
  rw [toAsciiLowercase, List.getLast?_map, Option.map_eq_some_iff] at ends
  obtain ⟨last, isLast, lowers⟩ := ends
  exact (legal.pathEnd last isLast).1 ((Text.toLower_eq_iff (by decide) (by decide)).mp lowers)

theorem lower_tail : toAsciiLowercase remote.tail = toAsciiLowercase remote.path ++
    (if remote.dotGit then ".git".toList else []) ++ List.replicate remote.slashes '/' := by
  have suffixed : toAsciiLowercase (if remote.dotGit then ".git".toList else []) =
      if remote.dotGit then ".git".toList else [] := by
    cases remote.dotGit <;> rfl
  have slashed : toAsciiLowercase (List.replicate remote.slashes '/') =
      List.replicate remote.slashes '/' := List.map_replicate
  rw [tail, lower_append, lower_append, suffixed, slashed]

/-- A remote ends with its tail, and does not end with a blank. -/
theorem Legal.tail_end (legal : remote.Legal) :
    ∃ last, remote.tail.getLast? = some last ∧ Text.isWhitespace last = false := by
  cases slashed : remote.slashes with
  | succ slashes =>
      refine ⟨'/', ?_, by decide⟩
      rw [tail, slashed, List.replicate_succ', ← List.append_assoc, List.getLast?_concat]
  | zero =>
      rw [tail, slashed, List.replicate_zero, List.append_nil]
      cases remote.dotGit with
      | true =>
          have isEnd : ".git".toList.getLast? = some 't' := by decide
          refine ⟨'t', ?_, by decide⟩
          rw [if_pos rfl, List.getLast?_append, isEnd, Option.some_or]
      | false =>
          rw [if_neg Bool.false_ne_true, List.append_nil]
          obtain ⟨last, isLast⟩ := Option.isSome_iff_exists.mp
            (List.getLast?_isSome.mpr legal.path)
          exact ⟨last, isLast, (legal.pathEnd last isLast).2⟩

theorem text_tail : ∃ front, remote.text = front ++ remote.tail := by
  rw [text]
  split
  case h_1 scheme _ =>
    exact ⟨scheme ++ "://".toList ++ (remote.authority ++ ['/']), by simp⟩
  case h_2 scheme credentials _ =>
    exact ⟨scheme ++ "://".toList ++ (credentials ++ '@' :: (remote.authority ++ ['/'])),
      by simp⟩
  case h_3 => exact ⟨"git@".toList ++ (remote.host ++ [':']), by simp⟩

theorem scheme_head {scheme : List Char} (isScheme : toAsciiLowercase scheme ∈ schemes) :
    ∃ char rest, scheme = char :: rest ∧ Text.isWhitespace char = false := by
  cases scheme with
  | nil => exact absurd isScheme (by decide)
  | cons char rest =>
      refine ⟨char, rest, rfl, ?_⟩
      have heads : char.toLower ∈ ['h', 's', 'g'] := by
        rw [lower_cons] at isScheme
        simp only [schemes, List.mem_cons, List.not_mem_nil, or_false] at isScheme ⊢
        rcases isScheme with same | same | same | same
        · exact .inl (List.cons.inj same).1
        · exact .inl (List.cons.inj same).1
        · exact .inr (.inl (List.cons.inj same).1)
        · exact .inr (.inr (List.cons.inj same).1)
      rw [← Text.toLower_blank]
      have letters : ∀ letter ∈ ['h', 's', 'g'], Text.isWhitespace letter = false := by decide
      exact letters char.toLower heads

theorem Legal.text_head (legal : remote.Legal) :
    ∀ char ∈ remote.text.head?, Text.isWhitespace char = false := by
  have form := legal.form
  intro char isHead
  rw [text] at isHead
  split at isHead
  case h_1 scheme isForm =>
    rw [isForm] at form
    obtain ⟨first, rest, rfl, notBlank⟩ := scheme_head form.1
    cases isHead
    exact notBlank
  case h_2 scheme credentials isForm =>
    rw [isForm] at form
    obtain ⟨first, rest, rfl, notBlank⟩ := scheme_head form.1
    cases isHead
    exact notBlank
  case h_3 =>
    cases isHead
    decide

theorem Legal.trim_text (legal : remote.Legal) : Text.trim remote.text = remote.text := by
  apply Text.trim_eq_self legal.text_head
  obtain ⟨front, isText⟩ := @text_tail remote
  obtain ⟨last, isLast, notBlank⟩ := legal.tail_end
  intro char ends
  rw [isText, List.getLast?_append, isLast, Option.some_or] at ends
  cases ends
  exact notBlank

end Remote

/-- The steps of `normalizeRemote`, one after the other. -/
theorem normalizeRemote_steps {url : String} {lowered scp bare anonymous : List Char}
    (isLowered : lowercase.apply (Text.trim url.toList) = lowered)
    (isScp : (match "git@".toList.isPrefixOf? lowered with
      | some rest => Text.replaceFirst ':' '/' rest
      | none => lowered) = scp)
    (isBare : ((["https://", "http://", "ssh://", "git://"].findSome? fun scheme =>
      scheme.toList.isPrefixOf? scp)).getD scp = bare)
    (isAnonymous : (match Text.splitOnce '@' bare with
      | some (credentials, rest) => if '/' ∈ credentials then bare else rest
      | none => bare) = anonymous) :
    normalizeRemote lowercase url =
      Text.trimEndOf ".git".toList (Text.trimEndMatches '/' anonymous) := by
  subst isLowered isScp isBare isAnonymous
  rfl

/-- The identity of every spelling is that of the repository it names. -/
theorem normalizeRemote_text {remote : Remote} (ascii : lowercase.Ascii)
    (legal : remote.Legal) :
    normalizeRemote lowercase (String.ofList remote.text) = remote.place.identity := by
  have lowered : lowercase.apply (Text.trim (String.ofList remote.text).toList) =
      toAsciiLowercase remote.text := by
    rw [String.toList_ofList, legal.trim_text, ascii remote.text legal.ascii]
  have noUser : '@' ∉ toAsciiLowercase remote.authority := fun member =>
    legal.noUser ((mem_lower_iff (by decide) (by decide)).mp member)
  have trims : Text.trimEndOf ".git".toList (Text.trimEndMatches '/'
      (toAsciiLowercase remote.authority ++ '/' :: toAsciiLowercase remote.tail)) =
        remote.place.identity := by
    rw [legal.identity_eq, Remote.lower_tail]
    apply trimmed_tail
    · exact legal.lower_path
    · exact legal.lower_pathEnd
    · exact legal.noSuffix
  have form := legal.form
  rw [← trims]
  cases isForm : remote.form with
  | url scheme credentials =>
      rw [isForm] at form
      obtain ⟨isScheme, clean⟩ := form
      cases credentials with
      | none =>
          have isText : toAsciiLowercase remote.text = toAsciiLowercase scheme ++ "://".toList ++
              (toAsciiLowercase remote.authority ++ '/' :: toAsciiLowercase remote.tail) := by
            rw [Remote.text, isForm]
            dsimp only
            rw [Remote.lower_append, Remote.lower_append, Remote.lower_append,
              Remote.lower_cons]
            rfl
          obtain ⟨noScp, bare⟩ := @bare_url _ (toAsciiLowercase remote.authority ++
            '/' :: toAsciiLowercase remote.tail) isScheme
          apply normalizeRemote_steps (lowered.trans isText)
          · rw [noScp]
          · rw [bare, Option.getD_some]
          · exact anonymous_none noUser
      | some credentials =>
          have isText : toAsciiLowercase remote.text = toAsciiLowercase scheme ++ "://".toList ++
              (toAsciiLowercase credentials ++ '@' ::
                (toAsciiLowercase remote.authority ++ '/' :: toAsciiLowercase remote.tail)) := by
            rw [Remote.text, isForm]
            dsimp only
            rw [Remote.lower_append, Remote.lower_append, Remote.lower_append,
              Remote.lower_cons, Remote.lower_append, Remote.lower_cons]
            rfl
          obtain ⟨noSlash, noMark⟩ := clean credentials rfl
          obtain ⟨noScp, bare⟩ := @bare_url _ (toAsciiLowercase credentials ++ '@' ::
            (toAsciiLowercase remote.authority ++ '/' :: toAsciiLowercase remote.tail)) isScheme
          apply normalizeRemote_steps (lowered.trans isText)
          · rw [noScp]
          · rw [bare, Option.getD_some]
          · apply anonymous_some
            · exact fun member => noSlash ((mem_lower_iff (by decide) (by decide)).mp member)
            · exact fun member => noMark ((mem_lower_iff (by decide) (by decide)).mp member)
  | scp =>
      obtain ⟨noColon, noPort, -⟩ := legal.scp isForm
      have isHost : remote.authority = remote.host := by
        rw [Remote.authority, noPort]
        exact List.append_nil _
      have isText : toAsciiLowercase remote.text = "git@".toList ++
          (toAsciiLowercase remote.authority ++ ':' :: toAsciiLowercase remote.tail) := by
        rw [Remote.text, isForm, isHost]
        dsimp only
        rw [Remote.lower_append, Remote.lower_append, Remote.lower_cons]
        rfl
      have noColonToo : ':' ∉ toAsciiLowercase remote.authority := fun member =>
        noColon (isHost ▸ (mem_lower_iff (by decide) (by decide)).mp member)
      have isScp : (match "git@".toList.isPrefixOf? ("git@".toList ++
            (toAsciiLowercase remote.authority ++ ':' :: toAsciiLowercase remote.tail)) with
          | some rest => Text.replaceFirst ':' '/' rest
          | none => "git@".toList ++
            (toAsciiLowercase remote.authority ++ ':' :: toAsciiLowercase remote.tail)) =
          toAsciiLowercase remote.authority ++ '/' :: toAsciiLowercase remote.tail := by
        rw [Text.isPrefixOf?_append]
        exact Text.replaceFirst_append noColonToo
      apply normalizeRemote_steps (lowered.trans isText) isScp
      · rw [bare_host (fun member => legal.noSlash
          ((mem_lower_iff (by decide) (by decide)).mp member))
          (fun ends => noColonToo (List.mem_of_getLast? ends)), Option.getD_none]
      · exact anonymous_none noUser

namespace Remote

variable {remote : Remote}

theorem Legal.authority_ascii (legal : remote.Legal) :
    ∀ char ∈ remote.authority, char.toNat < 128 := by
  intro char member
  apply legal.ascii
  rw [text]
  split
  case h_1 =>
    exact List.mem_append_right _ (List.mem_append_left _ member)
  case h_2 =>
    exact List.mem_append_right _ (List.mem_append_right _
      (List.mem_cons_of_mem _ (List.mem_append_left _ member)))
  case h_3 isForm =>
    rw [authority, (legal.scp isForm).2.1] at member
    rcases List.mem_append.mp member with inHost | inPort
    · exact List.mem_append_right _ (List.mem_append_left _ inHost)
    · cases inPort

theorem Legal.path_ascii (legal : remote.Legal) : ∀ char ∈ remote.path, char.toNat < 128 := by
  intro char member
  apply legal.ascii
  obtain ⟨front, isText⟩ := @text_tail remote
  rw [isText, tail]
  exact List.mem_append_right front (List.mem_append_left _ (List.mem_append_left _ member))

theorem Legal.lower_ascii (legal : remote.Legal) :
    ∀ char ∈ remote.place.identity, char.toNat < 128 := by
  intro char member
  rw [legal.identity_eq] at member
  rcases List.mem_append.mp member with inAuthority | inPath
  · obtain ⟨before, isBefore, rfl⟩ := List.mem_map.mp inAuthority
    exact toLower_ascii (legal.authority_ascii before isBefore)
  · rcases List.mem_cons.mp inPath with rfl | inPath
    · decide
    · obtain ⟨before, isBefore, rfl⟩ := List.mem_map.mp inPath
      exact toLower_ascii (legal.path_ascii before isBefore)

theorem Legal.lower_identity (legal : remote.Legal) :
    toAsciiLowercase remote.place.identity = remote.place.identity := by
  rw [legal.identity_eq, lower_append, lower_cons, lower_lower, lower_lower]
  rfl

theorem Legal.trim_identity (legal : remote.Legal) :
    Text.trim remote.place.identity = remote.place.identity := by
  apply Text.trim_eq_self
  · intro char isHead
    cases isHost : remote.host with
    | nil => exact absurd isHost legal.host
    | cons first rest =>
        have isFirst : char = first.toLower := by
          simp only [Place.identity, place, isHost, lower_cons, List.cons_append,
            List.head?_cons, Option.mem_def, Option.some.injEq] at isHead
          exact isHead.symm
        rw [isFirst, Text.toLower_blank]
        exact (legal.hostChars first (isHost ▸ List.mem_cons_self)).2.2
  · intro char ends
    obtain ⟨last, isLast⟩ := Option.isSome_iff_exists.mp (List.getLast?_isSome.mpr legal.path)
    have lowered : (toAsciiLowercase remote.path).getLast? = some last.toLower := by
      rw [toAsciiLowercase, List.getLast?_map, isLast, Option.map_some]
    rw [Place.identity, ← List.singleton_append, ← List.append_assoc, List.getLast?_append,
      place, lowered, Option.some_or] at ends
    cases ends
    rw [Text.toLower_blank]
    exact (legal.pathEnd last isLast).2

end Remote

/-- An identity is its own. -/
theorem normalizeRemote_identity {remote : Remote} (ascii : lowercase.Ascii)
    (legal : remote.Legal) :
    normalizeRemote lowercase (String.ofList remote.place.identity) =
      remote.place.identity := by
  have lowered : lowercase.apply (Text.trim (String.ofList remote.place.identity).toList) =
      toAsciiLowercase remote.authority ++ '/' :: toAsciiLowercase remote.path := by
    rw [String.toList_ofList, legal.trim_identity, ascii _ legal.lower_ascii,
      legal.lower_identity]
    exact legal.identity_eq
  have noUser : '@' ∉ toAsciiLowercase remote.authority := fun member =>
    legal.noUser ((mem_lower_iff (by decide) (by decide)).mp member)
  have noSlash : '/' ∉ toAsciiLowercase remote.authority := fun member =>
    legal.noSlash ((mem_lower_iff (by decide) (by decide)).mp member)
  have noColon : (toAsciiLowercase remote.authority).getLast? ≠ some ':' := by
    intro ends
    rw [toAsciiLowercase, List.getLast?_map, Option.map_eq_some_iff] at ends
    obtain ⟨last, isLast, lowers⟩ := ends
    rw [(Text.toLower_eq_iff (by decide) (by decide)).mp lowers] at isLast
    exact legal.noColon isLast
  have trims := @trimmed_tail (toAsciiLowercase remote.authority)
    (toAsciiLowercase remote.path) false 0 legal.lower_path legal.lower_pathEnd legal.noSuffix
  rw [if_neg Bool.false_ne_true, List.append_nil, List.replicate_zero, List.append_nil] at trims
  rw [normalizeRemote_steps lowered (by rw [scp_host noUser])
    (by rw [bare_host noSlash noColon, Option.getD_none]) (anonymous_none noUser), trims]
  exact legal.identity_eq.symm

namespace Remote

variable {one two : Remote}

theorem Legal.lower_brackets (legal : one.Legal)
    (colon : ':' ∈ toAsciiLowercase one.host) :
    (toAsciiLowercase one.host).getLast? = some ']' := by
  rw [toAsciiLowercase, List.getLast?_map,
    legal.brackets ((mem_lower_iff (by decide) (by decide)).mp colon)]
  rfl

/-- A host is not another with a port. -/
theorem host_ne_port {host other digits : List Char}
    (brackets : ':' ∈ host → host.getLast? = some ']') (nonempty : digits ≠ [])
    (areDigits : ∀ char ∈ digits, char.isDigit = true) : host ≠ other ++ ':' :: digits := by
  intro same
  obtain ⟨front, last, rfl⟩ := List.eq_nil_or_concat digits |>.resolve_left nonempty
  have inBrackets := brackets (same ▸ List.mem_append_right other List.mem_cons_self)
  rw [same, List.concat_eq_append, ← List.cons_append, ← List.append_assoc,
    List.getLast?_concat, Option.some.injEq] at inBrackets
  have isDigit := areDigits last (by simp)
  rw [inBrackets] at isDigit
  cases isDigit

theorem authority_inj (legal : one.Legal) (other : two.Legal)
    (same : toAsciiLowercase one.host ++ portText one.port =
      toAsciiLowercase two.host ++ portText two.port) :
    toAsciiLowercase one.host = toAsciiLowercase two.host ∧ one.port = two.port := by
  have noColon (remote : Remote) (legal : remote.Legal) (digits : List Char)
      (isPort : remote.port = some digits) : ':' ∉ digits.reverse := by
    intro member
    exact absurd ((legal.port digits isPort).2 ':' (List.mem_reverse.mp member)) (by decide)
  cases isPort : one.port with
  | none =>
      rw [isPort, portText, List.append_nil] at same
      cases otherPort : two.port with
      | none =>
          rw [otherPort, portText, List.append_nil] at same
          exact ⟨same, rfl⟩
      | some digits =>
          rw [otherPort] at same
          obtain ⟨nonempty, areDigits⟩ := other.port digits otherPort
          exact absurd same (host_ne_port legal.lower_brackets nonempty areDigits)
  | some digits =>
      rw [isPort] at same
      cases otherPort : two.port with
      | none =>
          rw [otherPort, portText, portText, List.append_nil] at same
          obtain ⟨nonempty, areDigits⟩ := legal.port digits isPort
          exact absurd same.symm (host_ne_port other.lower_brackets nonempty areDigits)
      | some digitsToo =>
          rw [otherPort] at same
          have reversed := congrArg List.reverse same
          rw [portText, portText, List.reverse_append, List.reverse_append, List.reverse_cons,
            List.reverse_cons, List.append_assoc, List.append_assoc] at reversed
          obtain ⟨ports, hosts⟩ := Text.append_mark_inj (noColon one legal digits isPort)
            (noColon two other digitsToo otherPort) reversed
          exact ⟨List.reverse_injective hosts,
            congrArg some (List.reverse_injective ports)⟩

/-- Repositories of one identity are one. -/
theorem identity_inj (legal : one.Legal) (other : two.Legal) :
    one.place.identity = two.place.identity ↔ one.place = two.place := by
  constructor
  · intro same
    have noSlash (remote : Remote) (legal : remote.Legal) :
        '/' ∉ toAsciiLowercase remote.host ++ portText remote.port := by
      rw [← legal.lower_port, ← lower_append]
      exact fun member => legal.noSlash ((mem_lower_iff (by decide) (by decide)).mp member)
    obtain ⟨authorities, paths⟩ :=
      Text.append_mark_inj (noSlash one legal) (noSlash two other) same
    obtain ⟨hosts, ports⟩ := authority_inj legal other authorities
    have folded : toAsciiLowercase one.path = toAsciiLowercase two.path := paths
    rw [place, place, hosts, ports, folded]
  · intro same
    rw [same]

/-- The scheme of a spelling as a node compares it. -/
def scheme (remote : Remote) : List Char :=
  match remote.form with
  | .url scheme _ => toAsciiLowercase scheme
  | .scp => "ssh".toList

/-- What stands before the host. -/
def user (remote : Remote) : List Char :=
  match remote.form with
  | .url _ none => []
  | .url _ (some credentials) => credentials ++ ['@']
  | .scp => "git@".toList

/-- The path with its `.git`. -/
def stem (remote : Remote) : List Char :=
  remote.path ++ if remote.dotGit then ".git".toList else []

theorem Legal.stem_end (legal : one.Legal) :
    one.stem ≠ [] ∧ one.stem.getLast? ≠ some '/' := by
  refine ⟨fun empty => legal.path (List.append_eq_nil_iff.mp empty).1, ?_⟩
  rw [stem]
  cases one.dotGit with
  | false =>
      rw [if_neg Bool.false_ne_true, List.append_nil]
      exact fun ends => (legal.pathEnd '/' ends).1 rfl
  | true =>
      have isEnd : ".git".toList.getLast? = some 't' := by decide
      rw [if_pos rfl, List.getLast?_append, isEnd, Option.some_or]
      decide

theorem Legal.strip_stem (legal : one.Legal) : stripGitSuffix one.stem = one.path := by
  have apart : ¬ ".git".toList <:+ one.path := by
    intro isSuffix
    apply legal.noSuffix
    exact isSuffix.map Char.toLower
  rw [stripGitSuffix, stem, List.isSuffixOf?]
  cases one.dotGit with
  | false =>
      rw [if_neg Bool.false_ne_true, List.append_nil, Text.isPrefixOf?_none fun isPrefix =>
        apart (List.reverse_prefix.mp isPrefix)]
      rfl
  | true =>
      rw [if_pos rfl, List.reverse_append, Text.isPrefixOf?_append, Option.map_some,
        Option.getD_some, List.reverse_reverse]

theorem Legal.user_noSlash (legal : one.Legal) : '/' ∉ one.user ++ one.authority := by
  have form := legal.form
  intro member
  rcases List.mem_append.mp member with inUser | inAuthority
  · rw [user] at inUser
    split at inUser
    case h_1 => cases inUser
    case h_2 isForm =>
      rw [isForm] at form
      rcases List.mem_append.mp inUser with inCredentials | isMark
      · exact (form.2 _ rfl).1 inCredentials
      · cases List.mem_singleton.mp isMark
    case h_3 => exact absurd inUser (by decide)
  · exact legal.noSlash inAuthority

end Remote

/-- Where a node splits and trims what follows a scheme. -/
theorem located_eq {scheme who stem : List Char} (noSlash : '/' ∉ who)
    (nonempty : stem ≠ []) (ends : stem.getLast? ≠ some '/') :
    located scheme (who ++ '/' :: stem) =
      scheme ++ "://".toList ++ foldHost who ++ '/' :: stripGitSuffix stem := by
  have lasts : (who ++ '/' :: stem).getLast? = stem.getLast? := by
    obtain ⟨front, last, rfl⟩ := List.eq_nil_or_concat stem |>.resolve_left nonempty
    simp only [List.concat_eq_append, ← List.cons_append, ← List.append_assoc,
      List.getLast?_concat]
  rw [located, Text.trimEndMatches_eq_self (lasts ▸ ends), Text.splitOnce_append noSlash,
    Option.getD_some]
  dsimp only
  rw [Text.trimEndMatches_eq_self ends]

theorem Remote.Legal.foldHost {remote : Remote} (legal : remote.Legal) :
    foldHost (remote.user ++ remote.authority) =
      remote.user ++ toAsciiLowercase remote.authority := by
  have form := legal.form
  cases isForm : remote.form with
  | url scheme credentials =>
      rw [isForm] at form
      cases credentials with
      | none =>
          have noUser : remote.user = [] := by rw [Remote.user, isForm]
          rw [noUser, List.nil_append, NookOs.Jobs.foldHost, Text.splitOnce_none legal.noUser]
          rfl
      | some credentials =>
          have isUser : remote.user = credentials ++ ['@'] := by rw [Remote.user, isForm]
          rw [isUser, List.append_assoc, List.singleton_append, NookOs.Jobs.foldHost,
            Text.splitOnce_append (form.2 credentials rfl).2, List.append_assoc]
          rfl
  | scp =>
      have isUser : remote.user = "git".toList ++ ['@'] := by
        rw [Remote.user, isForm]
        rfl
      rw [isUser, List.append_assoc, List.singleton_append, NookOs.Jobs.foldHost,
        Text.splitOnce_append (by decide), List.append_assoc]
      rfl

/-- The place of every spelling, as a node compares it. -/
theorem normalizedRemote_text {remote : Remote} (legal : remote.Legal) :
    normalizedRemote remote.text = remote.scheme ++ "://".toList ++
      (remote.user ++ toAsciiLowercase remote.authority) ++ '/' :: remote.path := by
  have tailed : remote.tail = remote.stem ++ List.replicate remote.slashes '/' := rfl
  have trimmed (front : List Char) : Text.trimEndMatches '/' (front ++ remote.tail) =
      front ++ remote.stem := by
    obtain ⟨nonempty, ends⟩ := legal.stem_end
    rw [tailed, ← List.append_assoc, Text.trimEndMatches_replicate]
    have kept := Text.trimEndMatches_eq_self ends
    rw [Text.trimEndMatches_append (by rwa [kept]), kept]
  have place := @located_eq remote.scheme _ remote.stem legal.user_noSlash legal.stem_end.1
    legal.stem_end.2
  rw [legal.foldHost, legal.strip_stem] at place
  rw [← place, normalizedRemote, legal.trim_text]
  have form := legal.form
  cases isForm : remote.form with
  | url scheme credentials =>
      rw [isForm] at form
      have isText : remote.text = scheme ++ "://".toList ++
          (remote.user ++ remote.authority ++ ['/']) ++ remote.tail := by
        rw [Remote.text, Remote.user, isForm]
        cases credentials <;> simp
      have noColon : ':' ∉ scheme := by
        intro member
        have lowered := (mem_lower_iff (by decide) (by decide)).mpr member
        have apart : ∀ scheme ∈ schemes, ':' ∉ scheme := by decide
        exact apart _ form.1 lowered
      have isScheme : remote.scheme = toAsciiLowercase scheme := by
        rw [Remote.scheme, isForm]
      have split : Text.splitOnceOf "://".toList (scheme ++ "://".toList ++
          (remote.user ++ remote.authority ++ '/' :: remote.stem)) = _ :=
        Text.splitOnceOf_append noColon
      rw [isText, trimmed, List.append_assoc, List.append_assoc _ ['/'], List.singleton_append,
        split, isScheme]
  | scp =>
      obtain ⟨noColon, noPort, noScheme⟩ := legal.scp isForm
      have isHost : remote.authority = remote.host := by
        rw [Remote.authority, noPort]
        exact List.append_nil _
      have isUser : remote.user = "git@".toList := by rw [Remote.user, isForm]
      have isScheme : remote.scheme = "ssh".toList := by rw [Remote.scheme, isForm]
      have isText : remote.text = remote.user ++ remote.authority ++ [':'] ++ remote.tail := by
        rw [Remote.text, isForm, isUser, isHost]
        simp
      have noSplit : Text.splitOnceOf "://".toList
          (remote.user ++ remote.authority ++ [':'] ++ remote.stem) = none := by
        apply Text.splitOnceOf_none
        intro within
        apply noScheme
        rw [isText, tailed, ← List.append_assoc]
        exact within.trans (List.prefix_append _ _).isInfix
      have colons : ':' ∉ remote.user ++ remote.authority := by
        rw [isUser, isHost]
        intro member
        rcases List.mem_append.mp member with inUser | inHost
        · exact absurd inUser (by decide)
        · exact noColon inHost
      have nonempty : remote.user ++ remote.authority ≠ [] := by
        rw [isUser]
        exact List.append_ne_nil_of_left_ne_nil (by decide) _
      rw [isText, trimmed, noSplit, List.append_assoc _ [':'], List.singleton_append]
      dsimp only
      rw [scpStyle, Text.splitOnce_append colons]
      dsimp only
      rw [if_pos ⟨nonempty, legal.user_noSlash⟩, isScheme]

namespace Remote

variable {one two : Remote}

theorem Legal.scheme_noColon (legal : one.Legal) : ':' ∉ one.scheme := by
  have form := legal.form
  have apart : ∀ scheme ∈ schemes, ':' ∉ scheme := by decide
  rw [scheme]
  cases isForm : one.form with
  | url scheme credentials =>
      rw [isForm] at form
      exact apart _ form.1
  | scp => decide

theorem Legal.lower_noUser (legal : one.Legal) : '@' ∉ toAsciiLowercase one.authority :=
  fun member => legal.noUser ((mem_lower_iff (by decide) (by decide)).mp member)

/-- What stands before the host is nothing, or ends at the first `@`. -/
theorem Legal.user_cases (legal : one.Legal) :
    one.user = [] ∨ ∃ name, '@' ∉ name ∧ one.user = name ++ ['@'] := by
  have form := legal.form
  rw [user]
  cases isForm : one.form with
  | url scheme credentials =>
      rw [isForm] at form
      cases credentials with
      | none => exact .inl rfl
      | some credentials => exact .inr ⟨credentials, (form.2 credentials rfl).2, rfl⟩
  | scp => exact .inr ⟨"git".toList, by decide, rfl⟩

theorem host_of_user (legal : one.Legal) (other : two.Legal)
    (same : one.user ++ toAsciiLowercase one.authority =
      two.user ++ toAsciiLowercase two.authority) :
    toAsciiLowercase one.authority = toAsciiLowercase two.authority := by
  rcases legal.user_cases with noUser | ⟨name, noMark, isUser⟩
  · rcases other.user_cases with noUserToo | ⟨nameToo, -, isUserToo⟩
    · rwa [noUser, noUserToo] at same
    · rw [noUser, isUserToo, List.nil_append, List.append_assoc] at same
      exact absurd (same ▸ List.mem_append_right nameToo List.mem_cons_self) legal.lower_noUser
  · rcases other.user_cases with noUserToo | ⟨nameToo, noMarkToo, isUserToo⟩
    · rw [isUser, noUserToo, List.nil_append, List.append_assoc] at same
      exact absurd (same ▸ List.mem_append_right name List.mem_cons_self) other.lower_noUser
    · rw [isUser, isUserToo, List.append_assoc, List.append_assoc] at same
      exact (Text.append_mark_inj noMark noMarkToo same).2

/-- Remotes of one place are of one repository. -/
theorem place_of_normalizedRemote (legal : one.Legal) (other : two.Legal)
    (same : normalizedRemote one.text = normalizedRemote two.text) : one.place = two.place := by
  rw [normalizedRemote_text legal, normalizedRemote_text other] at same
  have noSlash (remote : Remote) (legal : remote.Legal) :
      '/' ∉ remote.user ++ toAsciiLowercase remote.authority := by
    intro member
    rcases List.mem_append.mp member with inUser | inAuthority
    · exact legal.user_noSlash (List.mem_append_left _ inUser)
    · exact legal.noSlash ((mem_lower_iff (by decide) (by decide)).mp inAuthority)
  have places : one.scheme ++ ':' :: '/' :: '/' ::
      (one.user ++ toAsciiLowercase one.authority ++ '/' :: one.path) =
        two.scheme ++ ':' :: '/' :: '/' ::
          (two.user ++ toAsciiLowercase two.authority ++ '/' :: two.path) := by
    simpa using same
  have rest := (Text.append_mark_inj legal.scheme_noColon other.scheme_noColon places).2
  obtain ⟨hosts, paths⟩ := Text.append_mark_inj (noSlash one legal) (noSlash two other)
    (List.cons.inj (List.cons.inj rest).2).2
  apply (identity_inj legal other).mp
  rw [legal.identity_eq, other.identity_eq, host_of_user legal other hosts, paths]

end Remote

/-- One repository has one identity: an identity is its own, the spellings of two
repositories, up to letter case, have one exactly where they are the same, and
what a node takes for one place has one identity. -/
theorem one_identity (ascii : lowercase.Ascii) {one two : Remote} (legal : one.Legal)
    (other : two.Legal) :
    normalizeRemote lowercase
        (String.ofList (normalizeRemote lowercase (String.ofList one.text))) =
      normalizeRemote lowercase (String.ofList one.text) ∧
    (normalizeRemote lowercase (String.ofList one.text) =
        normalizeRemote lowercase (String.ofList two.text) ↔ one.place = two.place) ∧
    (normalizedRemote one.text = normalizedRemote two.text →
      normalizeRemote lowercase (String.ofList one.text) =
        normalizeRemote lowercase (String.ofList two.text)) := by
  have identities := Remote.identity_inj legal other
  rw [normalizeRemote_text ascii legal, normalizeRemote_text ascii other]
  refine ⟨normalizeRemote_identity ascii legal, identities, fun same => ?_⟩
  exact identities.mpr (Remote.place_of_normalizedRemote legal other same)

/-- A URL with a user, a password and capitals, and the scp form of the same
repository. -/
def widgetsUrl : Remote where
  form := .url "HTTPS".toList (some "user:pass".toList)
  host := "GitHub.com".toList
  path := "NookOS/Widgets".toList
  dotGit := true
  slashes := 2

def widgetsScp : Remote where
  form := .scp
  host := "github.com".toList
  path := "nookos/widgets".toList

theorem widgetsUrl_legal : widgetsUrl.Legal where
  ascii := by decide
  form := ⟨by decide, by decide⟩
  host := by decide
  hostChars := by decide
  brackets := by decide
  port := nofun
  path := by decide
  pathEnd := by decide
  noSuffix := by decide
  scp := nofun

theorem widgetsScp_legal : widgetsScp.Legal where
  ascii := by decide
  form := trivial
  host := by decide
  hostChars := by decide
  brackets := by decide
  port := nofun
  path := by decide
  pathEnd := by decide
  noSuffix := by decide
  scp := fun _ => by decide

theorem one_identity_widgets :
    normalizeRemote asciiLowercase
        (String.ofList (normalizeRemote asciiLowercase (String.ofList widgetsUrl.text))) =
      normalizeRemote asciiLowercase (String.ofList widgetsUrl.text) ∧
    (normalizeRemote asciiLowercase (String.ofList widgetsUrl.text) =
        normalizeRemote asciiLowercase (String.ofList widgetsScp.text) ↔
      widgetsUrl.place = widgetsScp.place) ∧
    (normalizedRemote widgetsUrl.text = normalizedRemote widgetsScp.text →
      normalizeRemote asciiLowercase (String.ofList widgetsUrl.text) =
        normalizeRemote asciiLowercase (String.ofList widgetsScp.text)) :=
  one_identity (fun _ _ => rfl) widgetsUrl_legal widgetsScp_legal

/-- Two paths that differ in letter case have one identity, two ports of a host
have two, and a user of the scp form other than `git` keeps its colon. -/
theorem identity_differs :
    normalizeRemote asciiLowercase "https://github.com/NookOS/Widgets" =
      normalizeRemote asciiLowercase "https://github.com/nookos/widgets" ∧
    normalizeRemote asciiLowercase "ssh://git@github.com:2222/nookos/widgets" ≠
      normalizeRemote asciiLowercase "ssh://git@github.com/nookos/widgets" ∧
    normalizedRemote "alice@github.com:nookos/widgets".toList =
      normalizedRemote "ssh://alice@github.com/nookos/widgets".toList ∧
    normalizeRemote asciiLowercase "alice@github.com:nookos/widgets" ≠
      normalizeRemote asciiLowercase "ssh://alice@github.com/nookos/widgets" := by
  decide

end Identity

end NookOs.Jobs
