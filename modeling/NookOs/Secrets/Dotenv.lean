/-
Module: NookOs.Secrets.Dotenv
Purpose: The import of secrets from the body of a `.env` file, the files that it reads
  back as they were meant, and what its problems tell of the lines.
Trusted boundary: none
Main exports: checkName, parseDotenv, unquote, Row, Document, eachLineOnce, parseDotenv_iff
-/
import Mathlib.Data.List.Forall2
import NookOs.Lib.Text

namespace NookOs.Secrets.Dotenv

open Lib Lib.Text

section Names

/-- Variables that are set in a session or a job, which an item may not take. -/
def reservedNames : List (List Char) :=
  ["CLAUDE_CONFIG_DIR", "GH_TOKEN", "GIT_SSH_COMMAND", "HOME", "IS_SANDBOX", "LANG", "LC_ALL",
    "NOOK_BUILD_TASK", "NOOK_JOB_ID", "NOOK_JOB_SEED", "NOOK_PORT", "NOOK_PORTS_UNSATISFIED",
    "NOOK_REVIEW_FORCED", "NOOK_REVIEW_PR", "NOOK_SANDBOX", "NOOK_SERVER", "NOOK_SESSION_ID",
    "NOOK_TENANT_ID", "NOOK_TOKEN", "NOOK_WORKSPACE_ID", "PATH"].map String.toList

/-- What is wrong with a line; three of the faults name the name. -/
inductive Fault where
  | notAssignment
  | noName
  | badStart (name : List Char)
  | badChar (name : List Char)
  | reserved (name : List Char)
  | unterminated (quote : Char)
  | dangling
deriving DecidableEq

def Fault.reason : Fault → List Char
  | notAssignment => "not an assignment — expected NAME=value".toList
  | noName => "a secret needs a name".toList
  | badStart name =>
      '\'' :: (name ++ ("' is not a usable environment variable name — it must start " ++
        "with a letter or underscore").toList)
  | badChar name =>
      '\'' :: (name ++ ("' is not a usable environment variable name — letters, digits " ++
        "and underscores only").toList)
  | reserved name => '\'' :: (name ++ "' is set by nook itself and cannot be a secret".toList)
  | unterminated quote => "unterminated ".toList ++ quote :: " quote".toList
  | dangling => "a value ends with a dangling backslash".toList

def isNameChar (char : Char) : Bool := char.isAlphanum || char = '_'

/-- A name that a shell can export, and one that may be set. -/
def checkName : List Char → Except Fault Unit
  | [] => .error .noName
  | first :: rest =>
      if !(first.isAlpha || first = '_') then .error (.badStart (first :: rest))
      else if !rest.all isNameChar then .error (.badChar (first :: rest))
      else if first :: rest ∈ reservedNames then .error (.reserved (first :: rest))
      else .ok ()

end Names

section Parsing

structure SecretImportProblem where
  line : UInt32
  reason : List Char
deriving DecidableEq

/-- Assignments in file order, and the lines that were not one. -/
structure ParsedEnv where
  items : List (List Char × List Char) := []
  problems : List SecretImportProblem := []
deriving DecidableEq

/-- The escapes of a value in double quotes. -/
def unescape : List Char → Except Fault (List Char)
  | [] => .ok []
  | '\\' :: [] => .error .dangling
  | '\\' :: 'n' :: rest => (unescape rest).map ('\n' :: ·)
  | '\\' :: 'r' :: rest => (unescape rest).map ('\r' :: ·)
  | '\\' :: 't' :: rest => (unescape rest).map ('\t' :: ·)
  | '\\' :: other :: rest => (unescape rest).map (other :: ·)
  | char :: rest => (unescape rest).map (char :: ·)

/-- What an unquoted value says is taken as it is. -/
def unquote (value : List Char) : Except Fault (List Char) :=
  match value with
  | [] => .ok []
  | quote :: body =>
      if quote ≠ '"' ∧ quote ≠ '\'' then .ok value
      else
        match body.getLast? with
        | some last =>
            if last ≠ quote then .error (.unterminated quote)
            else if quote = '\'' then .ok body.dropLast
            else unescape body.dropLast
        | none => .error (.unterminated quote)

/-- One line: nothing, an item or a fault. -/
def readLine (raw : List Char) : Option (Except Fault (List Char × List Char)) :=
  let line := trim (trimEndMatches '\r' raw)
  if line = [] ∨ line.head? = some '#' then none
  else
    let assignment :=
      ((("export ".toList).isPrefixOf? line).getD line).dropWhile isWhitespace
    match splitOnce '=' assignment with
    | none => some (.error .notAssignment)
    | some (name, value) =>
        match checkName (trim name) with
        | .error fault => some (.error fault)
        | .ok () =>
            match unquote (trim value) with
            | .ok value => some (.ok (trim name, value))
            | .error fault => some (.error fault)

/-- The lines from one on. -/
def readLines : Nat → List (List Char) → ParsedEnv → ParsedEnv
  | _, [], out => out
  | index, raw :: rest, out =>
      readLines (index + 1) rest <|
        match readLine raw with
        | none => out
        | some (.ok item) => { out with items := out.items ++ [item] }
        | some (.error fault) =>
            { out with
              problems := out.problems ++
                [{ line := UInt32.ofNat index + 1, reason := fault.reason }] }

def parseDotenv (body : List Char) : ParsedEnv := readLines 0 (lines body) {}

end Parsing

/-! ### Files that are meant -/

section Documents

/-- How a value is written. -/
inductive Form where
  | double
  | single
  | bare
deriving DecidableEq

def escape (value : List Char) : List Char :=
  value.flatMap fun char =>
    match char with
    | '\\' => ['\\', '\\']
    | '"' => ['\\', '"']
    | '\n' => ['\\', 'n']
    | '\r' => ['\\', 'r']
    | '\t' => ['\\', 't']
    | other => [other]

def Form.write (value : List Char) : Form → List Char
  | double => '"' :: (escape value ++ ['"'])
  | single => '\'' :: (value ++ ['\''])
  | bare => value

/-- The form can carry the value. -/
def Form.Carries (value : List Char) : Form → Prop
  | double => True
  | single => '\n' ∉ value
  | bare => '\n' ∉ value ∧ trim value = value ∧ value.head? ≠ some '"' ∧ value.head? ≠ some '\''

/-- One line of a file. -/
inductive Row where
  | blank (text : List Char) (isBlank : ∀ char ∈ text, isWhitespace char = true ∧ char ≠ '\n')
  | comment (indent text : List Char)
      (isBlank : ∀ char ∈ indent, isWhitespace char = true ∧ char ≠ '\n') (oneLine : '\n' ∉ text)
  | assignment (exported : Bool) (name value : List Char) (form : Form)
      (isName : checkName name = .ok ()) (carried : form.Carries value)

def exportMark (exported : Bool) : List Char := if exported then "export ".toList else []

def Row.text : Row → List Char
  | blank text _ => text
  | comment indent text _ _ => indent ++ '#' :: text
  | assignment exported name value form _ _ =>
      exportMark exported ++ (name ++ '=' :: form.write value)

def Row.pair : Row → Option (List Char × List Char)
  | assignment _ name value _ _ _ => some (name, value)
  | _ => none

/-- Rows with either line ending, and a last one that may have none. -/
structure Document where
  rows : List (Row × Bool)
  last : Option Row

def Document.text (document : Document) : List Char :=
  (document.rows.flatMap fun (row, crlf) => row.text ++ if crlf then ['\r', '\n'] else ['\n']) ++
    (document.last.map Row.text).getD []

def Document.pairs (document : Document) : List (List Char × List Char) :=
  (document.rows.map Prod.fst ++ document.last.toList).filterMap Row.pair

end Documents

section Properties

/-- A file is read as exactly its pairs, in order, and without a problem. -/
def ReadsBack (document : Document) : Prop :=
  parseDotenv document.text = { items := document.pairs, problems := [] }

/-- What one line gives. -/
inductive Verdict where
  | nothing
  | taken (item : List Char × List Char)
  | refused (problem : SecretImportProblem)
deriving DecidableEq

def Verdict.item : Verdict → Option (List Char × List Char)
  | taken item => some item
  | _ => none

def Verdict.problem : Verdict → Option SecretImportProblem
  | refused problem => some problem
  | _ => none

/-- A line that says nothing. -/
def IsBlankOrComment (raw : List Char) : Prop := trim raw = [] ∨ (trim raw).head? = some '#'

/-- Each line gives nothing, an item or a problem with its number, in order, and nothing
exactly when it is blank or a comment. -/
def EachLineOnce (body : List Char) : Prop :=
  ∃ verdicts : List Verdict,
    List.Forall₂ (fun raw verdict => verdict = .nothing ↔ IsBlankOrComment raw)
      (lines body) verdicts ∧
    (∀ (index : Nat) problem, verdicts[index]? = some (.refused problem) →
      problem.line = UInt32.ofNat index + 1) ∧
    (parseDotenv body).items = verdicts.filterMap Verdict.item ∧
    (parseDotenv body).problems = verdicts.filterMap Verdict.problem

/-- A fault without the name that it has. -/
def Fault.kind : Fault → Fault
  | badStart _ => badStart []
  | badChar _ => badChar []
  | reserved _ => reserved []
  | other => other

def Fault.name : Fault → Option (List Char)
  | badStart name | badChar name | reserved name => some name
  | _ => none

/-- The faults of a body, with their lines. -/
def faults (body : List Char) : List (UInt32 × Fault) :=
  (lines body).zipIdx.filterMap fun (raw, index) =>
    match readLine raw with
    | some (.error fault) => some (UInt32.ofNat index + 1, fault)
    | _ => none

def SameFaults (body other : List Char) : Prop :=
  (faults body).map (fun (line, fault) => (line, fault.kind)) =
    (faults other).map fun (line, fault) => (line, fault.kind)

/-- Two bodies with the same faults on the same lines report the same. -/
def KeepsSilent (body other : List Char) : Prop :=
  SameFaults body other → (parseDotenv body).problems = (parseDotenv other).problems

/-- What stands before the first equals sign of a line, where it is no usable name. -/
def refusedName (raw : List Char) : Option (List Char) :=
  if trim raw = [] ∨ (trim raw).head? = some '#' then none
  else
    let assignment :=
      ((("export ".toList).isPrefixOf? (trim raw)).getD (trim raw)).dropWhile isWhitespace
    match splitOnce '=' assignment with
    | some (name, _) =>
        if trim name = [] ∨ checkName (trim name) = .ok () then none else some (trim name)
    | none => none

def refusedNames (body : List Char) : List (List Char) := (lines body).filterMap refusedName

end Properties

/-! ### Lines -/

section Lines

variable {raw text rest : List Char}

/-- The end of a line is trimmed with the line. -/
theorem trim_trimEndMatches : trim (trimEndMatches '\r' raw) = trim raw := by
  have whole : trimEndMatches '\r' raw ++
      raw.rtakeWhile (fun char => decide (char = '\r')) = raw :=
    List.rdropWhile_append_rtakeWhile ..
  have blank : ∀ char ∈ raw.rtakeWhile (fun char => decide (char = '\r')),
      isWhitespace char = true := by
    intro char member
    have isReturn := List.mem_rtakeWhile_imp member
    rw [of_decide_eq_true isReturn]
    rfl
  conv_rhs => rw [← whole]
  exact (trimmed_append blank).symm

/-- A line without one carriage return at its end. -/
def unended (line : List Char) : List Char :=
  if line.getLast? = some '\r' then line.dropLast else line

theorem trim_unended : trim (unended text) = trim text := by
  unfold unended
  split
  · next ends =>
      obtain ⟨front, rfl⟩ := List.getLast?_eq_some_iff.mp ends
      rw [List.dropLast_concat]
      exact (trimmed_append (by decide)).symm
  · rfl

theorem lines_cons (oneLine : '\n' ∉ text) :
    lines (text ++ '\n' :: rest) = unended text :: lines rest := by
  have pieces : (text ++ '\n' :: rest).splitOn '\n' = text :: rest.splitOn '\n' :=
    List.splitOn_append_cons_self_of_not_mem oneLine rest
  have more := List.splitOn_ne_nil '\n' rest
  rw [lines, lines, pieces, List.dropLast_cons_of_ne_nil more, List.getLast?_cons]
  obtain ⟨front, last, isLast⟩ := List.eq_nil_or_concat _ |>.resolve_left more
  rw [isLast]
  cases last with
  | nil | cons => simp [unended]

theorem lines_single (oneLine : '\n' ∉ text) :
    lines text = if text = [] then [] else [text] := by
  rw [lines, List.splitOn_eq_singleton oneLine]
  cases text with
  | nil | cons => rfl

end Lines

/-! ### What is written is read -/

section Reading

variable {name value raw text : List Char} {char : Char}

theorem toNat_of_isNameChar (isName : isNameChar char = true) :
    (48 ≤ char.toNat ∧ char.toNat ≤ 57) ∨ (65 ≤ char.toNat ∧ char.toNat ≤ 90) ∨
      (97 ≤ char.toNat ∧ char.toNat ≤ 122) ∨ char.toNat = 95 := by
  unfold isNameChar Char.isAlphanum Char.isAlpha Char.isUpper Char.isLower at isName
  simp only [Char.isDigit, Bool.or_eq_true, Bool.and_eq_true, decide_eq_true_eq, ge_iff_le,
    UInt32.le_iff_toNat_le] at isName
  have same : char.val.toNat = char.toNat := rfl
  rcases isName with ((upper | lower) | digit) | rfl
  · exact .inr (.inl upper)
  · exact .inr (.inr (.inl lower))
  · exact .inl digit
  · exact .inr (.inr (.inr rfl))

theorem notBlank_of_isNameChar (isName : isNameChar char = true) :
    isWhitespace char = false := by
  have range := toNat_of_isNameChar isName
  simp only [isWhitespace, List.mem_cons, List.not_mem_nil, or_false, Bool.or_eq_false_iff,
    Bool.and_eq_false_iff, decide_eq_false_iff_not]
  omega

/-- A name that is taken has a first character, and none but those of names. -/
theorem checkName_ok (isName : checkName name = .ok ()) :
    name ≠ [] ∧ ∀ char ∈ name, isNameChar char = true := by
  cases name with
  | nil => cases isName
  | cons first rest =>
      rw [checkName] at isName
      split_ifs at isName with badStart badChar reserved
      refine ⟨List.cons_ne_nil first rest, ?_⟩
      rintro char (_ | ⟨_, inRest⟩)
      · simp only [Bool.not_eq_true, Bool.not_eq_false', Bool.or_eq_true,
          decide_eq_true_eq] at badStart
        simp only [isNameChar, Char.isAlphanum, Bool.or_eq_true, decide_eq_true_eq]
        exact badStart.imp_left .inl
      · simp only [Bool.not_eq_true, Bool.not_eq_false'] at badChar
        exact List.all_eq_true.mp badChar char inRest

/-- What neither begins nor ends with a blank. -/
theorem getLast_notBlank (trimmed : trim text = text) :
    ∀ char ∈ text.getLast?, isWhitespace char = false := by
  intro char isLast
  have kept : (trim text).rdropWhile isWhitespace = trim text :=
    List.rdropWhile_idempotent ..
  rw [trimmed] at kept
  have nonempty : text ≠ [] := by
    rintro rfl
    cases isLast
  have ends := List.rdropWhile_eq_self_iff.mp kept nonempty
  rw [List.getLast?_eq_some_getLast nonempty, Option.mem_some_iff] at isLast
  rw [← isLast]
  exact Bool.not_eq_true _ ▸ ends

theorem escape_cons : escape (char :: text) = escape [char] ++ escape text := by
  rw [escape, List.flatMap_cons, escape, List.flatMap_singleton]
  rfl

/-- An escaped value is read as the value. -/
theorem unescape_escape : unescape (escape value) = .ok value := by
  induction value with
  | nil => rfl
  | cons char value ih =>
      rw [escape_cons]
      by_cases escaped : char = '\\' ∨ char = '"' ∨ char = '\n' ∨ char = '\r' ∨ char = '\t'
      · rcases escaped with rfl | rfl | rfl | rfl | rfl <;>
          exact congrArg (Except.map _) ih
      · simp only [not_or] at escaped
        obtain ⟨backslash, quote, newline, carriage, tab⟩ := escaped
        have itself : escape [char] = [char] := by
          simp only [escape, List.flatMap_singleton]
        rw [itself, List.singleton_append, unescape, ih]
        · rfl
        all_goals
          intros
          contradiction

/-- Each form of a value that it carries is read as the value. -/
theorem unquote_write {form : Form} (carried : form.Carries value) :
    unquote (form.write value) = .ok value := by
  cases form with
  | double =>
      rw [Form.write, unquote, if_neg (by decide), List.getLast?_concat]
      dsimp only
      rw [if_neg (by decide), if_neg (by decide), List.dropLast_concat, unescape_escape]
  | single =>
      rw [Form.write, unquote, if_neg (by decide), List.getLast?_concat]
      dsimp only
      rw [if_neg (by decide), if_pos rfl, List.dropLast_concat]
  | bare =>
      obtain ⟨-, -, notDouble, notSingle⟩ := carried
      cases value with
      | nil => rfl
      | cons first rest =>
          have unquoted : first ≠ '"' ∧ first ≠ '\'' :=
            ⟨fun same => notDouble (congrArg some same),
              fun same => notSingle (congrArg some same)⟩
          rw [Form.write, unquote, if_pos unquoted]

end Reading

/-! ### Rows and files -/

variable {value : List Char}

section Files

variable {raw text rest : List Char}

/-- A line is read as what is left of it when it is trimmed. -/
theorem readLine_congr {other : List Char} (same : trim raw = trim other) :
    readLine raw = readLine other := by
  rw [readLine, readLine, trim_trimEndMatches, trim_trimEndMatches, same]

theorem readLine_none : readLine raw = none ↔ IsBlankOrComment raw := by
  rw [readLine, trim_trimEndMatches]
  dsimp only
  constructor
  · intro nothing
    by_contra something
    rw [if_neg (show ¬ (trim raw = [] ∨ (trim raw).head? = some '#') from something)] at nothing
    split at nothing
    · cases nothing
    · split at nothing
      · cases nothing
      · split at nothing <;> cases nothing
  · intro blank
    exact if_pos blank

theorem oneLine_escape : '\n' ∉ escape value := by
  intro member
  obtain ⟨char, -, written⟩ := List.mem_flatMap.mp member
  split at written
  case h_6 newline _ _ => exact newline (List.mem_singleton.mp written).symm
  all_goals exact absurd written (by decide)

theorem oneLine_write {form : Form} (carried : form.Carries value) :
    '\n' ∉ form.write value := by
  intro member
  cases form with
  | double =>
      rcases List.mem_cons.mp member with isQuote | member
      · cases isQuote
      · rcases List.mem_append.mp member with inValue | isQuote
        · exact oneLine_escape inValue
        · exact absurd isQuote (by decide)
  | single =>
      rcases List.mem_cons.mp member with isQuote | member
      · cases isQuote
      · rcases List.mem_append.mp member with inValue | isQuote
        · exact carried inValue
        · exact absurd isQuote (by decide)
  | bare => exact carried.1 member

/-- What is written of a value has no blank around it. -/
theorem trim_write {form : Form} (carried : form.Carries value) :
    trim (form.write value) = form.write value := by
  have quoted (quote : Char) (notBlank : isWhitespace quote = false) (body : List Char) :
      trim (quote :: (body ++ [quote])) = quote :: (body ++ [quote]) := by
    apply trim_eq_self
    · rintro char ⟨⟩
      exact notBlank
    · intro char isLast
      rw [← List.cons_append, List.getLast?_concat] at isLast
      cases isLast
      exact notBlank
  cases form with
  | double => exact quoted '"' rfl (escape value)
  | single => exact quoted '\'' rfl value
  | bare => exact carried.2.1

theorem head_trim {first : Char} (notBlank : isWhitespace first = false) :
    (trim (first :: rest)).head? = some first := by
  have kept : trim (first :: rest) = (first :: rest).rdropWhile isWhitespace := by
    rw [trim, List.dropWhile_cons_of_neg (Bool.not_eq_true _ ▸ notBlank)]
  obtain ⟨back, whole⟩ := List.rdropWhile_prefix isWhitespace (first :: rest)
  rw [← kept] at whole
  cases same : trim (first :: rest) with
  | nil =>
      rw [kept, List.rdropWhile_eq_nil_iff] at same
      exact absurd (same first List.mem_cons_self) (Bool.not_eq_true _ ▸ notBlank)
  | cons other front =>
      rw [same, List.cons_append] at whole
      cases whole
      rfl

/-- The text of a row is one line. -/
theorem oneLine_text (row : Row) : '\n' ∉ row.text := by
  intro member
  cases row with
  | blank text isBlank => exact (isBlank _ member).2 rfl
  | comment indent text isBlank oneLine =>
      rcases List.mem_append.mp member with inIndent | inText
      · exact (isBlank _ inIndent).2 rfl
      · rcases List.mem_cons.mp inText with isMark | inText
        · cases isMark
        · exact oneLine inText
  | assignment exported name value form isName carried =>
      rcases List.mem_append.mp member with inExport | inPair
      · cases exported
        · cases inExport
        · exact absurd inExport (by decide)
      · rcases List.mem_append.mp inPair with inName | inValue
        · exact absurd ((checkName_ok isName).2 _ inName) (by decide)
        · rcases List.mem_cons.mp inValue with isMark | inValue
          · cases isMark
          · exact oneLine_write carried inValue

/-- A name begins with a character of names. -/
theorem exists_first {name : List Char} (isName : checkName name = .ok ()) :
    ∃ first front, name = first :: front ∧ isNameChar first = true := by
  obtain ⟨nonempty, ofNames⟩ := checkName_ok isName
  obtain ⟨first, front, rfl⟩ := List.exists_cons_of_ne_nil nonempty
  exact ⟨first, front, rfl, ofNames first List.mem_cons_self⟩

section Assignments

variable {exported : Bool} {name written : List Char}

/-- An export is stripped, and a name that begins like one is not. -/
theorem stripped_export (isName : checkName name = .ok ()) :
    ((("export ".toList).isPrefixOf? (exportMark exported ++ (name ++ '=' :: written))).getD
      (exportMark exported ++ (name ++ '=' :: written))).dropWhile isWhitespace =
        name ++ '=' :: written := by
  have kept : (name ++ '=' :: written).dropWhile isWhitespace = name ++ '=' :: written := by
    obtain ⟨first, front, rfl, firstIsName⟩ := exists_first isName
    rw [List.cons_append, List.dropWhile_cons_of_neg]
    exact Bool.not_eq_true _ ▸ notBlank_of_isNameChar firstIsName
  cases exported with
  | true => rw [exportMark, if_pos rfl, isPrefixOf?_append, Option.getD_some, kept]
  | false =>
      have apart : ¬ "export ".toList <+: name ++ '=' :: written := by
        intro isPrefix
        have inName := (prefix_of_append_mark isPrefix (by decide)).subset
          (show ' ' ∈ "export ".toList by decide)
        exact absurd ((checkName_ok isName).2 _ inName) (by decide)
      rw [exportMark, if_neg Bool.false_ne_true, List.nil_append, isPrefixOf?_none apart,
        Option.getD_none, kept]

/-- An assignment begins with a character of names, exported or not. -/
theorem exists_begins (isName : checkName name = .ok ()) : ∃ begins more,
    exportMark exported ++ (name ++ '=' :: written) = begins :: more ∧
      isNameChar begins = true := by
  cases exported with
  | true => exact ⟨'e', _, rfl, rfl⟩
  | false =>
      obtain ⟨first, front, rfl, firstIsName⟩ := exists_first isName
      exact ⟨first, front ++ '=' :: written, rfl, firstIsName⟩

theorem trim_assignment (isName : checkName name = .ok ()) (trimmed : trim written = written) :
    trim (exportMark exported ++ (name ++ '=' :: written)) =
      exportMark exported ++ (name ++ '=' :: written) := by
  apply trim_eq_self
  · obtain ⟨begins, more, starts, beginsName⟩ := exists_begins isName
    rw [starts]
    rintro char ⟨⟩
    exact notBlank_of_isNameChar beginsName
  · intro char isLast
    rw [← List.append_assoc, List.getLast?_append_cons] at isLast
    cases written with
    | nil =>
        cases isLast
        rfl
    | cons first rest => exact getLast_notBlank trimmed char isLast

theorem readLine_assignment (isName : checkName name = .ok ())
    (trimmed : trim written = written) (unquoted : unquote written = .ok value) :
    readLine (exportMark exported ++ (name ++ '=' :: written)) = some (.ok (name, value)) := by
  have ofNames := (checkName_ok isName).2
  have splits : splitOnce '=' (name ++ '=' :: written) = some (name, written) :=
    splitOnce_append fun member => absurd (ofNames _ member) (by decide)
  have trimName : trim name = name := trim_eq_self
    (fun char isFirst => notBlank_of_isNameChar (ofNames char (List.mem_of_mem_head? isFirst)))
    (fun char isLast => notBlank_of_isNameChar (ofNames char (List.mem_of_mem_getLast? isLast)))
  have something : ¬ (exportMark exported ++ (name ++ '=' :: written) = [] ∨
      (exportMark exported ++ (name ++ '=' :: written)).head? = some '#') := by
    obtain ⟨begins, more, starts, beginsName⟩ := exists_begins isName
    rw [starts]
    rintro (isNil | isMark)
    · cases isNil
    · cases isMark
      exact absurd beginsName (by decide)
  rw [readLine, trim_trimEndMatches, trim_assignment isName trimmed]
  dsimp only
  rw [if_neg something, stripped_export isName, splits]
  dsimp only
  rw [trimName, isName]
  dsimp only
  rw [trimmed, unquoted]

end Assignments

/-- A row is read as its pair. -/
theorem readLine_text (row : Row) : readLine row.text = row.pair.map .ok := by
  cases row with
  | blank text isBlank =>
      have nothing : trim ([] ++ text) = trim [] :=
        trimmed_append fun char member => (isBlank char member).1
      exact readLine_none.mpr (.inl nothing)
  | comment indent text isBlank oneLine =>
      have trimmed : trim (indent ++ '#' :: text) = trim ('#' :: text) :=
        trimmed_blank fun char member => (isBlank char member).1
      refine readLine_none.mpr (.inr ?_)
      rw [Row.text, trimmed]
      exact head_trim rfl
  | assignment exported name value form isName carried =>
      exact readLine_assignment isName (trim_write carried) (unquote_write carried)

/-- The rows of a file are read in order, and none is a problem. -/
theorem readLines_rows (rows : List (Row × Bool)) (last : Option Row) (index : Nat)
    (out : ParsedEnv) :
    readLines index (lines ({ rows := rows, last := last } : Document).text) out =
      { out with items := out.items ++ ({ rows := rows, last := last } : Document).pairs } := by
  induction rows generalizing index out with
  | nil =>
      cases last with
      | none => exact congrArg (ParsedEnv.mk · out.problems) (List.append_nil _).symm
      | some row =>
          have atEnd : lines row.text = if row.text = [] then [] else [row.text] :=
            lines_single (oneLine_text row)
          have read := readLine_text row
          change readLines index (lines row.text) out = _
          rw [atEnd]
          split
          · next empty =>
              -- an empty row is no line at all, and has no pair
              rw [empty] at read
              have noPair : row.pair = none := by
                cases same : row.pair with
                | none => rfl
                | some pair =>
                    rw [same] at read
                    cases read
              simp [readLines, Document.pairs, noPair]
          · cases same : row.pair <;> simp [readLines, Document.pairs, read, same]
  | cons first rows ih =>
      obtain ⟨row, crlf⟩ := first
      have read := readLine_text row
      have split : ∃ line, lines ({ rows := (row, crlf) :: rows, last := last } : Document).text =
          line :: lines ({ rows := rows, last := last } : Document).text ∧
            readLine line = readLine row.text := by
        cases crlf with
        | true =>
            refine ⟨unended (row.text ++ ['\r']), ?_, ?_⟩
            · have oneLine : '\n' ∉ row.text ++ ['\r'] := by
                intro member
                rcases List.mem_append.mp member with inText | isReturn
                · exact oneLine_text row inText
                · exact absurd isReturn (by decide)
              rw [← lines_cons oneLine]
              simp [Document.text]
            · exact readLine_congr (trim_unended.trans (trimmed_append (by decide)))
        | false =>
            refine ⟨unended row.text, ?_, readLine_congr trim_unended⟩
            rw [← lines_cons (oneLine_text row)]
            simp [Document.text]
      obtain ⟨line, isLine, sameRead⟩ := split
      rw [isLine, readLines, sameRead, read, ih]
      cases same : row.pair <;> simp [Document.pairs, same]

/-- A file is read as what it means. -/
theorem parseDotenv_document (document : Document) : ReadsBack document :=
  (readLines_rows document.rows document.last 0 {}).trans <|
    congrArg (ParsedEnv.mk · []) (List.nil_append _)

end Files

/-! ### Each line, and what is told of it -/

section Verdicts

/-- What a line with its index gives. -/
def verdict (raw : List Char) (index : Nat) : Verdict :=
  match readLine raw with
  | none => .nothing
  | some (.ok item) => .taken item
  | some (.error fault) => .refused { line := UInt32.ofNat index + 1, reason := fault.reason }

theorem readLines_eq (raws : List (List Char)) (index : Nat) (out : ParsedEnv) :
    readLines index raws out =
      { items := out.items ++
          ((raws.zipIdx index).map fun (raw, index) => verdict raw index).filterMap Verdict.item
        problems := out.problems ++
          ((raws.zipIdx index).map fun (raw, index) => verdict raw index).filterMap
            Verdict.problem } := by
  induction raws generalizing index out with
  | nil => simp [readLines]
  | cons raw raws ih =>
      rw [readLines, ih, List.zipIdx_cons, List.map_cons]
      dsimp only
      cases read : readLine raw with
      | none =>
          have first : verdict raw index = .nothing := by rw [verdict, read]
          rw [first, List.filterMap_cons_none rfl, List.filterMap_cons_none rfl]
      | some outcome =>
          cases outcome with
          | ok item =>
              have first : verdict raw index = .taken item := by rw [verdict, read]
              simp only [first, List.filterMap_cons, Verdict.item, Verdict.problem,
                List.append_assoc, List.singleton_append]
          | error fault =>
              have first : verdict raw index =
                  .refused { line := UInt32.ofNat index + 1, reason := fault.reason } := by
                rw [verdict, read]
              simp only [first, List.filterMap_cons, Verdict.item, Verdict.problem,
                List.append_assoc, List.singleton_append]

/-- Each line of a body gives one verdict. -/
theorem eachLineOnce (body : List Char) : EachLineOnce body := by
  refine ⟨(lines body).zipIdx.map fun (raw, index) => verdict raw index, ?_, ?_, ?_, ?_⟩
  · apply List.forall₂_iff_get.mpr
    refine ⟨by rw [List.length_map, List.length_zipIdx], ?_⟩
    intro index inLines inVerdicts
    simp only [List.get_eq_getElem, List.getElem_map, List.getElem_zipIdx]
    rw [← readLine_none, verdict]
    cases read : readLine (lines body)[index] with
    | none => simp
    | some outcome => cases outcome <;> simp
  · intro index problem found
    rw [List.getElem?_map, List.getElem?_zipIdx, Option.map_map, Nat.zero_add] at found
    obtain ⟨raw, -, isRefused⟩ := Option.map_eq_some_iff.mp found
    dsimp only [Function.comp_apply] at isRefused
    rw [verdict] at isRefused
    split at isRefused <;> cases isRefused
    rfl
  · rw [parseDotenv, readLines_eq]
    rfl
  · rw [parseDotenv, readLines_eq]
    rfl

/-- The problems are the faults with their lines. -/
theorem problems_eq (body : List Char) :
    (parseDotenv body).problems =
      (faults body).map fun (line, fault) => { line := line, reason := fault.reason } := by
  rw [parseDotenv, readLines_eq, faults, List.map_filterMap]
  dsimp only
  rw [List.filterMap_map]
  refine (List.nil_append _).trans (List.filterMap_congr ?_)
  rintro ⟨raw, index⟩ -
  rw [Function.comp_apply, verdict]
  cases read : readLine raw with
  | none => rfl
  | some outcome => cases outcome <;> rfl

/-- What is told of a fault of one kind has the name in it, and no more. -/
theorem reason_eq_iff {fault other : Fault} (sameKind : fault.kind = other.kind) :
    fault.reason = other.reason ↔ fault.name = other.name := by
  have quoted (name after : List Char) (told : List Char) :
      '\'' :: (name ++ told) = '\'' :: (after ++ told) ↔ some name = some after := by
    rw [List.cons_inj_right, List.append_cancel_right_eq, Option.some_inj]
  cases fault <;> cases other <;> cases sameKind
  case notAssignment.notAssignment.refl => exact iff_of_true rfl rfl
  case noName.noName.refl => exact iff_of_true rfl rfl
  case badStart.badStart.refl => exact quoted _ _ _
  case badChar.badChar.refl => exact quoted _ _ _
  case reserved.reserved.refl => exact quoted _ _ _
  case unterminated.unterminated.refl => exact iff_of_true rfl rfl
  case dangling.dangling.refl => exact iff_of_true rfl rfl

theorem name_isSome {fault other : Fault} (sameKind : fault.kind = other.kind) :
    fault.name.isSome = other.name.isSome := by
  cases fault <;> cases other <;> cases sameKind <;> rfl

theorem reasons_eq_iff {reported others : List (UInt32 × Fault)}
    (sameKinds : reported.map (fun (line, fault) => (line, fault.kind)) =
      others.map fun (line, fault) => (line, fault.kind)) :
    (reported.map (fun (line, fault) => SecretImportProblem.mk line fault.reason) =
      others.map fun (line, fault) => SecretImportProblem.mk line fault.reason) ↔
        reported.filterMap (fun (_, fault) => fault.name) =
          others.filterMap fun (_, fault) => fault.name := by
  induction reported generalizing others with
  | nil =>
      cases others with
      | nil => exact iff_of_true rfl rfl
      | cons other others => cases sameKinds
  | cons first reported ih =>
      cases others with
      | nil => cases sameKinds
      | cons other others =>
          obtain ⟨line, fault⟩ := first
          obtain ⟨otherLine, otherFault⟩ := other
          simp only [List.map_cons, List.cons.injEq, Prod.mk.injEq] at sameKinds
          obtain ⟨⟨rfl, sameKind⟩, sameRest⟩ := sameKinds
          have named := name_isSome sameKind
          simp only [List.map_cons, List.cons.injEq, SecretImportProblem.mk.injEq, true_and,
            reason_eq_iff sameKind, ih sameRest, List.filterMap_cons]
          cases isName : fault.name <;> cases otherName : otherFault.name <;>
            simp_all

/-- A name that is refused is named, unless there is none. -/
theorem name_of_checkName {name : List Char} {fault : Fault}
    (refused : checkName name = .error fault) :
    fault.name = if name = [] then none else some name := by
  cases name with
  | nil =>
      cases refused
      rfl
  | cons first rest =>
      rw [checkName] at refused
      rw [if_neg (List.cons_ne_nil first rest)]
      split_ifs at refused <;> cases refused <;> rfl

/-- A value that is not unquoted has no name to name. -/
theorem name_of_unescape {fault : Fault}
    (refused : unescape value = .error fault) : fault.name = none := by
  have named : ∀ {rest : List Char} {char : Char},
      (unescape rest).map (char :: ·) = .error fault → unescape rest = .error fault := by
    intro rest char mapped
    cases read : unescape rest with
    | ok text =>
        rw [read] at mapped
        cases mapped
    | error other =>
        rw [read] at mapped
        cases mapped
        rfl
  induction value using unescape.induct with
  | case1 => cases refused
  | case2 =>
      cases refused
      rfl
  | case3 rest ih => exact ih (named refused)
  | case4 rest ih => exact ih (named refused)
  | case5 rest ih => exact ih (named refused)
  | case6 other rest newline carriage tab ih =>
      rw [unescape] at refused
      · exact ih (named refused)
      all_goals assumption
  | case7 char rest single newline carriage tab escaped ih =>
      rw [unescape] at refused
      · exact ih (named refused)
      all_goals assumption

theorem name_of_unquote {fault : Fault}
    (refused : unquote value = .error fault) : fault.name = none := by
  cases value with
  | nil => cases refused
  | cons quote body =>
      rw [unquote] at refused
      split at refused
      · cases refused
      · split at refused
        · split at refused
          · cases refused
            rfl
          · split at refused
            · cases refused
            · exact name_of_unescape refused
        · cases refused
          rfl

/-- The name that a line's fault names is what stands before its equals sign. -/
theorem refusedName_eq (raw : List Char) :
    refusedName raw =
      match readLine raw with
      | some (.error fault) => fault.name
      | _ => none := by
  rw [readLine, trim_trimEndMatches, refusedName]
  dsimp only
  split
  · rfl
  · split
    · next name value splits =>
        rw [splits]
        dsimp only
        cases checked : checkName (trim name) with
        | error fault =>
            dsimp only
            rw [name_of_checkName checked]
            simp
        | ok =>
            rw [if_pos (.inr rfl)]
            dsimp only
            cases unquoted : unquote (trim value) with
            | ok value => rfl
            | error fault => exact (name_of_unquote unquoted).symm
    · next splits =>
        rw [splits]
        rfl

theorem refusedNames_eq (body : List Char) :
    refusedNames body = (faults body).filterMap fun (_, fault) => fault.name := by
  have unnumbered : refusedNames body =
      (lines body).zipIdx.filterMap fun (raw, _) => refusedName raw := by
    rw [refusedNames]
    conv_lhs => rw [← List.zipIdx_map_fst 0 (lines body)]
    exact List.filterMap_map
  rw [unnumbered, faults, List.filterMap_filterMap]
  apply List.filterMap_congr
  rintro ⟨raw, index⟩ -
  dsimp only
  rw [refusedName_eq]
  cases read : readLine raw with
  | none => rfl
  | some outcome => cases outcome <;> rfl

/-- A file is read as it was meant and each line gives one verdict; two bodies with the
same faults report the same exactly where the names that are refused are the same. -/
theorem parseDotenv_iff (document : Document) (body one other : List Char) :
    (ReadsBack document ∧ EachLineOnce body ∧ KeepsSilent one other) ↔
      (SameFaults one other → refusedNames one = refusedNames other) := by
  have silent : KeepsSilent one other ↔
      (SameFaults one other → refusedNames one = refusedNames other) := by
    unfold KeepsSilent
    rw [problems_eq, problems_eq, refusedNames_eq, refusedNames_eq]
    exact forall_congr' fun sameFaults => reasons_eq_iff sameFaults
  exact ⟨fun ⟨_, _, kept⟩ => silent.mp kept, fun kept =>
    ⟨parseDotenv_document document, eachLineOnce body, silent.mpr kept⟩⟩

/-- A secret before the first equals sign of its line is told. -/
theorem parseDotenv_tells : ¬ ∀ one other : List Char, KeepsSilent one other := by
  intro silent
  have same := silent "p@ss=1".toList "q@ss=1".toList rfl
  revert same
  decide

end Verdicts

end NookOs.Secrets.Dotenv
