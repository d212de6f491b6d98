/-
Module: NookOs.Mail.AuthenticationResults
Purpose: The verdict on a sender that a receiver reads off the Authentication-Results header
  of a mail, against the grammar of that header.
Trusted boundary: none
Main exports: reportedBy, spfPassed, spfFailed, Header, verdicts_iff, pass_from_comment
-/
import NookOs.Lib.Text

namespace NookOs.Mail.AuthenticationResults

open Lib Lib.Text

section Model

/-- Two texts are one but for their case. -/
def eqIgnoreAsciiCase (one other : List Char) : Bool :=
  one.map Char.toLower = other.map Char.toLower

/-- Whether the name before the first semicolon is the expected one. -/
def reportedBy (value expected : List Char) : Bool :=
  ((value.splitOn ';').head?.bind fun head => (splitWhitespace head).head?).any
    (eqIgnoreAsciiCase · (trim expected))

/-- Whether the first token of a clause, after the first, is `spf=pass`. -/
def spfPassed (value : List Char) : Bool :=
  (value.splitOn ';').tail.any fun clause =>
    (splitWhitespace clause).head?.any fun token =>
      match splitOnce '=' token with
      | some (method, result) =>
          eqIgnoreAsciiCase method "spf".toList && eqIgnoreAsciiCase result "pass".toList
      | none => false

/-- The reader of the same header for the mail that is pulled from a mailbox. -/
def spfFailed (results : List Char) : Bool :=
  (((results.map Char.toLower).splitOn ';').filterMap fun part =>
      "spf=".toList.isPrefixOf? (trim part)).any
    fun rest => "fail".toList.isPrefixOf (rest.dropWhile isWhitespace)

end Model

/-!
### The grammar of the header

`CFWS` is a gap: blanks and nested comments.  A header is rendered by way of its lexemes.
-/

section Grammar

/-- The content of a comment; what stands alone in it is no bracket and no backslash. -/
inductive Comment where
  | close
  | letter (char : Char) (plain : char ∉ ['(', ')', '\\']) (rest : Comment)
  | pair (char : Char) (rest : Comment)
  | nest (inner rest : Comment)

/-- The comment without its opening bracket. -/
def Comment.text : Comment → List Char
  | close => []
  | letter char _ rest => char :: rest.text
  | pair char rest => '\\' :: char :: rest.text
  | nest inner rest => '(' :: (inner.text ++ ')' :: rest.text)

/-- A character between quotes, as it is or after a backslash. -/
inductive QuotedChar where
  | letter (char : Char) (plain : char ∉ ['"', '\\'])
  | pair (char : Char)

def QuotedChar.text : QuotedChar → List Char
  | letter char _ => [char]
  | pair char => ['\\', char]

def QuotedChar.value : QuotedChar → Char
  | letter char _ => char
  | pair char => char

/-- The characters that no token has. -/
def tspecials : List Char :=
  ['(', ')', '<', '>', '@', ',', ';', ':', '\\', '"', '/', '[', ']', '?', '=']

def isTokenChar (char : Char) : Bool := !isWhitespace char && char ∉ tspecials

def isKeywordChar (char : Char) : Bool := char.isAlphanum || char = '-'

/-- The characters of a local part without quotes and of a domain. -/
def isAddressChar (char : Char) : Bool :=
  !isWhitespace char && char ∉ ['(', ')', '<', '>', '@', ',', ';', ':', '\\', '"', '[', ']']

/-- A word of the grammar. -/
abbrev Token := { text : List Char // text ≠ [] ∧ ∀ char ∈ text, isTokenChar char = true }

/-- A letter-digit word, as for a method or a result. -/
abbrev Keyword := { text : List Char // text ≠ [] ∧ ∀ char ∈ text, isKeywordChar char = true }

/-- A local part without quotes, or a domain. -/
abbrev Address := { text : List Char // text ≠ [] ∧ ∀ char ∈ text, isAddressChar char = true }

/-- A version number. -/
abbrev Digits := { text : List Char // text ≠ [] ∧ ∀ char ∈ text, char.isDigit = true }

/-- A word of the grammar in letters of either case. -/
abbrev Spelling (word : List Char) := { text : List Char // text.map Char.toLower = word }

/-- White space between words. -/
abbrev Blank := { char : Char // char ∈ [' ', '\t', '\r', '\n'] }

/-- A blank or a comment. -/
inductive GapPiece where
  | blank (blank : Blank)
  | comment (comment : Comment)

/-- What may stand between any two words. -/
abbrev Gap := List GapPiece

/-- A gap that is there. -/
abbrev Gap1 := { gap : Gap // gap ≠ [] }

/-- A token, or a quoted string. -/
inductive Value where
  | token (token : Token)
  | quoted (content : List QuotedChar)

/-- What a value means, without its quotes. -/
def Value.meaning : Value → List Char
  | token word => word.val
  | quoted content => content.map QuotedChar.value

/-- What stands before the at sign of an address. -/
inductive LocalPart where
  | dotted (text : Address)
  | quoted (content : List QuotedChar)

/-- The value of a property: a value, or a domain that may follow an at sign, and that a
local part. -/
inductive PValue where
  | value (value : Value)
  | domain (domain : Address)
  | address (localPart : Option LocalPart) (domain : Address)

/-- `reason=`, with why the result is as it is. -/
structure Reason where
  before : Gap1
  spelled : Spelling "reason".toList
  beforeEq : Gap
  afterEq : Gap
  value : Value

/-- A property of the message that was checked. -/
structure PropSpec where
  ptype : Keyword
  beforeDot : Gap
  afterDot : Gap
  property : Keyword
  beforeEq : Gap
  beforeValue : Gap
  value : PValue
  after : Gap

/-- `[CFWS] "/" [CFWS] method-version`. -/
structure MethodVersion where
  before : Gap
  afterSlash : Gap
  digits : Digits
  after : Gap

/-- One result: a semicolon, the method and its verdict. -/
structure ResInfo where
  before : Gap
  first : Gap
  method : Keyword
  version : Option MethodVersion
  beforeEq : Gap
  afterEq : Gap
  result : Keyword
  reason : Option Reason
  properties : Option (Gap1 × PropSpec × List PropSpec)

/-- `[CFWS] ";" [CFWS] "none"`, or the results. -/
inductive Body where
  | noResult (before after : Gap) (spelled : Spelling "none".toList)
  | infos (first : ResInfo) (rest : List ResInfo)

/-- The whole value of the header. -/
structure Header where
  lead : Gap
  authservId : Value
  version : Option (Gap1 × Digits × Gap)
  body : Body
  last : Gap

/-- The results, where there are any. -/
def Body.results : Body → List ResInfo
  | noResult _ _ _ => []
  | infos first rest => first :: rest

end Grammar

section Lexemes

/-- The pieces that a header is written in. -/
inductive Lexeme where
  | blank (blank : Blank)
  | comment (comment : Comment)
  | quoted (content : List QuotedChar)
  | word (text : { text : List Char // ';' ∉ text })
  | semicolon

/-- The piece as it is written. -/
def Lexeme.text : Lexeme → List Char
  | blank char => [char.val]
  | comment content => '(' :: (content.text ++ [')'])
  | quoted content => '"' :: (content.flatMap QuotedChar.text ++ ['"'])
  | word text => text.val
  | semicolon => [';']

/-- A comment or a quoted string, in which a semicolon may stand. -/
def Lexeme.isString : Lexeme → Bool
  | comment _ | quoted _ => true
  | _ => false

/-- The pieces, one after the other. -/
def render (lexemes : List Lexeme) : List Char := lexemes.flatMap Lexeme.text

/-- A word has no semicolon. -/
theorem semicolon_notMem {test : Char → Bool} {text : List Char} (other : test ';' = false)
    (holds : ∀ char ∈ text, test char = true) : ';' ∉ text := by
  intro member
  rw [holds _ member] at other
  cases other

def Token.lexeme (token : Token) : Lexeme :=
  .word ⟨token.val, semicolon_notMem (by decide) token.2.2⟩

def Keyword.lexeme (keyword : Keyword) : Lexeme :=
  .word ⟨keyword.val, semicolon_notMem (by decide) keyword.2.2⟩

def Address.lexeme (address : Address) : Lexeme :=
  .word ⟨address.val, semicolon_notMem (by decide) address.2.2⟩

def Digits.lexeme (digits : Digits) : Lexeme :=
  .word ⟨digits.val, semicolon_notMem (by decide) digits.2.2⟩

def Spelling.lexeme {word : List Char} (spelled : Spelling word) (plain : ';' ∉ word) : Lexeme :=
  .word ⟨spelled.val, fun member => plain <| by
    have lowered := @List.mem_map_of_mem _ _ _ _ Char.toLower member
    rwa [spelled.2] at lowered⟩

def equals : Lexeme := .word ⟨['='], by decide⟩

def GapPiece.lexeme : GapPiece → Lexeme
  | blank char => .blank char
  | comment content => .comment content

def Gap.lexemes (gap : Gap) : List Lexeme := gap.map GapPiece.lexeme

def Value.lexeme : Value → Lexeme
  | token word => Token.lexeme word
  | quoted content => .quoted content

def LocalPart.lexeme : LocalPart → Lexeme
  | dotted text => Address.lexeme text
  | quoted content => .quoted content

def PValue.lexemes : PValue → List Lexeme
  | value text => [text.lexeme]
  | domain name => [Address.lexeme name]
  | address localPart name =>
      (localPart.map LocalPart.lexeme).toList ++
        [.word ⟨['@'], by decide⟩, Address.lexeme name]

def Reason.lexemes (reason : Reason) : List Lexeme :=
  Gap.lexemes reason.before.val ++ Spelling.lexeme reason.spelled (by decide) ::
    (Gap.lexemes reason.beforeEq ++ equals ::
      (Gap.lexemes reason.afterEq ++ [reason.value.lexeme]))

def PropSpec.lexemes (prop : PropSpec) : List Lexeme :=
  Keyword.lexeme prop.ptype :: (Gap.lexemes prop.beforeDot ++ .word ⟨['.'], by decide⟩ ::
    (Gap.lexemes prop.afterDot ++ Keyword.lexeme prop.property ::
      (Gap.lexemes prop.beforeEq ++ equals ::
        (Gap.lexemes prop.beforeValue ++ prop.value.lexemes ++ Gap.lexemes prop.after))))

def MethodVersion.lexemes (version : MethodVersion) : List Lexeme :=
  Gap.lexemes version.before ++ .word ⟨['/'], by decide⟩ ::
    (Gap.lexemes version.afterSlash ++ Digits.lexeme version.digits ::
      Gap.lexemes version.after)

/-- What follows the result. -/
def ResInfo.tail (info : ResInfo) : List Lexeme :=
  info.reason.elim [] Reason.lexemes ++
    info.properties.elim [] fun (before, first, rest) =>
      Gap.lexemes before.val ++ (first :: rest).flatMap PropSpec.lexemes

/-- What follows the semicolon. -/
def ResInfo.clause (info : ResInfo) : List Lexeme :=
  Gap.lexemes info.first ++ Keyword.lexeme info.method ::
    (info.version.elim [] MethodVersion.lexemes ++ Gap.lexemes info.beforeEq ++ equals ::
      (Gap.lexemes info.afterEq ++ Keyword.lexeme info.result :: info.tail))

def ResInfo.lexemes (info : ResInfo) : List Lexeme :=
  Gap.lexemes info.before ++ .semicolon :: info.clause

def Body.lexemes : Body → List Lexeme
  | noResult before after spelled =>
      Gap.lexemes before ++ .semicolon ::
        (Gap.lexemes after ++ [Spelling.lexeme spelled (by decide)])
  | infos first rest => (first :: rest).flatMap ResInfo.lexemes

def Header.front (header : Header) : List Lexeme :=
  Gap.lexemes header.lead ++ header.authservId.lexeme ::
    header.version.elim [] fun (before, digits, after) =>
      Gap.lexemes before.val ++ Digits.lexeme digits :: Gap.lexemes after

/-- The pieces of a header. -/
def Header.lexemes (header : Header) : List Lexeme :=
  header.front ++ (header.body.lexemes ++ Gap.lexemes header.last)

/-- The header as it is written. -/
def Header.text (header : Header) : List Char := render header.lexemes

end Lexemes

/-! ### What the readers find after a semicolon -/

variable {reads : List Char → Bool}

section Readings

variable {text front rest word : List Char} {char mark : Char}

/-- The text in small letters. -/
def lower (text : List Char) : List Char := text.map Char.toLower

/-- What ends a word for the readers. -/
def isStop (char : Char) : Bool := isWhitespace char || char = ';'

/-- What a text begins with, up to a blank or a semicolon. -/
def writtenWord (text : List Char) : List Char :=
  (text.dropWhile isWhitespace).takeWhile (!isStop ·)

/-- A lowered text begins with `spf=pass`, as a token of its own. -/
def passesAt (text : List Char) : Bool :=
  ("spf=pass".toList.isPrefixOf? (text.dropWhile isWhitespace)).any fun rest =>
    rest.head?.all isStop

/-- A lowered text begins with `spf=` and then, maybe after blanks, with `fail`. -/
def fails (text : List Char) : Bool :=
  ("spf=".toList.isPrefixOf? text).any fun rest =>
    "fail".toList.isPrefixOf (rest.dropWhile isWhitespace)

/-- A failed check of the sender begins here, after blanks. -/
def failsAt (text : List Char) : Bool := fails (text.dropWhile isWhitespace)

/-- A reading that holds at the text after some semicolon. -/
def AfterSemicolon (reads : List Char → Bool) (text : List Char) : Prop :=
  ∃ front rest, text = front ++ ';' :: rest ∧ reads (lower rest) = true

theorem toLower_eq_semicolon : char.toLower = ';' ↔ char = ';' :=
  toLower_eq_iff (by decide) (by decide)

theorem dropWhile_takeWhile (text : List Char) :
    (text.takeWhile (· ≠ ';')).dropWhile isWhitespace =
      (text.dropWhile isWhitespace).takeWhile (· ≠ ';') := by
  induction text with
  | nil => rfl
  | cons char text ih =>
      by_cases semicolon : char = ';'
      · subst semicolon
        rfl
      · rw [List.takeWhile_cons_of_pos (by simpa using semicolon)]
        by_cases blank : isWhitespace char = true
        · rw [List.dropWhile_cons_of_pos blank, List.dropWhile_cons_of_pos blank,
            ih]
        · rw [List.dropWhile_cons_of_neg blank, List.dropWhile_cons_of_neg blank,
            List.takeWhile_cons_of_pos (by simpa using semicolon)]

/-- The word that a text begins with is a pattern without blanks and semicolons where the text
begins with the pattern and a blank, a semicolon or nothing comes after it. -/
theorem takeWhile_eq_iff {pattern : List Char} (plain : ∀ mark ∈ pattern, isStop mark = false)
    (text : List Char) :
    text.takeWhile (!isStop ·) = pattern ↔
      ∃ rest, pattern.isPrefixOf? text = some rest ∧ rest.head?.all isStop = true := by
  induction pattern generalizing text with
  | nil =>
      cases text with
      | nil => simp [List.isPrefixOf?]
      | cons char text =>
          cases stop : isStop char <;> simp [List.isPrefixOf?, stop]
  | cons mark pattern ih =>
      have later := ih fun other member => plain other (.tail mark member)
      cases text with
      | nil => simp [List.isPrefixOf?]
      | cons char text =>
          by_cases same : mark = char
          · subst same
            rw [List.takeWhile_cons_of_pos (by simp [plain mark List.mem_cons_self]),
              List.cons_inj_right, later, List.isPrefixOf?, if_pos BEq.rfl]
          · have apart : (mark == char) = false := by simpa using same
            rw [List.isPrefixOf?, apart]
            simp only [Bool.false_eq_true, if_false, reduceCtorEq, false_and, exists_const,
              iff_false]
            rw [List.takeWhile_cons]
            split
            · exact fun equal => same (List.cons.inj equal).1.symm
            · exact nofun

/-- Small letters first or last, where the test does not tell them apart. -/
theorem lower_takeWhile (test : Char → Bool) (kept : ∀ char : Char, test char.toLower = test char)
    (text : List Char) : lower (text.takeWhile test) = (lower text).takeWhile test := by
  rw [lower, lower, List.takeWhile_map]
  exact congrArg (fun test => (text.takeWhile test).map Char.toLower)
    (funext fun char => (kept char).symm)

theorem lower_dropWhile (test : Char → Bool) (kept : ∀ char : Char, test char.toLower = test char)
    (text : List Char) : lower (text.dropWhile test) = (lower text).dropWhile test := by
  rw [lower, lower, List.dropWhile_map]
  exact congrArg (fun test => (text.dropWhile test).map Char.toLower)
    (funext fun char => (kept char).symm)

/-- A token is read as `spf=pass` where it is that in lower case. -/
theorem token_read (token : List Char) :
    (match splitOnce '=' token with
      | some (method, result) =>
          eqIgnoreAsciiCase method "spf".toList && eqIgnoreAsciiCase result "pass".toList
      | none => false) = decide (lower token = "spf=pass".toList) := by
  have noEquals {text : List Char} (absent : '=' ∉ text) : '=' ∉ lower text := by
    intro member
    obtain ⟨char, within, lowers⟩ := List.mem_map.mp member
    exact absent ((toLower_eq_iff (by decide) (by decide)).mp lowers ▸ within)
  by_cases member : '=' ∈ token
  · obtain ⟨method, result, rfl, absent⟩ := List.eq_append_cons_of_mem member
    rw [splitOnce_append absent]
    have parts : lower (method ++ '=' :: result) = lower method ++ '=' :: lower result := by
      rw [lower, List.map_append, List.map_cons]
      rfl
    have whole : lower (method ++ '=' :: result) = "spf=pass".toList ↔
        lower method = "spf".toList ∧ lower result = "pass".toList := by
      rw [parts]
      constructor
      · exact append_mark_inj (noEquals absent) (show '=' ∉ "spf".toList by decide)
      · rintro ⟨isMethod, isResult⟩
        rw [isMethod, isResult]
        rfl
    rw [decide_eq_decide.mpr whole, Bool.decide_and]
    rfl
  · rw [splitOnce_none member, eq_comm, decide_eq_false_iff_not]
    intro whole
    exact noEquals member (whole ▸ by decide)

/-- The first word of a clause is the word that is written there. -/
theorem first_word (text : List Char) :
    ((text.takeWhile (· ≠ ';')).dropWhile isWhitespace).takeWhile (!isWhitespace ·) =
      writtenWord text := by
  rw [dropWhile_takeWhile, List.takeWhile_takeWhile, writtenWord]
  refine congrArg (fun test => (text.dropWhile isWhitespace).takeWhile test) (funext fun char => ?_)
  simp [isStop]

theorem lower_writtenWord (text : List Char) :
    lower (writtenWord text) = ((lower text).dropWhile isWhitespace).takeWhile (!isStop ·) := by
  have stops : ∀ char : Char, isStop char.toLower = isStop char := by
    intro char
    rw [isStop, isStop, toLower_blank, decide_eq_decide.mpr toLower_eq_semicolon]
  rw [writtenWord, lower_takeWhile _ (fun char => congrArg not (stops char)),
    lower_dropWhile _ fun _ => toLower_blank]

theorem clause_passes (rest : List Char) :
    ((splitWhitespace (rest.takeWhile (· ≠ ';'))).head?.any fun token =>
      match splitOnce '=' token with
      | some (method, result) =>
          eqIgnoreAsciiCase method "spf".toList && eqIgnoreAsciiCase result "pass".toList
      | none => false) = passesAt (lower rest) := by
  have word := takeWhile_eq_iff (show ∀ mark ∈ "spf=pass".toList, isStop mark = false by decide)
    ((lower rest).dropWhile isWhitespace)
  rw [← lower_writtenWord] at word
  have passes : passesAt (lower rest) = true ↔
      lower (writtenWord rest) = "spf=pass".toList := by
    rw [passesAt, Option.any_eq_true]
    exact word.symm
  simp only [head_splitWhitespace, first_word, token_read]
  rw [Bool.eq_iff_iff, passes]
  split
  · next none =>
      rw [none]
      exact iff_of_false nofun nofun
  · rw [Option.any_some, decide_eq_true_eq]

/-- The first reader looks at each text after a semicolon. -/
theorem spfPassed_iff (value : List Char) :
    spfPassed value = true ↔ AfterSemicolon passesAt value := by
  rw [spfPassed, List.any_eq_true]
  constructor
  · rintro ⟨clause, member, reads⟩
    obtain ⟨front, rest, split, rfl⟩ := mem_tail_splitOn.mp member
    exact ⟨front, rest, split, clause_passes rest ▸ reads⟩
  · rintro ⟨front, rest, split, reads⟩
    exact ⟨_, mem_tail_splitOn.mpr ⟨front, rest, split, rfl⟩, (clause_passes rest).trans reads⟩

theorem isPrefixOf?_eq_some {pattern : List Char} :
    pattern.isPrefixOf? text = some rest ↔ text = pattern ++ rest :=
  ⟨isPrefixOf?_some, fun same => same ▸ isPrefixOf?_append⟩

/-- The texts that a lowered part begins with where it is read as a failure. -/
theorem fails_iff :
    fails text = true ↔ ∃ blanks, (∀ char ∈ blanks, isWhitespace char = true) ∧
      "spf=".toList ++ blanks ++ "fail".toList <+: text := by
  rw [fails, Option.any_eq_true]
  constructor
  · rintro ⟨rest, begins, found⟩
    obtain ⟨after, split⟩ := List.isPrefixOf_iff_prefix.mp found
    refine ⟨rest.takeWhile isWhitespace,
      fun char member => List.all_eq_true.mp List.all_takeWhile char member, after, ?_⟩
    rw [isPrefixOf?_some begins, List.append_assoc, List.append_assoc, split,
      List.takeWhile_append_dropWhile]
  · rintro ⟨blanks, isBlank, after, split⟩
    refine ⟨blanks ++ "fail".toList ++ after, isPrefixOf?_eq_some.mpr ?_, ?_⟩
    · rw [← split]
      simp only [List.append_assoc]
    · rw [List.append_assoc, List.dropWhile_append_of_pos isBlank]
      exact List.isPrefixOf_iff_prefix.mpr ⟨after, rfl⟩

/-- What ends a text in blanks does not matter to what it begins with. -/
theorem prefix_rdropWhile {pattern : List Char}
    (ends : ∀ last ∈ pattern.getLast?, isWhitespace last = false) :
    pattern <+: text.rdropWhile isWhitespace ↔ pattern <+: text := by
  refine ⟨fun found => found.trans (List.rdropWhile_prefix _ _), fun found => ?_⟩
  rcases List.prefix_or_prefix_of_prefix found (List.rdropWhile_prefix isWhitespace text) with
    inside | ⟨beyond, rfl⟩
  · exact inside
  · have split := List.rdropWhile_append_rtakeWhile (p := isWhitespace) (l := text)
    have blanks : beyond <+: text.rtakeWhile isWhitespace := by
      rw [← List.prefix_append_right_inj (text.rdropWhile isWhitespace), split]
      exact found
    rcases List.eq_nil_or_concat' beyond with rfl | ⟨front, last, rfl⟩
    · exact ⟨[], by simp⟩
    · have isBlank := List.mem_rtakeWhile_imp (blanks.subset (by simp : last ∈ front ++ [last]))
      rw [ends last (by simp)] at isBlank
      cases isBlank

/-- A pattern without semicolons is found before the first one. -/
theorem prefix_takeWhile {pattern : List Char} (absent : ';' ∉ pattern) :
    pattern <+: text.takeWhile (· ≠ ';') ↔ pattern <+: text := by
  refine ⟨fun found => found.trans (List.takeWhile_prefix _), ?_⟩
  rintro ⟨after, rfl⟩
  refine ⟨after.takeWhile (· ≠ ';'), ?_⟩
  rw [List.takeWhile_append_of_pos]
  intro char member
  exact decide_eq_true fun same => absent (same ▸ member)

theorem part_fails (text : List Char) :
    fails (trim (text.takeWhile (· ≠ ';'))) = failsAt text := by
  rw [Bool.eq_iff_iff, failsAt, fails_iff, fails_iff, trim, dropWhile_takeWhile]
  refine exists_congr fun blanks => and_congr_right fun isBlank => ?_
  have absent : ';' ∉ "spf=".toList ++ blanks ++ "fail".toList := by
    rw [List.mem_append, List.mem_append]
    rintro ((inMethod | inBlanks) | inResult)
    · exact absurd inMethod (by decide)
    · exact absurd (isBlank _ inBlanks) (by decide)
    · exact absurd inResult (by decide)
  have ends : ∀ last ∈ ("spf=".toList ++ blanks ++ "fail".toList).getLast?,
      isWhitespace last = false := by
    rw [List.getLast?_append, show "fail".toList.getLast? = some 'l' from rfl]
    rintro last ⟨⟩
    rfl
  rw [prefix_rdropWhile ends, prefix_takeWhile absent]

theorem AfterSemicolon.lowered {value : List Char} :
    AfterSemicolon reads value ↔
      ∃ front rest, lower value = front ++ ';' :: rest ∧ reads rest = true := by
  constructor
  · rintro ⟨front, rest, rfl, found⟩
    refine ⟨lower front, lower rest, ?_, found⟩
    rw [lower, List.map_append, List.map_cons]
    rfl
  · rintro ⟨front, rest, split, found⟩
    obtain ⟨before, after, rfl, rfl, cut⟩ := List.map_eq_append_iff.mp split
    obtain ⟨char, after, rfl, isSemicolon, rfl⟩ := List.map_eq_cons_iff.mp cut
    rw [toLower_eq_semicolon.mp isSemicolon]
    exact ⟨before, after, rfl, found⟩

/-- The second reader looks at the beginning too. -/
theorem spfFailed_iff (value : List Char) :
    spfFailed value = true ↔ failsAt (lower value) = true ∨ AfterSemicolon failsAt value := by
  have parts : spfFailed value = ((lower value).splitOn ';').any fun part => fails (trim part) := by
    rw [spfFailed, List.any_filterMap]
    rfl
  have first : (lower value).splitOn ';' =
      (lower value).takeWhile (· ≠ ';') :: ((lower value).splitOn ';').tail := by
    obtain ⟨rest, shape⟩ := List.head?_eq_some_iff.mp (head_splitOn ';' (lower value))
    rw [shape, List.tail_cons]
  rw [parts, first, List.any_cons, Bool.or_eq_true, part_fails, AfterSemicolon.lowered,
    List.any_eq_true]
  refine or_congr_right ⟨?_, ?_⟩
  · rintro ⟨part, member, found⟩
    obtain ⟨front, rest, split, rfl⟩ := mem_tail_splitOn.mp member
    exact ⟨front, rest, split, part_fails rest ▸ found⟩
  · rintro ⟨front, rest, split, found⟩
    exact ⟨_, mem_tail_splitOn.mpr ⟨front, rest, split, rfl⟩, (part_fails rest).trans found⟩

/-- The third reader compares the first word. -/
theorem reportedBy_iff (value expected : List Char) :
    reportedBy value expected = true ↔
      writtenWord value ≠ [] ∧ lower (writtenWord value) = lower (trim expected) := by
  rw [reportedBy, head_splitOn, Option.bind_some, head_splitWhitespace]
  simp only [first_word]
  split
  · next none => exact iff_of_false nofun fun both => both.1 none
  · next some =>
      rw [Option.any_some, eqIgnoreAsciiCase, decide_eq_true_eq]
      exact ⟨fun same => ⟨some, same⟩, And.right⟩

end Readings

/-! ### Where a rendered header has a semicolon -/

section Rendered

variable {reads : List Char → Bool} {lexeme : Lexeme} {lexemes front : List Lexeme}
  {text other rest : List Char}

/-- A reading that no text goes on with after the end of a comment or a quoted string. -/
def StopsAtStrings (reads : List Char → Bool) : Prop :=
  ∀ (text rest : List Char), ∀ mark ∈ [')', '"'],
    reads (lower (text ++ mark :: rest)) = reads (lower (text ++ [mark]))

/-- A reading that holds after a semicolon of the grammar, and one that holds after a
semicolon in a comment or a quoted string. -/
def AtSemicolon (reads : List Char → Bool) (lexemes : List Lexeme) : Prop :=
  ∃ front rest, lexemes = front ++ .semicolon :: rest ∧ reads (lower (render rest)) = true

/-- A reading holds within a comment or a quoted string. -/
def InString (reads : List Char → Bool) (lexemes : List Lexeme) : Prop :=
  ∃ lexeme ∈ lexemes, lexeme.isString = true ∧ AfterSemicolon reads lexeme.text

/-- A reading at a semicolon is at the first piece or later. -/
theorem atSemicolon_cons :
    AtSemicolon reads (lexeme :: lexemes) ↔
      (lexeme = .semicolon ∧ reads (lower (render lexemes)) = true) ∨
        AtSemicolon reads lexemes := by
  constructor
  · rintro ⟨front, rest, split, found⟩
    cases front with
    | nil =>
        cases split
        exact .inl ⟨rfl, found⟩
    | cons first front =>
        cases split
        exact .inr ⟨front, rest, rfl, found⟩
  · rintro (⟨rfl, found⟩ | ⟨front, rest, rfl, found⟩)
    · exact ⟨[], lexemes, rfl, found⟩
    · exact ⟨lexeme :: front, rest, rfl, found⟩

theorem atSemicolon_append (absent : .semicolon ∉ front) :
    AtSemicolon reads (front ++ lexemes) ↔ AtSemicolon reads lexemes := by
  induction front with
  | nil => rfl
  | cons first front ih =>
      rw [List.mem_cons, not_or] at absent
      rw [List.cons_append, atSemicolon_cons, ih absent.2]
      exact or_iff_right fun found => absent.1 found.1.symm

/-- Without a semicolon there is nothing to read. -/
theorem not_atSemicolon (absent : .semicolon ∉ lexemes) : ¬ AtSemicolon reads lexemes := by
  rintro ⟨front, rest, rfl, -⟩
  exact absent (by simp)

theorem afterSemicolon_append :
    AfterSemicolon reads (text ++ other) ↔
      (∃ front rest, text = front ++ ';' :: rest ∧ reads (lower (rest ++ other)) = true) ∨
        AfterSemicolon reads other := by
  constructor
  · rintro ⟨front, rest, split, found⟩
    rcases List.append_eq_append_iff.mp split with ⟨more, rfl, isOther⟩ | ⟨more, rfl, isRest⟩
    · exact .inr ⟨more, rest, isOther, found⟩
    · cases more with
      | nil => exact .inr ⟨[], rest, isRest.symm, found⟩
      | cons first more =>
          cases isRest
          exact .inl ⟨front, more, rfl, found⟩
  · rintro (⟨front, rest, rfl, found⟩ | ⟨front, rest, rfl, found⟩)
    · exact ⟨front, rest ++ other, by simp, found⟩
    · exact ⟨text ++ front, rest, by simp, found⟩

/-- A string keeps what is read in it to itself. -/
theorem within_string (stops : StopsAtStrings reads) {mark : Char} (isEnd : mark ∈ [')', '"'])
    (content other : List Char) :
    (∃ front rest, content ++ [mark] = front ++ ';' :: rest ∧
        reads (lower (rest ++ other)) = true) ↔ AfterSemicolon reads (content ++ [mark]) := by
  refine exists_congr fun front => exists_congr fun rest => and_congr_right fun split => ?_
  rcases List.eq_nil_or_concat' rest with rfl | ⟨inner, last, rfl⟩
  · have last := congrArg List.getLast? split
    rw [List.getLast?_concat, List.getLast?_concat] at last
    cases last
    exact absurd isEnd (by decide)
  · have last := congrArg List.getLast? split
    rw [← List.cons_append, ← List.append_assoc, List.getLast?_concat,
      List.getLast?_concat] at last
    cases last
    rw [List.append_assoc, List.singleton_append, stops inner other mark isEnd]

/-- What is read after a semicolon of a rendered header is read after one of the grammar or
in a comment or a quoted string. -/
theorem afterSemicolon_render (stops : StopsAtStrings reads) (lexemes : List Lexeme) :
    AfterSemicolon reads (render lexemes) ↔
      AtSemicolon reads lexemes ∨ InString reads lexemes := by
  induction lexemes with
  | nil =>
      refine iff_of_false ?_ ?_
      · rintro ⟨front, rest, split, -⟩
        simp [render] at split
      · rintro (⟨front, rest, split, -⟩ | ⟨lexeme, member, -⟩)
        · simp at split
        · exact List.not_mem_nil member
  | cons lexeme lexemes ih =>
      have none (absent : ';' ∉ lexeme.text) : ¬ ∃ front rest, lexeme.text = front ++ ';' :: rest ∧
          reads (lower (rest ++ render lexemes)) = true := by
        rintro ⟨front, rest, split, -⟩
        exact absent (split ▸ by simp)
      have strings : InString reads (lexeme :: lexemes) ↔
          (lexeme.isString = true ∧ AfterSemicolon reads lexeme.text) ∨
            InString reads lexemes := by
        simp [InString]
      rw [show render (lexeme :: lexemes) = lexeme.text ++ render lexemes from rfl,
        afterSemicolon_append, ih, atSemicolon_cons, strings]
      suffices own : (∃ front rest, lexeme.text = front ++ ';' :: rest ∧
            reads (lower (rest ++ render lexemes)) = true) ↔
          (lexeme = .semicolon ∧ reads (lower (render lexemes)) = true) ∨
            (lexeme.isString = true ∧ AfterSemicolon reads lexeme.text) by
        rw [own]
        exact or_or_or_comm
      cases lexeme with
      | blank char =>
          refine iff_of_false (none fun member => ?_) (by simp [Lexeme.isString])
          exact absurd char.2 (List.mem_singleton.mp member ▸ by decide)
      | comment content =>
          have inside := within_string stops List.mem_cons_self ('(' :: content.text)
            (render lexemes)
          exact inside.trans (by simp [Lexeme.isString, Lexeme.text])
      | quoted content =>
          have inside := within_string stops (List.mem_cons_of_mem _ List.mem_cons_self)
            ('"' :: content.flatMap QuotedChar.text) (render lexemes)
          exact inside.trans (by simp [Lexeme.isString, Lexeme.text])
      | word text => exact iff_of_false (none text.2) (by simp [Lexeme.isString])
      | semicolon =>
          constructor
          · rintro ⟨front, rest, split, found⟩
            cases front with
            | nil =>
                cases split
                exact .inl ⟨rfl, found⟩
            | cons first front => simp [Lexeme.text] at split
          · rintro (⟨-, found⟩ | ⟨isString, -⟩)
            · exact ⟨[], [], rfl, found⟩
            · cases isString

end Rendered

/-! ### What the readers find in a result of the grammar -/

section Clauses

/-- The piece is a blank. -/
def GapPiece.isBlank : GapPiece → Bool
  | blank _ => true
  | comment _ => false

/-- The gap has no comment. -/
def Gap.isBlank (gap : Gap) : Bool := gap.all GapPiece.isBlank

/-- Lexemes that a word may stand before: a gap, a semicolon or nothing. -/
def Break (lexemes : List Lexeme) : Prop :=
  ∀ lexeme ∈ lexemes.head?,
    (∃ char, lexeme = .blank char) ∨ (∃ content, lexeme = .comment content) ∨ lexeme = .semicolon

variable {gap : Gap} {lexemes other : List Lexeme} {pattern word rest : List Char} {mark : Char}

theorem lower_render_cons (lexeme : Lexeme) (lexemes : List Lexeme) :
    lower (render (lexeme :: lexemes)) = lower lexeme.text ++ lower (render lexemes) := by
  rw [render, List.flatMap_cons, lower, List.map_append]
  rfl

/-- A blank has no case. -/
theorem lower_blank (char : Blank) :
    char.val.toLower = char.val ∧ isWhitespace char.val = true := by
  have each : ∀ char ∈ [' ', '\t', '\r', '\n'],
      char.toLower = char ∧ isWhitespace char = true := by decide
  exact each char.1 char.2

/-- A gap of blanks is passed, and one with a comment leads to its bracket. -/
theorem dropWhile_gap (gap : Gap) (lexemes : List Lexeme) :
    (gap.isBlank = true ∧ (lower (render (Gap.lexemes gap ++ lexemes))).dropWhile isWhitespace =
        (lower (render lexemes)).dropWhile isWhitespace) ∨
      (gap.isBlank = false ∧
        ((lower (render (Gap.lexemes gap ++ lexemes))).dropWhile isWhitespace).head? =
          some '(') := by
  induction gap with
  | nil => exact .inl ⟨rfl, rfl⟩
  | cons piece gap ih =>
      cases piece with
      | blank char =>
          obtain ⟨same, isBlank⟩ := lower_blank char
          have passed : (lower (render (Gap.lexemes (.blank char :: gap) ++ lexemes))).dropWhile
              isWhitespace =
                (lower (render (Gap.lexemes gap ++ lexemes))).dropWhile isWhitespace := by
            rw [Gap.lexemes, List.map_cons, List.cons_append, lower_render_cons]
            have first : lower (GapPiece.blank char).lexeme.text = [char.val] :=
              congrArg (fun char => [char]) same
            rw [first, List.singleton_append, List.dropWhile_cons_of_pos isBlank]
            rfl
          rw [passed]
          exact ih
      | comment content =>
          refine .inr ⟨rfl, ?_⟩
          rw [Gap.lexemes, List.map_cons, List.cons_append, lower_render_cons]
          rfl

/-- The characters of a keyword by number. -/
theorem toNat_of_isKeywordChar {char : Char} (isKeyword : isKeywordChar char = true) :
    (48 ≤ char.toNat ∧ char.toNat ≤ 57) ∨ (65 ≤ char.toNat ∧ char.toNat ≤ 90) ∨
      (97 ≤ char.toNat ∧ char.toNat ≤ 122) ∨ char.toNat = 45 := by
  unfold isKeywordChar Char.isAlphanum Char.isAlpha Char.isUpper Char.isLower at isKeyword
  simp only [Char.isDigit, Bool.or_eq_true, Bool.and_eq_true, decide_eq_true_eq, ge_iff_le,
    UInt32.le_iff_toNat_le] at isKeyword
  have same : char.val.toNat = char.toNat := rfl
  rcases isKeyword with ((upper | lower) | digit) | rfl
  · exact .inr (.inl upper)
  · exact .inr (.inr (.inl lower))
  · exact .inl digit
  · exact .inr (.inr (.inr rfl))

/-- A keyword in lower case has neither a stop nor a mark of the grammar. -/
theorem keyword_lower (keyword : Keyword) :
    ∀ char ∈ lower keyword.val, isStop char = false ∧ char ∉ ['=', '(', '/'] := by
  refine List.forall_mem_map.mpr fun char member => ?_
  have range := toNat_of_isKeywordChar (keyword.2.2 char member)
  have lowered : (48 ≤ char.toLower.toNat ∧ char.toLower.toNat ≤ 57) ∨
      (65 ≤ char.toLower.toNat ∧ char.toLower.toNat ≤ 90) ∨
      (97 ≤ char.toLower.toNat ∧ char.toLower.toNat ≤ 122) ∨ char.toLower.toNat = 45 := by
    rcases toLower_cases char with same | letter
    · rw [same]
      exact range
    · exact .inr (.inr (.inl letter))
  have apart (mark : Char) (outside : mark.toNat < 45 ∨ (45 < mark.toNat ∧ mark.toNat < 48) ∨
      (57 < mark.toNat ∧ mark.toNat < 65)) : char.toLower ≠ mark := by
    intro same
    rw [same] at lowered
    omega
  refine ⟨?_, ?_⟩
  · simp only [isStop, isWhitespace, List.mem_cons, List.not_mem_nil, or_false,
      Bool.or_eq_false_iff, Bool.and_eq_false_iff, decide_eq_false_iff_not]
    exact ⟨by omega, apart ';' (by decide)⟩
  · simp only [List.mem_cons, List.not_mem_nil, or_false, not_or]
    exact ⟨apart '=' (by decide), apart '(' (by decide), apart '/' (by decide)⟩

theorem render_word (keyword : Keyword) (lexemes : List Lexeme) :
    lower (render (Keyword.lexeme keyword :: lexemes)) =
      lower keyword.val ++ lower (render lexemes) := lower_render_cons ..

/-- No blank is to be dropped before a word. -/
theorem dropWhile_word (nonempty : word ≠ [])
    (plain : ∀ char ∈ word, isWhitespace char = false) (rest : List Char) :
    (lower word ++ rest).dropWhile isWhitespace = lower word ++ rest := by
  obtain ⟨first, more, rfl⟩ := List.exists_cons_of_ne_nil nonempty
  have notBlank : isWhitespace first.toLower = false :=
    toLower_blank.trans (plain first List.mem_cons_self)
  exact List.dropWhile_cons_of_neg (by simp [notBlank])

theorem dropWhile_keyword (keyword : Keyword) (rest : List Char) :
    (lower keyword.val ++ rest).dropWhile isWhitespace = lower keyword.val ++ rest := by
  refine dropWhile_word keyword.2.1 (fun char member => ?_) rest
  have notStop := (keyword_lower keyword char.toLower (List.mem_map_of_mem member)).1
  rw [isStop, Bool.or_eq_false_iff, toLower_blank] at notStop
  exact notStop.1

/-- A pattern with a mark is found in a word without the mark and what follows it where the
word is the pattern up to the mark. -/
theorem isPrefixOf?_word {more : List Char} (absent : mark ∉ word)
    (apart : ∀ char ∈ rest.head?, char ∉ pattern) :
    (pattern ++ mark :: more).isPrefixOf? (word ++ rest) =
      if word = pattern then (mark :: more).isPrefixOf? rest else none := by
  induction pattern generalizing word with
  | nil =>
      cases word with
      | nil => rfl
      | cons char word =>
          have other : (mark == char) = false :=
            beq_eq_false_iff_ne.mpr fun same => absent (same ▸ List.mem_cons_self)
          rw [List.nil_append, List.cons_append, List.isPrefixOf?, other, if_neg nofun,
            if_neg nofun]
  | cons first pattern ih =>
      cases word with
      | nil =>
          rw [if_neg nofun, List.nil_append, List.cons_append]
          cases rest with
          | nil => rfl
          | cons char rest =>
              have other : (first == char) = false :=
                beq_eq_false_iff_ne.mpr fun same => apart char rfl (same ▸ List.mem_cons_self)
              rw [List.isPrefixOf?, other, if_neg nofun]
      | cons char word =>
          rw [List.cons_append, List.cons_append, List.isPrefixOf?]
          by_cases same : first = char
          · subst same
            rw [if_pos BEq.rfl, ih (fun member => absent (.tail first member))
              fun char isFirst member => apart char isFirst (.tail first member)]
            simp
          · rw [if_neg (by simpa using same), if_neg fun equal => same (List.cons.inj equal).1.symm]

/-- A gap begins with a blank or a bracket. -/
theorem head_gap (piece : GapPiece) (gap : Gap) (lexemes : List Lexeme) :
    ∃ char ∈ [' ', '\t', '\r', '\n', '('],
      (lower (render (Gap.lexemes (piece :: gap) ++ lexemes))).head? = some char := by
  rw [Gap.lexemes, List.map_cons, List.cons_append, lower_render_cons]
  cases piece with
  | blank char =>
      have member : char.val ∈ [' ', '\t', '\r', '\n', '('] :=
        List.mem_append_left ['('] char.2
      exact ⟨char.val, member, congrArg some (lower_blank char).1⟩
  | comment content => exact ⟨'(', by decide, rfl⟩

theorem head_break (isBreak : Break lexemes) :
    ∀ char ∈ (lower (render lexemes)).head?, char ∈ [' ', '\t', '\r', '\n', '(', ';'] := by
  cases lexemes with
  | nil => exact nofun
  | cons lexeme lexemes =>
      rw [lower_render_cons]
      rcases isBreak lexeme rfl with ⟨char, rfl⟩ | ⟨content, rfl⟩ | rfl
      · intro first isFirst
        have member : char.val ∈ [' ', '\t', '\r', '\n', '(', ';'] :=
          List.mem_append_left ['(', ';'] char.2
        have same : char.val.toLower = first := Option.some.inj isFirst
        rw [← same, (lower_blank char).1]
        exact member
      · rintro first ⟨⟩
        decide
      · rintro first ⟨⟩
        decide

theorem isPrefixOf?_head {pattern text : List Char} {first char : Char} (apart : first ≠ char)
    (isFirst : text.head? = some char) : (first :: pattern).isPrefixOf? text = none := by
  obtain ⟨rest, rfl⟩ := List.head?_eq_some_iff.mp isFirst
  rw [List.isPrefixOf?, beq_eq_false_iff_ne.mpr apart, if_neg nofun]

/-- The sign of a result is found where neither a version nor a gap comes before it. -/
theorem sign_found (version : Option MethodVersion) (gap : Gap) (lexemes : List Lexeme)
    (pattern : List Char) :
    ('=' :: pattern).isPrefixOf? (lower (render
        (version.elim [] MethodVersion.lexemes ++ Gap.lexemes gap ++ equals :: lexemes))) =
      (if version.isNone = true ∧ gap = [] then
        pattern.isPrefixOf? (lower (render lexemes)) else none) ∧
    ∀ char ∈ (lower (render
        (version.elim [] MethodVersion.lexemes ++ Gap.lexemes gap ++ equals :: lexemes))).head?,
      char ∉ "spf".toList := by
  have gapApart : ∀ char ∈ [' ', '\t', '\r', '\n', '('], '=' ≠ char ∧ char ∉ "spf".toList := by
    decide
  have afterGap (piece : GapPiece) (gap : Gap) (more : List Lexeme) (pattern : List Char) :
      ('=' :: pattern).isPrefixOf? (lower (render (Gap.lexemes (piece :: gap) ++ more))) = none ∧
        ∀ char ∈ (lower (render (Gap.lexemes (piece :: gap) ++ more))).head?,
          char ∉ "spf".toList := by
    obtain ⟨char, member, isFirst⟩ := head_gap piece gap more
    refine ⟨isPrefixOf?_head (gapApart char member).1 isFirst, ?_⟩
    rw [isFirst]
    rintro _ ⟨⟩
    exact (gapApart char member).2
  cases version with
  | some version =>
      rw [if_neg (by simp), Option.elim_some, MethodVersion.lexemes, List.append_assoc,
        List.append_assoc]
      cases version.before with
      | nil => exact ⟨rfl, by rintro _ ⟨⟩; decide⟩
      | cons piece before => exact afterGap piece before _ pattern
  | none =>
      rw [Option.elim_none, List.nil_append]
      cases gap with
      | nil => exact ⟨rfl, by rintro _ ⟨⟩; decide⟩
      | cons piece gap =>
          rw [if_neg (by simp)]
          exact afterGap piece gap _ pattern

/-- A result whose method and sign stand together. -/
def ResInfo.Joined (info : ResInfo) : Prop :=
  info.first.isBlank = true ∧ info.version.isNone = true ∧ info.beforeEq = []

instance (info : ResInfo) : Decidable info.Joined :=
  inferInstanceAs <| Decidable <|
    info.first.isBlank = true ∧ info.version.isNone = true ∧ info.beforeEq = []

/-- The result is a verdict on the sender. -/
def ResInfo.Has (info : ResInfo) (verdict : List Char) : Prop :=
  lower info.method.val = "spf".toList ∧ lower info.result.val = verdict

/-- What a reader finds after the semicolon of a result. -/
theorem method_found (info : ResInfo) (next : List Lexeme) (pattern : List Char) :
    ("spf".toList ++ '=' :: pattern).isPrefixOf?
        ((lower (render (info.clause ++ next))).dropWhile isWhitespace) =
      if info.Joined ∧ lower info.method.val = "spf".toList then
        pattern.isPrefixOf? (lower (render (Gap.lexemes info.afterEq ++
          Keyword.lexeme info.result :: (info.tail ++ next))))
      else none := by
  have shape : info.clause ++ next = Gap.lexemes info.first ++ (Keyword.lexeme info.method ::
      (info.version.elim [] MethodVersion.lexemes ++ Gap.lexemes info.beforeEq ++ equals ::
        (Gap.lexemes info.afterEq ++ Keyword.lexeme info.result :: (info.tail ++ next)))) := by
    simp [ResInfo.clause]
  rw [shape]
  rcases dropWhile_gap info.first (Keyword.lexeme info.method ::
      (info.version.elim [] MethodVersion.lexemes ++ Gap.lexemes info.beforeEq ++ equals ::
        (Gap.lexemes info.afterEq ++ Keyword.lexeme info.result :: (info.tail ++ next)))) with
    ⟨isBlank, passed⟩ | ⟨hasComment, isFirst⟩
  · have word := keyword_lower info.method
    have absent : '=' ∉ lower info.method.val := fun member =>
      (word _ member).2 List.mem_cons_self
    obtain ⟨found, apart⟩ := sign_found info.version info.beforeEq
      (Gap.lexemes info.afterEq ++ Keyword.lexeme info.result :: (info.tail ++ next)) pattern
    rw [passed, render_word, dropWhile_keyword, isPrefixOf?_word absent apart, found]
    by_cases isMethod : lower info.method.val = "spf".toList
    · rw [if_pos isMethod]
      refine if_congr ⟨fun both => ⟨⟨isBlank, both⟩, isMethod⟩, fun both => both.1.2⟩ rfl rfl
    · rw [if_neg isMethod, if_neg fun both => isMethod both.2]
  · rw [if_neg fun both => Bool.false_ne_true (hasComment.symm.trans both.1.1)]
    exact isPrefixOf?_head (by decide) isFirst

/-- A verdict that is read as a whole: no gap before it, and no comment right after it. -/
def ResInfo.ShowsPass (info : ResInfo) (next : List Lexeme) : Prop :=
  info.Joined ∧ info.afterEq = [] ∧ info.Has "pass".toList ∧
    ∀ content, (info.tail ++ next).head? ≠ some (.comment content)

/-- A verdict that is read by how it begins, after blanks or none. -/
def ResInfo.ShowsFail (info : ResInfo) : Prop :=
  info.Joined ∧ info.afterEq.isBlank = true ∧ lower info.method.val = "spf".toList ∧
    "fail".toList <+: lower info.result.val

/-- A word is found in a text that begins with a word where it begins that word. -/
theorem prefix_word (apart : ∀ char ∈ rest.head?, char ∉ pattern) :
    pattern <+: word ++ rest ↔ pattern <+: word := by
  refine ⟨fun found => ?_, fun found => found.trans (List.prefix_append ..)⟩
  rcases List.prefix_or_prefix_of_prefix found (List.prefix_append word rest) with
    inside | ⟨beyond, rfl⟩
  · exact inside
  · have further := (List.prefix_append_right_inj word).mp found
    cases beyond with
    | nil => exact ⟨[], by simp⟩
    | cons char beyond =>
        cases rest with
        | nil => exact absurd (List.prefix_nil.mp further) nofun
        | cons first rest =>
            have same := (List.cons_prefix_cons.mp further).1
            exact absurd (by simp [same]) (apart first rfl)

/-- What stands before a stop or the end of a text is its first word. -/
theorem takeWhile_break (isBreak : Break lexemes) :
    ((lower (render lexemes)).takeWhile (!isStop ·) = [] ∧
        ∀ content, lexemes.head? ≠ some (.comment content)) ∨
      (∃ more, (lower (render lexemes)).takeWhile (!isStop ·) = '(' :: more) ∧
        ∃ content, lexemes.head? = some (.comment content) := by
  cases lexemes with
  | nil => exact .inl ⟨rfl, nofun⟩
  | cons lexeme lexemes =>
      rw [lower_render_cons]
      rcases isBreak lexeme rfl with ⟨char, rfl⟩ | ⟨content, rfl⟩ | rfl
      · obtain ⟨same, isBlank⟩ := lower_blank char
        refine .inl ⟨?_, nofun⟩
        have first : lower (Lexeme.blank char).text = [char.val] :=
          congrArg (fun char => [char]) same
        rw [first, List.singleton_append, List.takeWhile_cons_of_neg (by simp [isStop, isBlank])]
      · exact .inr ⟨⟨_, rfl⟩, content, rfl⟩
      · exact .inl ⟨rfl, nofun⟩

/-- What the first reader makes of one result. -/
theorem passes_clause (info : ResInfo) (next : List Lexeme) (isBreak : Break (info.tail ++ next)) :
    passesAt (lower (render (info.clause ++ next))) = true ↔ info.ShowsPass next := by
  rw [passesAt, show "spf=pass".toList = "spf".toList ++ '=' :: "pass".toList from rfl,
    method_found info next "pass".toList]
  by_cases joined : info.Joined ∧ lower info.method.val = "spf".toList
  · rw [if_pos joined]
    cases shape : info.afterEq with
    | cons piece gap =>
        obtain ⟨char, member, isFirst⟩ := head_gap piece gap
          (Keyword.lexeme info.result :: (info.tail ++ next))
        have apart : ∀ char ∈ [' ', '\t', '\r', '\n', '('], 'p' ≠ char := by decide
        rw [show "pass".toList = 'p' :: "ass".toList from rfl,
          isPrefixOf?_head (apart char member) isFirst]
        exact iff_of_false nofun fun shows => nomatch shape.symm.trans shows.2.1
    | nil =>
        have word : ∀ char ∈ lower info.result.val, (!isStop char) = true := fun char member => by
          rw [(keyword_lower info.result char member).1]
          rfl
        have whole := takeWhile_eq_iff (show ∀ mark ∈ "pass".toList, isStop mark = false by decide)
          (lower info.result.val ++ lower (render (info.tail ++ next)))
        rw [List.takeWhile_append_of_pos word] at whole
        rw [show Gap.lexemes [] ++ Keyword.lexeme info.result :: (info.tail ++ next) =
            Keyword.lexeme info.result :: (info.tail ++ next) from rfl, render_word,
          Option.any_eq_true]
        refine whole.symm.trans ?_
        rcases takeWhile_break isBreak with ⟨none, apart⟩ | ⟨⟨more, comment⟩, content, isFirst⟩
        · rw [none, List.append_nil]
          exact ⟨fun passes => ⟨joined.1, shape, ⟨joined.2, passes⟩, apart⟩,
            fun shows => shows.2.2.1.2⟩
        · rw [comment]
          refine iff_of_false (fun whole => ?_) fun shows => shows.2.2.2 content isFirst
          have bracket : '(' ∈ "pass".toList := whole ▸ by simp
          exact absurd bracket (by decide)
  · rw [if_neg joined]
    exact iff_of_false nofun fun shows => joined ⟨shows.1, shows.2.2.1.1⟩

/-- What the second reader makes of one result. -/
theorem fails_clause (info : ResInfo) (next : List Lexeme) (isBreak : Break (info.tail ++ next)) :
    failsAt (lower (render (info.clause ++ next))) = true ↔ info.ShowsFail := by
  have noLetter : ∀ char ∈ [' ', '\t', '\r', '\n', '(', ';'], char ∉ "fail".toList := by decide
  have found := method_found info next []
  rw [failsAt, fails, show "spf=".toList = "spf".toList ++ '=' :: [] from rfl, found]
  by_cases joined : info.Joined ∧ lower info.method.val = "spf".toList
  · rw [if_pos joined, List.isPrefixOf?, Option.any_some, List.isPrefixOf_iff_prefix]
    rcases dropWhile_gap info.afterEq (Keyword.lexeme info.result :: (info.tail ++ next)) with
      ⟨isBlank, passed⟩ | ⟨hasComment, isFirst⟩
    · rw [passed, render_word, dropWhile_keyword,
        prefix_word fun char first => noLetter char (head_break isBreak char first)]
      exact ⟨fun fails => ⟨joined.1, isBlank, joined.2, fails⟩, fun shows => shows.2.2.2⟩
    · refine iff_of_false ?_ fun shows =>
        Bool.false_ne_true (hasComment.symm.trans shows.2.1)
      rintro ⟨rest, split⟩
      rw [← split] at isFirst
      cases isFirst
  · rw [if_neg joined]
    exact iff_of_false nofun fun shows => joined ⟨shows.1, shows.2.2.1⟩

end Clauses

/-! ### What the readers find in a header of the grammar -/

section Headers

variable {lexemes next front : List Lexeme} {gap : Gap} {text more pattern : List Char}
  {mark : Char}

theorem dropWhile_append_stop {test : Char → Bool} (stops : test mark = false)
    (text more : List Char) :
    (text ++ mark :: more).dropWhile test = text.dropWhile test ++ mark :: more := by
  induction text with
  | nil => exact List.dropWhile_cons_of_neg (by simp [stops])
  | cons char text ih =>
      rw [List.cons_append, List.dropWhile_cons, List.dropWhile_cons]
      split
      · exact ih
      · rfl

theorem isPrefixOf?_append_stop (absent : mark ∉ pattern) (text more : List Char) :
    pattern.isPrefixOf? (text ++ mark :: more) =
      (pattern.isPrefixOf? text).map (· ++ mark :: more) := by
  induction pattern generalizing text with
  | nil => rfl
  | cons first pattern ih =>
      cases text with
      | nil =>
          have apart : first ≠ mark := fun same => absent (same ▸ List.mem_cons_self)
          rw [List.nil_append, isPrefixOf?_head apart rfl]
          rfl
      | cons char text =>
          rw [List.cons_append, List.isPrefixOf?, List.isPrefixOf?]
          split
          · exact ih (fun member => absent (.tail first member)) text
          · rfl

theorem lower_stop (isEnd : mark ∈ [')', '"']) (text more : List Char) :
    lower (text ++ mark :: more) = lower text ++ mark :: lower more := by
  have same : ∀ mark ∈ [')', '"'], mark.toLower = mark := by decide
  rw [lower, List.map_append, List.map_cons, same mark isEnd]
  rfl

/-- The first reader does not look past a string. -/
theorem passesAt_stops : StopsAtStrings passesAt := by
  have noBlank : ∀ mark ∈ [')', '"'], isWhitespace mark = false ∧ mark ∉ "spf=pass".toList := by
    decide
  intro text rest mark isEnd
  obtain ⟨stops, absent⟩ := noBlank mark isEnd
  rw [passesAt, passesAt, lower_stop isEnd, lower_stop isEnd, dropWhile_append_stop stops,
    dropWhile_append_stop stops, isPrefixOf?_append_stop absent, isPrefixOf?_append_stop absent,
    Option.any_map, Option.any_map]
  refine congrArg (fun test => Option.any test _) (funext fun after => ?_)
  cases after <;> rfl

theorem failsAt_stops : StopsAtStrings failsAt := by
  have noBlank : ∀ mark ∈ [')', '"'],
      isWhitespace mark = false ∧ mark ∉ "spf=".toList ∧ mark ∉ "fail".toList := by decide
  intro text rest mark isEnd
  obtain ⟨stops, absent, noLetter⟩ := noBlank mark isEnd
  rw [failsAt, failsAt, fails, fails, lower_stop isEnd, lower_stop isEnd,
    dropWhile_append_stop stops, dropWhile_append_stop stops, isPrefixOf?_append_stop absent,
    isPrefixOf?_append_stop absent, Option.any_map, Option.any_map]
  refine congrArg (fun test => Option.any test _) (funext fun after => ?_)
  have apart (more : List Char) : ∀ char ∈ (mark :: more).head?, char ∉ "fail".toList := by
    rintro char ⟨⟩
    exact noLetter
  rw [dropWhile_append_stop stops, dropWhile_append_stop stops, Bool.eq_iff_iff,
    List.isPrefixOf_iff_prefix, List.isPrefixOf_iff_prefix, prefix_word (apart _),
    prefix_word (apart _)]

@[simp] theorem gap_notMem (gap : Gap) : Lexeme.semicolon ∉ Gap.lexemes gap := by
  intro member
  obtain ⟨piece, -, same⟩ := List.mem_map.mp member
  cases piece <;> cases same

@[simp] theorem value_ne (value : Value) : Lexeme.semicolon ≠ value.lexeme := by
  cases value <;> nofun

@[simp] theorem pvalue_notMem (value : PValue) : Lexeme.semicolon ∉ value.lexemes := by
  cases value with
  | value text => simp [PValue.lexemes]
  | domain name => simp [PValue.lexemes, Address.lexeme]
  | address localPart name =>
      cases localPart with
      | none => simp [PValue.lexemes, Address.lexeme]
      | some part => cases part <;> simp [PValue.lexemes, Address.lexeme, LocalPart.lexeme]

@[simp] theorem prop_notMem (prop : PropSpec) : Lexeme.semicolon ∉ prop.lexemes := by
  simp [PropSpec.lexemes, Keyword.lexeme, equals]

theorem tail_notMem (info : ResInfo) : Lexeme.semicolon ∉ info.tail := by
  rw [ResInfo.tail, List.mem_append, not_or]
  constructor
  · cases info.reason <;> simp [Reason.lexemes, Spelling.lexeme, equals]
  · cases info.properties <;> simp

theorem clause_notMem (info : ResInfo) : Lexeme.semicolon ∉ info.clause := by
  have version : Lexeme.semicolon ∉ info.version.elim [] MethodVersion.lexemes := by
    cases info.version <;> simp [MethodVersion.lexemes, Digits.lexeme]
  simp [ResInfo.clause, version, tail_notMem, Keyword.lexeme, equals]

/-- A gap that is there ends a word. -/
theorem break_gap (nonempty : gap ≠ []) (lexemes : List Lexeme) :
    Break (Gap.lexemes gap ++ lexemes) := by
  obtain ⟨piece, rest, rfl⟩ := List.exists_cons_of_ne_nil nonempty
  rintro _ ⟨⟩
  cases piece with
  | blank char => exact .inl ⟨char, rfl⟩
  | comment content => exact .inr (.inl ⟨content, rfl⟩)

theorem break_gap_append (gap : Gap) (isBreak : Break lexemes) :
    Break (Gap.lexemes gap ++ lexemes) := by
  cases gap with
  | nil => exact isBreak
  | cons piece gap => exact break_gap (List.cons_ne_nil piece gap) lexemes

theorem break_tail (info : ResInfo) (isBreak : Break next) : Break (info.tail ++ next) := by
  rw [ResInfo.tail]
  cases info.reason with
  | some reason =>
      rw [Option.elim_some, Reason.lexemes, List.append_assoc, List.append_assoc]
      exact break_gap reason.before.2 _
  | none =>
      cases info.properties with
      | some properties =>
          obtain ⟨before, first, rest⟩ := properties
          rw [Option.elim_none, Option.elim_some, List.nil_append, List.append_assoc]
          exact break_gap before.2 _
      | none => exact isBreak

theorem break_infos (infos : List ResInfo) (last : Gap) :
    Break (infos.flatMap ResInfo.lexemes ++ Gap.lexemes last) := by
  have ends : Break (Gap.lexemes last) := by
    have all := break_gap_append last (show Break [] from nofun)
    rwa [List.append_nil] at all
  cases infos with
  | nil => exact ends
  | cons info infos =>
      rw [List.flatMap_cons, ResInfo.lexemes, List.append_assoc, List.append_assoc]
      refine break_gap_append info.before ?_
      rintro _ ⟨⟩
      exact .inr (.inr rfl)

/-- A verdict of a result is shown, given the lexemes after the result. -/
def Shown (shown : ResInfo → List Lexeme → Prop) (last : List Lexeme) : List ResInfo → Prop
  | [] => False
  | info :: rest =>
      shown info (rest.flatMap ResInfo.lexemes ++ last) ∨ Shown shown last rest

/-- Each semicolon of the results is that of one of them. -/
theorem atSemicolon_infos {shown : ResInfo → List Lexeme → Prop}
    (clause : ∀ info next, Break (info.tail ++ next) →
      (reads (lower (render (info.clause ++ next))) = true ↔ shown info next))
    (infos : List ResInfo) (last : Gap) :
    AtSemicolon reads (infos.flatMap ResInfo.lexemes ++ Gap.lexemes last) ↔
      Shown shown (Gap.lexemes last) infos := by
  induction infos with
  | nil =>
      rw [List.flatMap_nil, List.nil_append]
      exact iff_of_false (not_atSemicolon (gap_notMem last)) id
  | cons info infos ih =>
      have shape : (info :: infos).flatMap ResInfo.lexemes ++ Gap.lexemes last =
          Gap.lexemes info.before ++ (.semicolon :: (info.clause ++
            (infos.flatMap ResInfo.lexemes ++ Gap.lexemes last))) := by
        simp [ResInfo.lexemes]
      rw [shape, atSemicolon_append (gap_notMem _), atSemicolon_cons, and_iff_right rfl,
        clause info _ (break_tail info (break_infos infos last)),
        atSemicolon_append (clause_notMem info), ih]
      rfl

/-- Nothing before the results is a semicolon. -/
theorem front_notMem (header : Header) : Lexeme.semicolon ∉ header.front := by
  have version : Lexeme.semicolon ∉ header.version.elim []
      fun (before, digits, after) =>
        Gap.lexemes before.val ++ Digits.lexeme digits :: Gap.lexemes after := by
    cases header.version <;> simp [Digits.lexeme]
  simp [Header.front, version]

/-- A reading that holds of no text whose first character, after blanks, is not the letter that
a verdict on the sender begins with. -/
def NeedsMethod (reads : List Char → Bool) : Prop :=
  ∀ (text : List Char) (char : Char), (text.dropWhile isWhitespace).head? = some char →
    's' ≠ char → reads text = false

/-- The first reader wants the method at once. -/
theorem passesAt_needs : NeedsMethod passesAt := by
  intro text char isFirst apart
  rw [passesAt, show "spf=pass".toList = 's' :: "pf=pass".toList from rfl,
    isPrefixOf?_head apart isFirst]
  rfl

theorem failsAt_needs : NeedsMethod failsAt := by
  intro text char isFirst apart
  rw [failsAt, fails, show "spf=".toList = 's' :: "pf=".toList from rfl,
    isPrefixOf?_head apart isFirst]
  rfl

/-- A reading at the semicolons of a body is one of its results. -/
theorem atSemicolon_body {shown : ResInfo → List Lexeme → Prop}
    (clause : ∀ info next, Break (info.tail ++ next) →
      (reads (lower (render (info.clause ++ next))) = true ↔ shown info next))
    (needs : NeedsMethod reads) (body : Body) (last : Gap) :
    AtSemicolon reads (body.lexemes ++ Gap.lexemes last) ↔
      Shown shown (Gap.lexemes last) body.results := by
  cases body with
  | infos first rest => exact atSemicolon_infos clause (first :: rest) last
  | noResult before after spelled =>
      let nothing := Spelling.lexeme spelled (by decide)
      have shape : (Body.noResult before after spelled).lexemes ++ Gap.lexemes last =
          Gap.lexemes before ++ (.semicolon :: (Gap.lexemes after ++
            nothing :: Gap.lexemes last)) := by
        simp [Body.lexemes, nothing]
      have lowered : lower (render (nothing :: Gap.lexemes last)) =
          "none".toList ++ lower (render (Gap.lexemes last)) := by
        rw [lower_render_cons, ← spelled.2]
        rfl
      have silent : reads (lower (render (Gap.lexemes after ++
          nothing :: Gap.lexemes last))) = false := by
        rcases dropWhile_gap after (nothing :: Gap.lexemes last) with
          ⟨-, passed⟩ | ⟨-, isFirst⟩
        · exact needs _ 'n' (by rw [passed, lowered]; rfl) (by decide)
        · exact needs _ '(' isFirst (by decide)
      rw [shape, atSemicolon_append (gap_notMem _), atSemicolon_cons, silent]
      refine iff_of_false ?_ id
      rintro (⟨-, found⟩ | found)
      · cases found
      · exact not_atSemicolon (by simp [nothing, Spelling.lexeme]) found

/-- The verdicts that the results of a header show. -/
def Header.ShowsPass (header : Header) : Prop :=
  Shown ResInfo.ShowsPass (Gap.lexemes header.last) header.body.results

/-- Some result shows a failed check. -/
def Header.ShowsFail (header : Header) : Prop :=
  ∃ info ∈ header.body.results, info.ShowsFail

/-- A comment or a quoted string of the header has a verdict in it. -/
def Header.Hides (reads : List Char → Bool) (header : Header) : Prop :=
  ∃ lexeme ∈ header.lexemes, lexeme.isString = true ∧ reads lexeme.text = true

theorem shown_fails (last : List Lexeme) (infos : List ResInfo) :
    Shown (fun info _ => info.ShowsFail) last infos ↔ ∃ info ∈ infos, info.ShowsFail := by
  induction infos with
  | nil => exact iff_of_false id (by simp)
  | cons info infos ih =>
      rw [Shown, ih]
      simp

/-- What the first reader takes for a pass of the sender check. -/
theorem spfPassed_text (header : Header) :
    spfPassed header.text = true ↔ header.ShowsPass ∨ header.Hides spfPassed := by
  rw [spfPassed_iff, Header.text, afterSemicolon_render passesAt_stops, Header.lexemes,
    atSemicolon_append (front_notMem header), atSemicolon_body passes_clause passesAt_needs]
  refine or_congr_right (exists_congr fun lexeme => and_congr_right fun _ =>
    and_congr_right fun _ => (spfPassed_iff lexeme.text).symm)

/-- A string that begins a text is no verdict. -/
theorem string_silent (needs : NeedsMethod reads) {lexeme : Lexeme}
    (isString : lexeme.isString = true) : reads (lower lexeme.text) = false := by
  cases lexeme with
  | comment content => exact needs _ '(' rfl (by decide)
  | quoted content => exact needs _ '"' rfl (by decide)
  | blank | word | semicolon => cases isString

/-- What follows the name of the relay. -/
def Header.afterName (header : Header) : List Lexeme :=
  (header.version.elim [] fun (before, digits, after) =>
      Gap.lexemes before.val ++ Digits.lexeme digits :: Gap.lexemes after) ++
    (header.body.lexemes ++ Gap.lexemes header.last)

theorem break_afterName (header : Header) : Break header.afterName := by
  rw [Header.afterName]
  cases header.version with
  | some version =>
      obtain ⟨before, digits, after⟩ := version
      rw [Option.elim_some, List.append_assoc]
      exact break_gap before.2 _
  | none =>
      rw [Option.elim_none, List.nil_append]
      cases header.body with
      | infos first rest => exact break_infos (first :: rest) header.last
      | noResult before after spelled =>
          rw [Body.lexemes, List.append_assoc]
          refine break_gap_append before ?_
          rintro _ ⟨⟩
          exact .inr (.inr rfl)

theorem lexemes_eq (header : Header) :
    header.lexemes =
      Gap.lexemes header.lead ++ header.authservId.lexeme :: header.afterName := by
  simp [Header.lexemes, Header.front, Header.afterName]

/-- What a character of a token is not. -/
theorem isTokenChar_iff {char : Char} (isToken : isTokenChar char = true) :
    isWhitespace char = false ∧ char ∉ tspecials := by
  simpa [isTokenChar] using isToken

/-- What a header begins with is no verdict. -/
theorem front_silent (header : Header) : failsAt (lower header.text) = false := by
  rw [Header.text, lexemes_eq]
  rcases dropWhile_gap header.lead (header.authservId.lexeme :: header.afterName) with
    ⟨-, passed⟩ | ⟨-, isFirst⟩
  · cases name : header.authservId with
    | quoted content =>
        rw [name] at passed
        exact failsAt_needs _ '"' (by rw [passed]; rfl) (by decide)
    | token word =>
        have plain (char : Char) (member : char ∈ word.val) :=
          isTokenChar_iff (word.2.2 char member)
        have absent : '=' ∉ lower word.val := by
          intro member
          obtain ⟨char, within, lowers⟩ := List.mem_map.mp member
          have isEquals := (toLower_eq_iff (by decide) (by decide)).mp lowers
          exact (plain char within).2 (isEquals ▸ by decide)
        have breaks := head_break (break_afterName header)
        have noLetter : ∀ char ∈ [' ', '\t', '\r', '\n', '(', ';'],
            char ∉ "spf".toList ∧ '=' ≠ char := by decide
        have shape : lower (render (Value.lexeme (.token word) :: header.afterName)) =
            lower word.val ++ lower (render header.afterName) := lower_render_cons ..
        rw [name] at passed
        rw [failsAt, passed, shape,
          dropWhile_word word.2.1 fun char member => (plain char member).1, fails,
          show "spf=".toList = "spf".toList ++ '=' :: [] from rfl,
          isPrefixOf?_word absent fun char first => (noLetter char (breaks char first)).1]
        split
        · cases shape : lower (render header.afterName) with
          | nil => rfl
          | cons first more =>
              have apart := (noLetter first (breaks first (by rw [shape]; rfl))).2
              rw [isPrefixOf?_head apart rfl]
              rfl
        · rfl
  · exact failsAt_needs _ '(' isFirst (by decide)

/-- What the other reader takes for a failure of the sender check. -/
theorem spfFailed_text (header : Header) :
    spfFailed header.text = true ↔ header.ShowsFail ∨ header.Hides spfFailed := by
  rw [spfFailed_iff, front_silent, Header.text, afterSemicolon_render failsAt_stops,
    Header.lexemes, atSemicolon_append (front_notMem header),
    atSemicolon_body fails_clause failsAt_needs, shown_fails,
    or_iff_right Bool.false_ne_true]
  refine or_congr_right (exists_congr fun lexeme => and_congr_right fun _ =>
    and_congr_right fun isString => ?_)
  rw [spfFailed_iff, string_silent failsAt_needs isString, or_iff_right Bool.false_ne_true]

/-- What the header begins with, up to a blank or a semicolon, is the expected name. -/
def Header.Opens (header : Header) (expected : List Char) : Prop :=
  lower (writtenWord header.text) = lower (trim expected)

theorem writtenWord_ne (header : Header) : writtenWord header.text ≠ [] := by
  have begins {char : Char} (notStop : isStop char = false)
      (isFirst : ((lower header.text).dropWhile isWhitespace).head? = some char) :
      writtenWord header.text ≠ [] := by
    intro none
    have lowered := lower_writtenWord header.text
    obtain ⟨rest, split⟩ := List.head?_eq_some_iff.mp isFirst
    rw [none, split, List.takeWhile_cons_of_pos (by simp [notStop])] at lowered
    cases lowered
  rw [Header.text, lexemes_eq] at begins ⊢
  rcases dropWhile_gap header.lead (header.authservId.lexeme :: header.afterName) with
    ⟨-, passed⟩ | ⟨-, isFirst⟩
  · rw [passed] at begins
    cases name : header.authservId with
    | quoted content =>
        rw [name] at begins
        exact begins (show isStop '"' = false by decide) rfl
    | token word =>
        obtain ⟨first, more, split⟩ := List.exists_cons_of_ne_nil word.2.1
        obtain ⟨notBlank, plain⟩ := isTokenChar_iff
          (word.2.2 first (split ▸ List.mem_cons_self))
        have notStop : isStop first.toLower = false := by
          rw [isStop, toLower_blank, notBlank, Bool.false_or, decide_eq_false_iff_not,
            toLower_eq_semicolon]
          rintro rfl
          exact plain (by decide)
        have shape : lower (render (Value.lexeme (.token word) :: header.afterName)) =
            lower word.val ++ lower (render header.afterName) := lower_render_cons ..
        have stays := dropWhile_word word.2.1
          (fun char member => (isTokenChar_iff (word.2.2 char member)).1)
          (lower (render header.afterName))
        rw [name, shape, stays, split] at begins
        exact begins notStop rfl
  · exact begins (show isStop '(' = false by decide) isFirst

/-- The third reader asks how the header opens. -/
theorem reportedBy_text (header : Header) (expected : List Char) :
    reportedBy header.text expected = true ↔ header.Opens expected :=
  (reportedBy_iff header.text expected).trans (and_iff_right (writtenWord_ne header))

/-- The relay that the header names, in the case that its name is written in. -/
def Header.NamedBy (header : Header) (expected : List Char) : Prop :=
  lower header.authservId.meaning = lower (trim expected)

/-- Some result of the header is the verdict. -/
def Header.Has (header : Header) (verdict : List Char) : Prop :=
  ∃ info ∈ header.body.results, info.Has verdict

end Headers

/-! ### The verdict on the sender -/

section Verdicts

/-- The readers find what the header says: a pass that the expected relay reports, and a
failure. -/
def Agree (header : Header) (expected : List Char) : Prop :=
  ((reportedBy header.text expected = true ∧ spfPassed header.text = true) ↔
      (header.NamedBy expected ∧ header.Has "pass".toList)) ∧
    (spfFailed header.text = true ↔ header.Has "fail".toList)

/-- A header that is written as the readers expect: a pass of the expected relay is shown, and
the name and the pass that are shown, or hidden in a comment or a quoted string, are the
header's own; and so with a failure. -/
structure ReadAsMeant (header : Header) (expected : List Char) : Prop where
  accepted : header.NamedBy expected → header.Has "pass".toList →
    header.Opens expected ∧ (header.ShowsPass ∨ header.Hides spfPassed)
  refused : header.Opens expected → header.ShowsPass ∨ header.Hides spfPassed →
    header.NamedBy expected ∧ header.Has "pass".toList
  failed : header.Has "fail".toList → header.ShowsFail ∨ header.Hides spfFailed
  spared : header.ShowsFail ∨ header.Hides spfFailed → header.Has "fail".toList

/-- The readers agree with the grammar on the headers that are written as they expect, and on
no others. -/
theorem verdicts_iff (header : Header) (expected : List Char) :
    Agree header expected ↔ ReadAsMeant header expected := by
  rw [Agree, reportedBy_text, spfPassed_text, spfFailed_text]
  constructor
  · rintro ⟨passes, fails⟩
    exact ⟨fun named has => passes.mpr ⟨named, has⟩, fun opens found => passes.mp ⟨opens, found⟩,
      fails.mpr, fails.mp⟩
  · rintro ⟨accepted, refused, failed, spared⟩
    exact ⟨⟨fun both => refused both.1 both.2, fun both => accepted both.1 both.2⟩,
      ⟨spared, failed⟩⟩

def Comment.ofText : List Char → Comment
  | [] => .close
  | char :: rest =>
      if plain : char ∉ ['(', ')', '\\'] then .letter char plain (ofText rest)
      else .pair char (ofText rest)

/-- `mx; dkim=pass (a; spf=pass ) header.d=a`, with the domain of the sender's choosing. -/
def commented : Header :=
  let info : ResInfo :=
    { before := [], first := [.blank ⟨' ', by decide⟩], method := ⟨"dkim".toList, by decide⟩
      version := none, beforeEq := [], afterEq := [], result := ⟨"pass".toList, by decide⟩
      reason := none
      properties := some
        (⟨[.blank ⟨' ', by decide⟩, .comment (.ofText "a; spf=pass ".toList),
            .blank ⟨' ', by decide⟩], nofun⟩,
          { ptype := ⟨"header".toList, by decide⟩, beforeDot := [], afterDot := []
            property := ⟨['d'], by decide⟩, beforeEq := [], beforeValue := []
            value := .domain ⟨['a'], by decide⟩, after := [] }, []) }
  { lead := [], authservId := .token ⟨"mx".toList, by decide⟩, version := none
    body := .infos info [], last := [] }

/-- A comment passes for the relay's verdict. -/
theorem pass_from_comment : ¬ ∀ header expected, Agree header expected := by
  intro agree
  have reported : reportedBy commented.text "mx".toList = true := by decide +kernel
  have passed : spfPassed commented.text = true := by decide +kernel
  obtain ⟨-, info, member, isMethod, -⟩ := (agree commented "mx".toList).1.mp ⟨reported, passed⟩
  rw [List.mem_singleton.mp member] at isMethod
  exact absurd isMethod (by decide)

end Verdicts

end NookOs.Mail.AuthenticationResults
