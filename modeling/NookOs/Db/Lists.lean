/-
Module: NookOs.Db.Lists
Purpose: The rewriting of list parameters for SQLite: the scanner, the membership
  tests it turns round, and the SQL texts whose meaning it keeps.
Trusted boundary: both engines compare the left operand with a value alike
Main exports: DbValue, expandLists, rewriteMembership, rewriteFrom_pieces, expandLists_preserves
-/
import NookOs.Lib.Kleene
import NookOs.Lib.Text
import Mathlib.Data.List.Forall2

namespace NookOs.Db.Lists

open Lib
open Lib.Kleene (Truth anyOf allOf)

section Values

/-- A bound parameter.  A value that is bound as it is stands for itself. -/
inductive DbValue (Other : Type) where
  | text (value : Option String)
  | uuid (value : Option Nat)
  | i64 (value : Option Int)
  | other (value : Other)
  | textList (values : List String)
  | uuidList (values : List Nat)
  | i64List (values : List Int)
deriving DecidableEq

variable {Other : Type}

def DbValue.isList : DbValue Other → Bool
  | textList _ | uuidList _ | i64List _ => true
  | _ => false

/-- The scalar binds of a parameter. -/
def DbValue.scalars : DbValue Other → List (DbValue Other)
  | textList values => values.map fun value => text (some value)
  | uuidList values => values.map fun value => uuid (some value)
  | i64List values => values.map fun value => i64 (some value)
  | scalar => [scalar]

end Values

section Scanner

def trimEnd (text : List Char) : List Char := text.rdropWhile Text.isWhitespace

def stripSuffix (pattern text : List Char) : Option (List Char) := pattern.isSuffixOf? text

def endsWithCi (text suffix : List Char) : Bool :=
  suffix.length ≤ text.length &&
    (text.drop (text.length - suffix.length)).map Char.toUpper = suffix

/-- Whether the test at the end of a text is `ALL` or `ANY`. -/
def quantifier (head : List Char) : Option Bool :=
  if endsWithCi head "ALL".toList then some true
  else if endsWithCi head "ANY".toList then some false
  else none

def stripOperator (head : List Char) : List Char :=
  (((stripSuffix "!=".toList head).or (stripSuffix "<>".toList head)).or
    (stripSuffix "=".toList head)).getD head

/-- The end of the text as `IN (` or `NOT IN (`, where it opens a membership test. -/
def openMembership (out : List Char) : Bool × List Char :=
  match stripSuffix "(".toList (trimEnd out) with
  | none => (false, out)
  | some head =>
      let head := trimEnd head
      match quantifier head with
      | none => (false, out)
      | some negated =>
          let head := stripOperator (trimEnd (head.take (head.length - 3)))
          (true, trimEnd head ++ ' ' :: if negated then "NOT IN (".toList else "IN (".toList)

def dollar (number : Nat) : List Char := '$' :: Nat.toDigits 10 number

/-- Placeholders with a comma and a blank between them. -/
def joined : List Nat → List Char
  | [] => []
  | [number] => dollar number
  | number :: rest => dollar number ++ ',' :: ' ' :: joined rest

/-- The walk over the text, where it does not panic: a number without a parameter
does. -/
def rewriteFrom (groups : List (List Nat)) (isList : List Bool) (chars out : List Char) :
    Option (List Char) :=
  match chars with
  | [] => some out
  | char :: rest =>
      if char ≠ '$' then rewriteFrom groups isList rest (out ++ [char])
      else
        let digits := rest.takeWhile Char.isDigit
        if digits = [] then rewriteFrom groups isList rest (out ++ ['$'])
        else
          match Nat.ofDigitChars 10 digits 0 with
          | 0 => none
          | index + 1 =>
              match groups[index]?, isList[index]? with
              | some group, some true =>
                  let (membership, opened) := openMembership out
                  rewriteFrom groups isList (rest.dropWhile Char.isDigit)
                    (if group = [] then if membership then opened else opened ++ "NULL".toList
                    else opened ++ joined group)
              | some (number :: _), some false =>
                  rewriteFrom groups isList (rest.dropWhile Char.isDigit) (out ++ dollar number)
              | _, _ => none
termination_by chars.length
decreasing_by
  all_goals
    have shorter : (rest.dropWhile Char.isDigit).length ≤ rest.length :=
      (List.dropWhile_sublist Char.isDigit).length_le
    simp only [List.length_cons]
    omega

def rewriteMembership (sql : List Char) (groups : List (List Nat)) (isList : List Bool) :
    Option (List Char) :=
  rewriteFrom groups isList sql []

variable {Other : Type}

/-- The new numbers of each parameter. -/
def groupsFrom : Nat → List (DbValue Other) → List (List Nat)
  | _, [] => []
  | next, param :: rest =>
      List.range' next param.scalars.length :: groupsFrom (next + param.scalars.length) rest

def expandLists (sql : List Char) (params : List (DbValue Other)) :
    Option (List Char × List (DbValue Other)) :=
  if !params.any DbValue.isList then some (sql, params)
  else
    (rewriteMembership sql (groupsFrom 1 params) (params.map DbValue.isList)).map fun out =>
      (out, params.flatMap DbValue.scalars)

end Scanner

section Texts

/-- What a stretch of SQL is: code, a string, a quoted identifier or a comment. -/
inductive Kind where
  | code
  | string
  | identifier
  | lineComment
  | blockComment
deriving DecidableEq

inductive Operator where
  | eq
  | bangEq
  | ltGt
deriving DecidableEq

def Operator.text : Operator → List Char
  | eq => "=".toList
  | bangEq => "!=".toList
  | ltGt => "<>".toList

/-- The end of a membership test up to its placeholder, with the blanks and comments
between its tokens. -/
structure Test where
  lead : List Char
  operator : Operator
  gap : List Char
  all : Bool
  word : List Char
  gapOpen : List Char
  gapInner : List Char
  digits : List Char
deriving DecidableEq

def Test.opening (test : Test) : List Char :=
  test.lead ++ test.operator.text ++ test.gap ++ test.word ++ test.gapOpen ++
    '(' :: test.gapInner

/-- A piece of an SQL text.  What is quoted or a comment has its marks. -/
inductive Piece where
  | text (kind : Kind) (chars : List Char)
  | placeholder (digits : List Char)
  | test (test : Test)
deriving DecidableEq

def Piece.render : Piece → List Char
  | text _ chars => chars
  | placeholder digits => '$' :: digits
  | test membership => membership.opening ++ '$' :: membership.digits

/-- A piece of the text for SQLite. -/
inductive Target where
  | text (chars : List Char)
  | placeholder (digits : List Char)
  | listing (numbers : List Nat)
  | membership (negated : Bool) (numbers : List Nat)
deriving DecidableEq

def Target.render : Target → List Char
  | text chars => chars
  | placeholder digits => '$' :: digits
  | listing numbers => if numbers = [] then "NULL".toList else joined numbers
  | membership negated numbers =>
      ' ' :: (if negated then "NOT IN (".toList else "IN (".toList) ++ joined numbers

def number (digits : List Char) : Nat := Nat.ofDigitChars 10 digits 0

/-- The placeholder of a piece. -/
def Piece.digits : Piece → Option (List Char)
  | text _ _ => none
  | placeholder digits => some digits
  | test membership => some membership.digits

variable {Other : Type}

/-- The numbers that a parameter's values have among all values. -/
def numbersOf (params : List (DbValue Other)) (index : Nat) : List Nat :=
  List.range' (1 + ((params.take index).flatMap DbValue.scalars).length)
    ((params[index]?.toList.flatMap DbValue.scalars).length)

/-- The values that numbers are bound to. -/
def boundValues (flat : List (DbValue Other)) (numbers : List Nat) : List (DbValue Other) :=
  numbers.filterMap fun number => flat[number - 1]?

/-- What a test is of Postgres, from whether its left operand equals each value. -/
def Test.meaning (test : Test) (equals : List Truth) : Truth :=
  let compared := if test.operator = .eq then equals else equals.map Truth.not
  if test.all then allOf compared else anyOf compared

/-- What `IN` and `NOT IN` are of SQLite.  The empty list has no member, NULL
included. -/
def membershipMeaning (negated : Bool) (equals : List Truth) : Truth :=
  if negated then (anyOf equals).not else anyOf equals

/-- The placeholder is that of a parameter. -/
def IsPlaceholder (params : List (DbValue Other)) (digits : List Char) (index : Nat)
    (param : DbValue Other) : Prop :=
  digits ≠ [] ∧ (∀ char ∈ digits, char.isDigit = true) ∧ number digits = index + 1 ∧
    params[index]? = some param

/-- Blanks and comments. -/
inductive Gap : List Char → Prop where
  | nil : Gap []
  | blank {char : Char} {rest : List Char} (isBlank : Text.isWhitespace char = true)
      (gap : Gap rest) : Gap (char :: rest)
  | line {body rest : List Char} (gap : Gap rest) : Gap ("--".toList ++ body ++ '\n' :: rest)
  | block {body rest : List Char} (gap : Gap rest) :
      Gap ("/*".toList ++ body ++ "*/".toList ++ rest)

def Blank (text : List Char) : Prop := ∀ char ∈ text, Text.isWhitespace char = true

/-- The tokens of a test. -/
structure Test.Legal (test : Test) : Prop where
  lead : Blank test.lead
  gap : Gap test.gap
  word : test.word.map Char.toUpper = if test.all then "ALL".toList else "ANY".toList
  gapOpen : Gap test.gapOpen
  gapInner : Gap test.gapInner

/-- What stands before a test: the blanks after it are the test's own, but for the
line feed that ends a comment, and its end and the operator are two tokens. -/
def Test.Follows (test : Test) : Option Piece → Prop
  | some (.text kind chars) => kind = .lineComment ∨ ∀ last ∈ chars.getLast?,
      Text.isWhitespace last = false ∧ (test.lead = [] → last ∉ ['!', '<', '>', '='])
  | _ => True

/-- The grammar, after the pieces before, the latest first: a placeholder has a
parameter and ends where its digits do, and that of a test is a list. -/
def Legal (params : List (DbValue Other)) : List Piece → List Piece → Prop
  | _, [] => True
  | previous, piece :: rest =>
      (match piece with
        | .text _ chars => chars ≠ []
        | .placeholder digits => ∃ index param, IsPlaceholder params digits index param
        | .test test =>
            (∃ index param, IsPlaceholder params test.digits index param ∧
              param.isList = true) ∧ test.Legal ∧ test.Follows previous.head?) ∧
      (piece.digits.isSome = true →
        ∀ char ∈ (rest.flatMap Piece.render).head?, char.isDigit = false) ∧
      Legal params (piece :: previous) rest

/-- The text since the last placeholder. -/
def since : List Piece → List Char
  | .text _ chars :: earlier => since earlier ++ chars
  | _ => []

/-- No dollar sign before a digit. -/
def NoPlaceholder (text : List Char) : Prop :=
  ∀ before char after, text = before ++ '$' :: char :: after → char.isDigit = false

/-- The test is `= ANY`, `!= ALL` or `<> ALL`, or its list is empty. -/
def Test.Turns (params : List (DbValue Other)) (test : Test) : Prop :=
  (test.all = true ↔ test.operator ≠ .eq) ∨
    ∀ index param, IsPlaceholder params test.digits index param → param.scalars = []

/-- The text may stand before what comes since the last placeholder: nothing, where there is
no placeholder. -/
def Before (previous : List Piece) (front : List Char) : Prop :=
  (∀ piece ∈ previous, piece.digits = none) → front = []

/-- The text before opens no membership test, whatever its placeholders become. -/
def OpensNone (previous : List Piece) : Prop :=
  ∀ front, Before previous front → (openMembership (front ++ since previous)).1 = false

/-- Nothing but a placeholder looks like one; a list outside the tests does not stand
in what looks like one; no test has a comment between its tokens or right before it;
and every test is one that the rewriting turns rightly. -/
def Fit (params : List (DbValue Other)) : List Piece → List Piece → Prop
  | _, [] => True
  | previous, piece :: rest =>
      (match piece with
        | .text _ chars =>
            NoPlaceholder (chars ++ (rest.flatMap Piece.render).take 1)
        | .placeholder digits =>
            ∀ index param, IsPlaceholder params digits index param → param.isList = true →
              OpensNone previous
        | .test test =>
            (Blank test.gap ∧ Blank test.gapOpen ∧ Blank test.gapInner) ∧ test.Turns params ∧
              ∀ chars, previous.head? ≠ some (.text .lineComment chars)) ∧
      Fit params (piece :: previous) rest

/-- A piece of the rewritten text is that of the original: quoted or not, a text is as
it was; a placeholder is that of the same value, or those of the values of the same
list; and a test is a test of the same values that means the same, whatever its left
operand equals. -/
def Corresponds (params flat : List (DbValue Other)) : Piece → Target → Prop
  | .text _ chars, .text same => same = chars
  | .placeholder digits, .placeholder new =>
      ∃ index param, IsPlaceholder params digits index param ∧
        [number new] = numbersOf params index ∧ boundValues flat [number new] = [param]
  | .placeholder digits, .listing numbers =>
      ∃ index param, IsPlaceholder params digits index param ∧ param.isList = true ∧
        numbers = numbersOf params index ∧ boundValues flat numbers = param.scalars
  | .test test, .membership negated numbers =>
      ∃ index param, IsPlaceholder params test.digits index param ∧
        numbers = numbersOf params index ∧
        ∀ equals : DbValue Other → Truth, test.meaning (param.scalars.map equals) =
          membershipMeaning negated ((boundValues flat numbers).map equals)
  | _, _ => False

/-- The expansion keeps the meaning of a text: it does not panic, its pieces are those
of the original, and the placeholders of all parameters are the numbers of the
returned values, in order. -/
def Preserves (params : List (DbValue Other)) (pieces : List Piece) : Prop :=
  ∃ out flat targets, expandLists (pieces.flatMap Piece.render) params = some (out, flat) ∧
    out = targets.flatMap Target.render ∧
    List.Forall₂ (Corresponds params flat) pieces targets ∧
    (List.range params.length).flatMap (numbersOf params) = List.range' 1 flat.length

end Texts

section Numbers

variable {Other : Type} {params : List (DbValue Other)} {index : Nat} {param : DbValue Other}

theorem groupsFrom_getElem? (next : Nat) (params : List (DbValue Other)) (index : Nat) :
    (groupsFrom next params)[index]? = params[index]?.map fun param =>
      List.range' (next + ((params.take index).flatMap DbValue.scalars).length)
        param.scalars.length := by
  induction params generalizing next index with
  | nil => rfl
  | cons param rest ih =>
      cases index with
      | zero => rfl
      | succ index =>
          rw [groupsFrom, List.getElem?_cons_succ, ih,
            List.getElem?_cons_succ, List.take_succ_cons, List.flatMap_cons, List.length_append,
            Nat.add_assoc]

theorem numbersOf_eq (isParam : params[index]? = some param) : numbersOf params index =
    List.range' (1 + ((params.take index).flatMap DbValue.scalars).length)
      param.scalars.length := by
  rw [numbersOf, isParam, Option.toList_some, List.flatMap_singleton]

theorem group_eq (isParam : params[index]? = some param) :
    (groupsFrom 1 params)[index]? = some (numbersOf params index) := by
  rw [groupsFrom_getElem?, isParam, Option.map_some, numbersOf_eq isParam]

/-- Consecutive numbers are bound to consecutive values. -/
theorem boundValues_range (front values back : List (DbValue Other)) :
    boundValues (front ++ values ++ back) (List.range' (1 + front.length) values.length) =
      values := by
  induction values generalizing front with
  | nil => rfl
  | cons value rest ih =>
      have here : (front ++ value :: rest ++ back)[1 + front.length - 1]? = some value := by
        rw [Nat.add_sub_cancel_left, List.append_assoc, List.cons_append,
          List.getElem?_append_right (Nat.le_refl _), Nat.sub_self, List.getElem?_cons_zero]
      have later := ih (front ++ [value])
      rw [List.length_append, List.length_singleton, ← Nat.add_assoc, List.append_assoc front,
        List.singleton_append] at later
      rw [boundValues, List.length_cons, List.range'_succ, List.filterMap_cons, here]
      exact congrArg (value :: ·) later

/-- A parameter's numbers are bound to its scalars. -/
theorem boundValues_numbersOf (isParam : params[index]? = some param) :
    boundValues (params.flatMap DbValue.scalars) (numbersOf params index) = param.scalars := by
  obtain ⟨within, rfl⟩ := List.getElem?_eq_some_iff.mp isParam
  have split : params.flatMap DbValue.scalars =
      (params.take index).flatMap DbValue.scalars ++ params[index].scalars ++
        (params.drop (index + 1)).flatMap DbValue.scalars := by
    rw [List.append_assoc, ← List.flatMap_cons, ← List.flatMap_append,
      List.getElem_cons_drop, List.take_append_drop]
  rw [numbersOf_eq isParam, split]
  exact boundValues_range _ _ _

theorem flatten_groupsFrom (next : Nat) (params : List (DbValue Other)) :
    (groupsFrom next params).flatten =
      List.range' next (params.flatMap DbValue.scalars).length := by
  induction params generalizing next with
  | nil => rfl
  | cons param rest ih =>
      rw [groupsFrom, List.flatten_cons, ih, List.flatMap_cons,
        List.length_append, ← List.range'_append_1]

/-- The numbers of all parameters are the places of all values. -/
theorem flatMap_numbersOf (params : List (DbValue Other)) :
    (List.range params.length).flatMap (numbersOf params) =
      List.range' 1 (params.flatMap DbValue.scalars).length := by
  have groups : (List.range params.length).map (numbersOf params) = groupsFrom 1 params := by
    apply List.ext_getElem?
    intro index
    rw [List.getElem?_map]
    by_cases within : index < params.length
    · rw [List.getElem?_range within, group_eq (List.getElem?_eq_getElem within)]
      rfl
    · have outside := List.getElem?_eq_none (Nat.le_of_not_lt within)
      rw [groupsFrom_getElem?, outside, List.getElem?_eq_none]
      · rfl
      · rw [List.length_range]
        exact Nat.le_of_not_lt within
  rw [List.flatMap_def, groups, flatten_groupsFrom]

theorem scalars_of_not_list (scalar : param.isList = false) : param.scalars = [param] := by
  cases param <;> first | rfl | cases scalar

theorem flatMap_scalars_of_none (none : params.any DbValue.isList = false) :
    params.flatMap DbValue.scalars = params := by
  induction params with
  | nil => rfl
  | cons param rest ih =>
      rw [List.any_cons, Bool.or_eq_false_iff] at none
      rw [List.flatMap_cons, scalars_of_not_list none.1, ih none.2]
      rfl

end Numbers

section Opening

variable {text blank : List Char}

theorem trimEnd_blank (isBlank : Blank blank) : trimEnd (text ++ blank) = trimEnd text := by
  induction blank using List.reverseRecOn with
  | nil => rw [List.append_nil]
  | append_singleton front char ih =>
      rw [← List.append_assoc, trimEnd, List.rdropWhile_concat_pos _ _ _ (isBlank char
        (List.mem_append_right front List.mem_cons_self))]
      exact ih fun other member => isBlank other
        (List.mem_append_left _ member)

theorem trimEnd_self (ends : ∀ last ∈ text.getLast?, Text.isWhitespace last = false) :
    trimEnd text = text := by
  apply List.rdropWhile_eq_self_iff.mpr
  intro nonempty isBlank
  rw [ends _ (List.getLast?_eq_some_getLast nonempty)] at isBlank
  cases isBlank

theorem stripSuffix_append (pattern : List Char) :
    stripSuffix pattern (text ++ pattern) = some text := by
  rw [stripSuffix, List.isSuffixOf?, List.reverse_append, Text.isPrefixOf?_append,
    Option.map_some, List.reverse_reverse]

theorem stripSuffix_none {pattern : List Char} (apart : ¬ pattern <:+ text) :
    stripSuffix pattern text = none := by
  rw [stripSuffix, List.isSuffixOf?, Text.isPrefixOf?_none fun isPrefix =>
    apart (List.reverse_prefix.mp isPrefix)]
  rfl

theorem endsWithCi_append {word suffix : List Char} (isWord : word.map Char.toUpper = suffix) :
    endsWithCi (text ++ word) suffix = true := by
  have same : suffix.length = word.length := by rw [← isWord, List.length_map]
  rw [endsWithCi, same, List.length_append, Nat.add_sub_cancel, List.drop_left, isWord,
    decide_eq_true rfl, Bool.and_true]
  exact decide_eq_true (Nat.le_add_left _ _)

theorem not_endsWithCi {word suffix : List Char} (sameLength : word.length = suffix.length)
    (other : word.map Char.toUpper ≠ suffix) : endsWithCi (text ++ word) suffix = false := by
  rw [endsWithCi, ← sameLength, List.length_append, Nat.add_sub_cancel, List.drop_left,
    decide_eq_false other, Bool.and_false]

/-- The word of a test is read back. -/
theorem quantifier_append {word : List Char} {all : Bool}
    (isWord : word.map Char.toUpper = if all then "ALL".toList else "ANY".toList) :
    quantifier (text ++ word) = some all := by
  cases all with
  | true =>
      have isAll : word.map Char.toUpper = "ALL".toList := isWord
      rw [quantifier, if_pos (endsWithCi_append isAll)]
  | false =>
      have isAny : word.map Char.toUpper = "ANY".toList := isWord
      have sameLength : word.length = "ALL".toList.length := by
        have lengths := congrArg List.length isWord
        rwa [List.length_map] at lengths
      have other : word.map Char.toUpper ≠ "ALL".toList := by
        rw [isWord]
        decide
      rw [quantifier, not_endsWithCi sameLength other, if_neg Bool.false_ne_true,
        if_pos (endsWithCi_append isAny)]

/-- So is its operator, which nothing before it makes longer. -/
theorem stripOperator_append {operator : Operator}
    (ends : operator = .eq → ∀ last ∈ text.getLast?, last ∉ ['!', '<', '>', '=']) :
    stripOperator (text ++ operator.text) = text := by
  have apart {pattern : List Char} {last other : Char} (isLast : pattern.getLast? = some last)
      (isOther : (text ++ operator.text).getLast? = some other) (differ : last ≠ other) :
      stripSuffix pattern (text ++ operator.text) = none := by
    apply stripSuffix_none
    intro ⟨front, same⟩
    rw [← same, List.getLast?_append, isLast, Option.some_or] at isOther
    exact differ (Option.some.inj isOther)
  cases operator with
  | bangEq =>
      have stripped : stripSuffix "!=".toList (text ++ Operator.bangEq.text) = some text :=
        stripSuffix_append _
      rw [stripOperator, stripped]
      rfl
  | ltGt =>
      have isEnd : (text ++ Operator.ltGt.text).getLast? = some '>' := by
        rw [List.getLast?_append]
        rfl
      have stripped : stripSuffix "<>".toList (text ++ Operator.ltGt.text) = some text :=
        stripSuffix_append _
      rw [stripOperator, @apart "!=".toList '=' '>' rfl isEnd (by decide), stripped]
      rfl
  | eq =>
      have isEnd : (text ++ Operator.eq.text).getLast? = some '=' := by
        rw [List.getLast?_append]
        rfl
      have notBang : stripSuffix "!=".toList (text ++ Operator.eq.text) = none := by
        apply stripSuffix_none
        intro ⟨front, same⟩
        have before : front ++ ['!'] = text := by
          have sameEnd : front ++ ['!'] ++ ['='] = text ++ ['='] := by
            rw [List.append_assoc]
            exact same
          exact List.append_cancel_right sameEnd
        exact ends rfl '!' (by rw [← before, List.getLast?_concat]; rfl) (by decide)
      have stripped : stripSuffix "=".toList (text ++ Operator.eq.text) = some text :=
        stripSuffix_append _
      rw [stripOperator, notBang, @apart "<>".toList '>' '=' rfl isEnd (by decide), stripped]
      rfl

/-- A blank has no letter case. -/
theorem toUpper_blank {char : Char} (isBlank : Text.isWhitespace char = true) :
    char.toUpper = char := by
  have small : ¬ (char.val ≥ 'a'.val ∧ char.val ≤ 'z'.val) := by
    intro isLower
    have atLeast : 97 ≤ char.toNat := UInt32.le_iff_toNat_le.mp isLower.1
    have atMost : char.toNat ≤ 122 := UInt32.le_iff_toNat_le.mp isLower.2
    rw [Text.isWhitespace] at isBlank
    simp at isBlank
    omega
  unfold Char.toUpper
  rw [dif_neg small]

theorem word_end {word : List Char} {all : Bool}
    (isWord : word.map Char.toUpper = if all then "ALL".toList else "ANY".toList) :
    word.length = 3 ∧ ∃ last, word.getLast? = some last ∧ Text.isWhitespace last = false := by
  have length : word.length = 3 := by
    have lengths := congrArg List.length isWord
    rw [List.length_map] at lengths
    rw [lengths]
    cases all <;> rfl
  obtain ⟨last, isLast⟩ : ∃ last, word.getLast? = some last := by
    apply Option.isSome_iff_exists.mp
    rw [List.getLast?_isSome]
    rintro rfl
    cases length
  refine ⟨length, last, isLast, ?_⟩
  have upper : some last.toUpper = (if all then "ALL".toList else "ANY".toList).getLast? := by
    rw [← isWord, List.getLast?_map, isLast, Option.map_some]
  cases isBlank : Text.isWhitespace last with
  | false => rfl
  | true =>
      rw [toUpper_blank isBlank] at upper
      cases all with
      | true | false =>
          cases upper
          cases isBlank

/-- A test without comments between its tokens is opened, and what stands before it is
left as it is. -/
theorem openMembership_test {test : Test} (legal : test.Legal) (gap : Blank test.gap)
    (gapOpen : Blank test.gapOpen) (gapInner : Blank test.gapInner)
    (ends : ∀ last ∈ text.getLast?, Text.isWhitespace last = false ∧
      (test.lead = [] → last ∉ ['!', '<', '>', '='])) :
    openMembership (text ++ test.opening) =
      (true, text ++ ' ' :: if test.all then "NOT IN (".toList else "IN (".toList) := by
  obtain ⟨wordLength, wordLast, isLast, notBlank⟩ := word_end legal.word
  have isOpening : text ++ test.opening = (text ++ test.lead ++ test.operator.text ++ test.gap ++
      test.word ++ test.gapOpen ++ "(".toList) ++ test.gapInner := by
    rw [Test.opening]
    simp
  have parenthesis : trimEnd (text ++ test.opening) = text ++ test.lead ++
      test.operator.text ++ test.gap ++ test.word ++ test.gapOpen ++ "(".toList := by
    rw [isOpening, trimEnd_blank gapInner]
    apply trimEnd_self
    intro last isEnd
    rw [List.getLast?_append] at isEnd
    cases isEnd
    decide
  have word : trimEnd (text ++ test.lead ++ test.operator.text ++ test.gap ++ test.word ++
      test.gapOpen) = text ++ test.lead ++ test.operator.text ++ test.gap ++ test.word := by
    rw [trimEnd_blank gapOpen]
    apply trimEnd_self
    intro last isEnd
    rw [List.getLast?_append, isLast, Option.some_or] at isEnd
    cases isEnd
    exact notBlank
  have dropped : (text ++ test.lead ++ test.operator.text ++ test.gap ++ test.word).take
      ((text ++ test.lead ++ test.operator.text ++ test.gap ++ test.word).length - 3) =
        text ++ test.lead ++ test.operator.text ++ test.gap := by
    rw [List.length_append, wordLength, Nat.add_sub_cancel, List.take_left]
  have operator : trimEnd (text ++ test.lead ++ test.operator.text ++ test.gap) =
      text ++ test.lead ++ test.operator.text := by
    rw [trimEnd_blank gap]
    apply trimEnd_self
    intro last isEnd
    rw [List.getLast?_append] at isEnd
    cases isOperator : test.operator <;> rw [isOperator] at isEnd <;> cases isEnd <;> decide
  have apart : test.operator = .eq → ∀ last ∈ (text ++ test.lead).getLast?,
      last ∉ ['!', '<', '>', '='] := by
    intro _ last isEnd
    cases isLead : test.lead with
    | nil =>
        rw [isLead, List.append_nil] at isEnd
        exact (ends last isEnd).2 isLead
    | cons first rest =>
        have isBlank : Text.isWhitespace last = true := by
          apply legal.lead
          have nonempty : test.lead ≠ [] := by
            rw [isLead]
            exact List.cons_ne_nil first rest
          rw [List.getLast?_append_of_ne_nil _ nonempty] at isEnd
          exact List.mem_of_getLast? isEnd
        intro member
        have notBlank : ∀ char ∈ ['!', '<', '>', '='], Text.isWhitespace char = false := by
          decide
        rw [notBlank last member] at isBlank
        cases isBlank
  have before : trimEnd (text ++ test.lead) = text := by
    rw [trimEnd_blank legal.lead]
    exact trimEnd_self fun last isEnd => (ends last isEnd).1
  rw [openMembership, parenthesis, stripSuffix_append]
  dsimp only
  rw [word, quantifier_append legal.word]
  dsimp only
  rw [dropped, operator, stripOperator_append apart, before]

end Opening

section Walk

variable {groups : List (List Nat)} {isList : List Bool} {out rest text : List Char}

/-- A text without a placeholder is copied. -/
theorem rewriteFrom_text {chars : List Char} (quiet : NoPlaceholder (chars ++ rest.take 1)) :
    rewriteFrom groups isList (chars ++ rest) out =
      rewriteFrom groups isList rest (out ++ chars) := by
  induction chars generalizing out with
  | nil => rw [List.nil_append, List.append_nil]
  | cons char chars ih =>
      have later : NoPlaceholder (chars ++ rest.take 1) := by
        intro before next after same
        exact quiet (char :: before) next after (by rw [List.cons_append, same]; rfl)
      have copied := @ih (out ++ [char]) later
      rw [List.append_assoc, List.singleton_append] at copied
      rw [List.cons_append, rewriteFrom]
      by_cases isDollar : char = '$'
      · subst isDollar
        have noDigits : (chars ++ rest).takeWhile Char.isDigit = [] := by
          cases follows : chars ++ rest with
          | nil => rfl
          | cons next others =>
              have notDigit : next.isDigit = false := by
                cases chars with
                | nil =>
                    rw [List.nil_append] at follows
                    exact quiet [] next [] (by rw [follows]; rfl)
                | cons first chars =>
                    cases follows
                    exact quiet [] next _ rfl
              rw [List.takeWhile_cons_of_neg (by rw [notDigit]; decide)]
        rw [if_neg (by decide)]
        dsimp only
        rw [if_pos noDigits, copied]
      · rw [if_pos isDollar, copied]

/-- The digits of a placeholder are read to their end. -/
theorem span_digits {digits : List Char} (areDigits : ∀ char ∈ digits, char.isDigit = true)
    (ends : ∀ char ∈ rest.head?, char.isDigit = false) :
    (digits ++ rest).takeWhile Char.isDigit = digits ∧
      (digits ++ rest).dropWhile Char.isDigit = rest := by
  rw [List.takeWhile_append_of_pos areDigits, List.dropWhile_append_of_pos areDigits]
  cases rest with
  | nil => exact ⟨List.append_nil _, rfl⟩
  | cons first others =>
      have notDigit := ends first rfl
      rw [List.takeWhile_cons_of_neg (by rw [notDigit]; decide),
        List.dropWhile_cons_of_neg (by rw [notDigit]; decide), List.append_nil]
      exact ⟨rfl, rfl⟩

theorem rewriteFrom_scalar {digits : List Char} {index new : Nat} (nonempty : digits ≠ [])
    (areDigits : ∀ char ∈ digits, char.isDigit = true)
    (ends : ∀ char ∈ rest.head?, char.isDigit = false) (isNumber : number digits = index + 1)
    (group : groups[index]? = some [new]) (scalar : isList[index]? = some false) :
    rewriteFrom groups isList ('$' :: digits ++ rest) out =
      rewriteFrom groups isList rest (out ++ dollar new) := by
  obtain ⟨taken, left⟩ := span_digits areDigits ends
  rw [List.cons_append, rewriteFrom, if_neg (by decide)]
  dsimp only
  rw [taken, if_neg nonempty, ← number, isNumber]
  dsimp only
  rw [group, scalar, left]

theorem openMembership_none (isNone : (openMembership text).1 = false) :
    openMembership text = (false, text) := by
  rw [openMembership.eq_def] at isNone ⊢
  cases stripped : stripSuffix "(".toList (trimEnd text) with
  | none => rfl
  | some head =>
      rw [stripped] at isNone
      dsimp only at isNone ⊢
      cases isQuantifier : quantifier (trimEnd head) with
      | none => rfl
      | some negated =>
          rw [isQuantifier] at isNone
          cases isNone

theorem rewriteFrom_listing {digits : List Char} {index : Nat} {numbers : List Nat}
    (nonempty : digits ≠ []) (areDigits : ∀ char ∈ digits, char.isDigit = true)
    (ends : ∀ char ∈ rest.head?, char.isDigit = false) (isNumber : number digits = index + 1)
    (group : groups[index]? = some numbers) (list : isList[index]? = some true)
    (opens : openMembership out = (false, out)) :
    rewriteFrom groups isList ('$' :: digits ++ rest) out =
      rewriteFrom groups isList rest (out ++ (Target.listing numbers).render) := by
  obtain ⟨taken, left⟩ := span_digits areDigits ends
  have isRender : (Target.listing numbers).render =
      if numbers = [] then "NULL".toList else joined numbers := rfl
  rw [List.cons_append, rewriteFrom, if_neg (by decide)]
  dsimp only
  rw [taken, if_neg nonempty, ← number, isNumber]
  dsimp only
  rw [group, list, opens, left, isRender]
  dsimp only
  cases numbers with
  | nil => rw [if_pos rfl, if_neg Bool.false_ne_true, if_pos rfl]
  | cons first others => rw [if_neg (List.cons_ne_nil _ _), if_neg (List.cons_ne_nil _ _)]

theorem rewriteFrom_list {digits : List Char} {index : Nat} {numbers : List Nat}
    {opened : List Char} (nonempty : digits ≠ []) (areDigits : ∀ char ∈ digits, char.isDigit = true)
    (ends : ∀ char ∈ rest.head?, char.isDigit = false) (isNumber : number digits = index + 1)
    (group : groups[index]? = some numbers) (list : isList[index]? = some true)
    (opens : openMembership out = (true, opened)) :
    rewriteFrom groups isList ('$' :: digits ++ rest) out =
      rewriteFrom groups isList rest (opened ++ joined numbers) := by
  obtain ⟨taken, left⟩ := span_digits areDigits ends
  rw [List.cons_append, rewriteFrom, if_neg (by decide)]
  dsimp only
  rw [taken, if_neg nonempty, ← number, isNumber]
  dsimp only
  rw [group, list, opens, left]
  dsimp only
  cases numbers with
  | nil => rw [if_pos rfl, if_pos rfl, joined, List.append_nil]
  | cons first others => rw [if_neg (List.cons_ne_nil _ _)]

/-- The tokens of a test without comments hold no dollar sign. -/
theorem opening_quiet {test : Test} (legal : test.Legal) (gap : Blank test.gap)
    (gapOpen : Blank test.gapOpen) (gapInner : Blank test.gapInner) :
    '$' ∉ test.opening := by
  have blank (text : List Char) (isBlank : Blank text) : '$' ∉ text := fun member =>
    absurd (isBlank '$' member) (by decide)
  have word : '$' ∉ test.word := by
    intro member
    have upper : '$' ∈ test.word.map Char.toUpper :=
      List.mem_map.mpr ⟨'$', member, by decide⟩
    rw [legal.word] at upper
    cases isAll : test.all <;> rw [isAll] at upper <;> exact absurd upper (by decide)
  have operator : '$' ∉ test.operator.text := by
    cases test.operator <;> decide
  rw [Test.opening]
  simp only [List.mem_append, List.mem_cons, Char.reduceEq, false_or, not_or]
  exact ⟨⟨⟨⟨⟨blank _ legal.lead, operator⟩, blank _ gap⟩, word⟩, blank _ gapOpen⟩,
    blank _ gapInner⟩

theorem noPlaceholder_of_quiet {text : List Char} (quiet : '$' ∉ text) :
    NoPlaceholder (text ++ ['$']) := by
  intro before char after same
  have shortened : text = before ++ '$' :: (char :: after).dropLast := by
    have dropped := congrArg List.dropLast same
    rwa [List.dropLast_concat, List.dropLast_append_of_ne_nil (List.cons_ne_nil _ _),
      List.dropLast_cons_of_ne_nil (List.cons_ne_nil _ _)] at dropped
  apply absurd _ quiet
  rw [shortened]
  exact List.mem_append_right before List.mem_cons_self

end Walk

section Meaning

variable {Other : Type} {params : List (DbValue Other)} {test : Test} {index : Nat}
  {param : DbValue Other}

/-- A test that turns means what it is turned into. -/
theorem Test.Turns.meaning (turns : test.Turns params)
    (isPlaceholder : IsPlaceholder params test.digits index param)
    (equals : DbValue Other → Truth) :
    test.meaning (param.scalars.map equals) =
      membershipMeaning test.all (param.scalars.map equals) := by
  cases turns with
  | inl turned =>
      rw [Test.meaning, membershipMeaning]
      cases isAll : test.all with
      | true =>
          rw [if_neg (turned.mp isAll), if_pos rfl, if_pos rfl, Kleene.not_anyOf]
      | false =>
          have isEq : test.operator = .eq := by
            by_contra other
            rw [turned.mpr other] at isAll
            cases isAll
          rw [if_pos isEq]
          rfl
  | inr isEmpty =>
      rw [isEmpty index param isPlaceholder, Test.meaning, membershipMeaning, List.map_nil,
        List.map_nil, ite_self]
      cases test.all <;> rfl

end Meaning

section Pieces

variable {Other : Type} {params : List (DbValue Other)}

/-- A test may follow the text written so far, when it may follow the pieces that text
was written for, and it ends as they do. -/
structure Ends (previous : List Piece) (out : List Char) : Prop where
  test : ∀ test : Test, test.Follows previous.head? →
    (∀ chars, previous.head? ≠ some (.text .lineComment chars)) →
    ∀ last ∈ out.getLast?, Text.isWhitespace last = false ∧
      (test.lead = [] → last ∉ ['!', '<', '>', '='])
  since : ∃ front, Before previous front ∧ out = front ++ since previous

variable {previous : List Piece}

theorem Ends.text {kind : Kind} {chars out : List Char}
    (ends : Ends previous out) (nonempty : chars ≠ []) :
    Ends (.text kind chars :: previous) (out ++ chars) where
  test := by
    intro test follows notComment last isLast
    rw [List.getLast?_append_of_ne_nil _ nonempty] at isLast
    cases follows with
    | inl isComment =>
        rw [isComment] at notComment
        exact absurd rfl (notComment chars)
    | inr apart => exact apart last isLast
  since := by
    obtain ⟨front, before, same⟩ := ends.since
    refine ⟨front, fun nowhere => ?_, by rw [same, Lists.since, List.append_assoc]⟩
    exact before fun piece member => nowhere piece (.tail _ member)

/-- A test may follow a digit, a parenthesis and the word NULL. -/
theorem Ends.of_last {piece : Piece} {text : List Char}
    (isParam : piece.digits.isSome = true) (out : List Char) (nonempty : text ≠ [])
    (ends : ∀ last ∈ text.getLast?, last.isDigit = true ∨ last ∈ ['(', 'L']) :
    Ends (piece :: previous) (out ++ text) where
  test := by
    intro test _ _ last isLast
    rw [List.getLast?_append_of_ne_nil _ nonempty] at isLast
    cases ends last isLast with
    | inl isDigit =>
        have bounds : 48 ≤ last.toNat ∧ last.toNat ≤ 57 := Char.isDigit_iff_toNat.mp isDigit
        constructor
        · rw [Text.isWhitespace]
          simp
          omega
        · intro _ member
          have noDigit : ∀ char ∈ ['!', '<', '>', '='], char.isDigit = false := by decide
          rw [noDigit last member] at isDigit
          cases isDigit
    | inr member =>
        have apart : ∀ char ∈ ['(', 'L'], Text.isWhitespace char = false ∧
            char ∉ ['!', '<', '>', '='] := by
          decide
        exact ⟨(apart last member).1, fun _ => (apart last member).2⟩
  since := by
    have here : Before (piece :: previous) (out ++ text) := fun nowhere => by
      rw [nowhere piece List.mem_cons_self] at isParam
      cases isParam
    refine ⟨out ++ text, here, ?_⟩
    cases piece with
    | text => cases isParam
    | placeholder | test => exact (List.append_nil _).symm

theorem dollar_last (number : Nat) : ∀ last ∈ (dollar number).getLast?, last.isDigit = true := by
  intro last isLast
  rw [dollar, List.getLast?_cons_of_ne_nil (Nat.toDigits_ne_nil)] at isLast
  exact Nat.isDigit_of_mem_toDigits (by decide) (by decide) (List.mem_of_getLast? isLast)

theorem joined_last (numbers : List Nat) :
    ∀ last ∈ (joined numbers).getLast?, last.isDigit = true := by
  induction numbers with
  | nil =>
      intro last isLast
      cases isLast
  | cons number rest ih =>
      cases rest with
      | nil => exact dollar_last number
      | cons other rest =>
          have nonempty : joined (other :: rest) ≠ [] := by
            cases rest <;> exact List.cons_ne_nil _ _
          intro last isLast
          have isJoined : joined (number :: other :: rest) =
              dollar number ++ ',' :: ' ' :: joined (other :: rest) := rfl
          rw [isJoined, List.getLast?_append_of_ne_nil _ (List.cons_ne_nil _ _),
            List.getLast?_cons_of_ne_nil (List.cons_ne_nil _ _),
            List.getLast?_cons_of_ne_nil nonempty] at isLast
          exact ih last isLast

theorem Ends.dollar {piece : Piece}
    (isParam : piece.digits.isSome = true) (out : List Char) (number : Nat) :
    Ends (piece :: previous) (out ++ dollar number) :=
  Ends.of_last isParam out (List.cons_ne_nil _ _) fun last isLast =>
    Or.inl (dollar_last number last isLast)

theorem Ends.listing {piece : Piece}
    (isParam : piece.digits.isSome = true) (out : List Char) (numbers : List Nat) :
    Ends (piece :: previous) (out ++ (Target.listing numbers).render) := by
  cases numbers with
  | nil =>
      apply Ends.of_last isParam out (List.cons_ne_nil _ _)
      intro last isLast
      cases isLast
      exact Or.inr (by decide)
  | cons number rest =>
      have nonempty : joined (number :: rest) ≠ [] := by
        cases rest <;> exact List.cons_ne_nil _ _
      exact Ends.of_last isParam out nonempty fun last isLast =>
        Or.inl (joined_last (number :: rest) last isLast)

theorem Ends.membership {piece : Piece} (isParam : piece.digits.isSome = true) (out : List Char)
    (negated : Bool) (numbers : List Nat) :
    Ends (piece :: previous) (out ++ (Target.membership negated numbers).render) := by
  have nonempty : (Target.membership negated numbers).render ≠ [] := List.cons_ne_nil _ _
  apply Ends.of_last isParam out nonempty
  intro last isLast
  have isRender : (Target.membership negated numbers).render =
      ' ' :: (if negated then "NOT IN (".toList else "IN (".toList) ++ joined numbers := rfl
  rw [isRender, List.getLast?_append] at isLast
  cases isEnd : (joined numbers).getLast? with
  | none =>
      rw [isEnd, Option.none_or] at isLast
      cases negated <;> cases isLast <;> exact Or.inr (by decide)
  | some char =>
      rw [isEnd] at isLast
      cases isLast
      exact Or.inl (joined_last numbers last isEnd)

section Placeholder

variable {previous : List Piece} {digits : List Char} {index : Nat} {param : DbValue Other}
  {rest out : List Char}

theorem rewriteFrom_value (isPlaceholder : IsPlaceholder params digits index param)
    (scalar : param.isList = false) (apart : ∀ char ∈ rest.head?, char.isDigit = false) :
    ∃ target, Corresponds params (params.flatMap DbValue.scalars) (.placeholder digits) target ∧
      Ends (.placeholder digits :: previous) (out ++ target.render) ∧
      rewriteFrom (groupsFrom 1 params) (params.map DbValue.isList) ('$' :: digits ++ rest) out =
        rewriteFrom (groupsFrom 1 params) (params.map DbValue.isList) rest
          (out ++ target.render) := by
  obtain ⟨nonempty, areDigits, isNumber, isParam⟩ := isPlaceholder
  have single : numbersOf params index =
      [1 + ((params.take index).flatMap DbValue.scalars).length] := by
    rw [numbersOf_eq isParam, scalars_of_not_list scalar]
    rfl
  have group := group_eq isParam
  rw [single] at group
  have notList : (params.map DbValue.isList)[index]? = some false := by
    rw [List.getElem?_map, isParam, Option.map_some, scalar]
  have bound := boundValues_numbersOf isParam
  rw [single, scalars_of_not_list scalar] at bound
  refine ⟨.placeholder (Nat.toDigits 10
    (1 + ((params.take index).flatMap DbValue.scalars).length)),
    ⟨index, param, ⟨nonempty, areDigits, isNumber, isParam⟩, ?_, ?_⟩,
    Ends.dollar rfl out _,
    rewriteFrom_scalar nonempty areDigits apart isNumber group notList⟩
  · rw [single, number, Nat.ofDigitChars_ten_toDigits]
  · rw [number, Nat.ofDigitChars_ten_toDigits]
    exact bound

theorem rewriteFrom_elsewhere (isPlaceholder : IsPlaceholder params digits index param)
    (list : param.isList = true) (apart : ∀ char ∈ rest.head?, char.isDigit = false)
    (opensNone : OpensNone previous) (ends : Ends previous out) :
    ∃ target, Corresponds params (params.flatMap DbValue.scalars) (.placeholder digits) target ∧
      Ends (.placeholder digits :: previous) (out ++ target.render) ∧
      rewriteFrom (groupsFrom 1 params) (params.map DbValue.isList) ('$' :: digits ++ rest) out =
        rewriteFrom (groupsFrom 1 params) (params.map DbValue.isList) rest
          (out ++ target.render) := by
  obtain ⟨nonempty, areDigits, isNumber, isParam⟩ := isPlaceholder
  have isList : (params.map DbValue.isList)[index]? = some true := by
    rw [List.getElem?_map, isParam, Option.map_some, list]
  have opens : openMembership out = (false, out) := by
    obtain ⟨front, before, rfl⟩ := ends.since
    exact openMembership_none (opensNone front before)
  exact ⟨.listing (numbersOf params index),
    ⟨index, param, ⟨nonempty, areDigits, isNumber, isParam⟩, list, rfl,
      boundValues_numbersOf isParam⟩,
    Ends.listing rfl out _,
    rewriteFrom_listing nonempty areDigits apart isNumber (group_eq isParam) isList opens⟩

end Placeholder

/-- One piece is rewritten to one that corresponds to it, and the next may follow. -/
theorem rewriteFrom_piece {piece : Piece} {rest : List Piece}
    {out : List Char} (legal : Legal params previous (piece :: rest))
    (fit : Fit params previous (piece :: rest)) (ends : Ends previous out) :
    ∃ target, Corresponds params (params.flatMap DbValue.scalars) piece target ∧
      Ends (piece :: previous) (out ++ target.render) ∧
      rewriteFrom (groupsFrom 1 params) (params.map DbValue.isList)
          (piece.render ++ rest.flatMap Piece.render) out =
        rewriteFrom (groupsFrom 1 params) (params.map DbValue.isList)
          (rest.flatMap Piece.render) (out ++ target.render) := by
  obtain ⟨isLegal, apart, _⟩ := legal
  obtain ⟨isFit, _⟩ := fit
  cases piece with
  | text kind chars => exact ⟨.text chars, rfl, ends.text isLegal, rewriteFrom_text isFit⟩
  | placeholder digits =>
      obtain ⟨index, param, isPlaceholder⟩ := isLegal
      cases scalar : param.isList with
      | true =>
          exact rewriteFrom_elsewhere isPlaceholder scalar (apart rfl)
            (isFit index param isPlaceholder scalar) ends
      | false => exact rewriteFrom_value isPlaceholder scalar (apart rfl)
  | test test =>
      obtain ⟨⟨index, param, isPlaceholder, isList⟩, isTest, follows⟩ := isLegal
      obtain ⟨⟨gap, gapOpen, gapInner⟩, turns, notComment⟩ := isFit
      obtain ⟨nonempty, areDigits, isNumber, isParam⟩ := isPlaceholder
      have list : (params.map DbValue.isList)[index]? = some true := by
        rw [List.getElem?_map, isParam, Option.map_some, isList]
      have opens := openMembership_test isTest gap gapOpen gapInner
        (ends.test test follows notComment)
      have quiet := noPlaceholder_of_quiet (opening_quiet isTest gap gapOpen gapInner)
      have copied : rewriteFrom (groupsFrom 1 params) (params.map DbValue.isList)
          (test.opening ++ ('$' :: test.digits ++ rest.flatMap Piece.render)) out =
          rewriteFrom (groupsFrom 1 params) (params.map DbValue.isList)
            ('$' :: test.digits ++ rest.flatMap Piece.render) (out ++ test.opening) :=
        rewriteFrom_text quiet
      refine ⟨.membership test.all (numbersOf params index),
        ⟨index, param, ⟨nonempty, areDigits, isNumber, isParam⟩, rfl, fun equals => ?_⟩,
        Ends.membership rfl out _ _, ?_⟩
      · rw [boundValues_numbersOf isParam]
        exact turns.meaning ⟨nonempty, areDigits, isNumber, isParam⟩ equals
      · rw [Piece.render, List.append_assoc, copied,
          rewriteFrom_list nonempty areDigits (apart rfl) isNumber (group_eq isParam) list opens,
          List.append_assoc]
        rfl

/-- And so are all, one by one. -/
theorem rewriteFrom_pieces {previous pieces : List Piece} {out : List Char}
    (legal : Legal params previous pieces) (fit : Fit params previous pieces)
    (ends : Ends previous out) :
    ∃ targets,
      List.Forall₂ (Corresponds params (params.flatMap DbValue.scalars)) pieces targets ∧
      rewriteFrom (groupsFrom 1 params) (params.map DbValue.isList)
          (pieces.flatMap Piece.render) out =
        some (out ++ targets.flatMap Target.render) := by
  induction pieces generalizing previous out with
  | nil =>
      refine ⟨[], .nil, ?_⟩
      rw [List.flatMap_nil, rewriteFrom, List.flatMap_nil, List.append_nil]
  | cons piece rest ih =>
      obtain ⟨target, corresponds, endsHere, here⟩ := rewriteFrom_piece legal fit ends
      obtain ⟨targets, allCorrespond, later⟩ :=
        ih legal.2.2 fit.2 endsHere
      refine ⟨target :: targets, .cons corresponds allCorrespond, ?_⟩
      rw [List.flatMap_cons, here, later, List.flatMap_cons, List.append_assoc]

/-- Without a list the text is left as it is, and so are the values. -/
theorem targets_of_none {previous pieces : List Piece}
    (none : params.any DbValue.isList = false) (legal : Legal params previous pieces) :
    ∃ targets, List.Forall₂ (Corresponds params params) pieces targets ∧
      pieces.flatMap Piece.render = targets.flatMap Target.render := by
  induction pieces generalizing previous with
  | nil => exact ⟨[], .nil, rfl⟩
  | cons piece rest ih =>
      obtain ⟨isLegal, _, legalRest⟩ := legal
      obtain ⟨targets, corresponds, same⟩ := ih legalRest
      cases piece with
      | text kind chars =>
          refine ⟨.text chars :: targets, .cons rfl corresponds, ?_⟩
          rw [List.flatMap_cons, List.flatMap_cons, same]
          rfl
      | placeholder digits =>
          obtain ⟨index, param, nonempty, areDigits, isNumber, isParam⟩ := isLegal
          have scalar : param.isList = false := by
            rw [List.any_eq_false] at none
            exact Bool.eq_false_iff.mpr (none param (List.mem_of_getElem? isParam))
          have front : (params.take index).any DbValue.isList = false := by
            rw [List.any_eq_false] at none ⊢
            exact fun other member => none other (List.mem_of_mem_take member)
          have within : index < params.length := (List.getElem?_eq_some_iff.mp isParam).1
          have single : numbersOf params index = [index + 1] := by
            rw [numbersOf_eq isParam, scalars_of_not_list scalar,
              flatMap_scalars_of_none front, List.length_take_of_le (Nat.le_of_lt within),
              Nat.add_comm]
            rfl
          refine ⟨.placeholder digits :: targets,
            .cons ⟨index, param, ⟨nonempty, areDigits, isNumber, isParam⟩, ?_, ?_⟩ corresponds,
            ?_⟩
          · rw [isNumber, single]
          · rw [isNumber, boundValues, List.filterMap_cons, Nat.add_sub_cancel, isParam]
            rfl
          · rw [List.flatMap_cons, List.flatMap_cons, same]
            rfl
      | test test =>
          obtain ⟨⟨index, param, isPlaceholder, isList⟩, _⟩ := isLegal
          rw [List.any_eq_false] at none
          exact absurd isList (none param (List.mem_of_getElem? isPlaceholder.2.2.2))

/-- A text keeps its meaning when no parameter is a list, or when nothing but its
placeholders and tests looks like one and every test of a list is for being a member
or for being none. -/
theorem expandLists_preserves {params : List (DbValue Other)} {pieces : List Piece}
    (legal : Legal params [] pieces)
    (fit : params.any DbValue.isList = false ∨ Fit params [] pieces) :
    Preserves params pieces := by
  cases isNone : params.any DbValue.isList with
  | false =>
      obtain ⟨targets, corresponds, same⟩ := targets_of_none isNone legal
      refine ⟨_, params, targets, ?_, same, corresponds, ?_⟩
      · rw [expandLists, isNone]
        rfl
      · have numbers := flatMap_numbersOf params
        rwa [flatMap_scalars_of_none isNone] at numbers
  | true =>
      have isFit : Fit params [] pieces := by
        apply fit.resolve_left
        rw [isNone]
        exact Bool.noConfusion
      have start : Ends [] [] := by
        refine ⟨?_, [], fun _ => rfl, rfl⟩
        intro _ _ _ _ isLast
        cases isLast
      obtain ⟨targets, corresponds, rewritten⟩ := rewriteFrom_pieces legal isFit start
      rw [List.nil_append] at rewritten
      refine ⟨_, params.flatMap DbValue.scalars, targets, ?_, rfl, corresponds,
        flatMap_numbersOf params⟩
      rw [expandLists, isNone, if_neg (by decide), rewriteMembership, rewritten]
      rfl

/-- A test without blanks but around its operator. -/
def spaced (operator : Operator) (all : Bool) (digits : String) : Test where
  lead := " ".toList
  operator := operator
  gap := " ".toList
  all := all
  word := if all then "ALL".toList else "ANY".toList
  gapOpen := []
  gapInner := []
  digits := digits.toList

theorem spaced_legal (operator : Operator) (all : Bool) (digits : String) :
    (spaced operator all digits).Legal where
  lead := by
    intro char member
    cases List.mem_singleton.mp member
    decide
  gap := .blank (by decide) .nil
  word := by cases all <;> rfl
  gapOpen := .nil
  gapInner := .nil

/-- A dollar sign and a digit in a string are taken for a placeholder, the end of a
longer word for `ANY`, and `= ALL` for `<> ALL`. -/
theorem expandLists_distorts :
    (Legal [(.textList ["x"] : DbValue Empty)] []
        [.text .string "'$9'".toList, .test (spaced .eq false "1")] ∧
      ¬ Preserves [(.textList ["x"] : DbValue Empty)]
        [.text .string "'$9'".toList, .test (spaced .eq false "1")]) ∧
    (Legal [(.textList ["x"] : DbValue Empty)] []
        [.text .code "f = many(".toList, .placeholder "1".toList] ∧
      ¬ Preserves [(.textList ["x"] : DbValue Empty)]
        [.text .code "f = many(".toList, .placeholder "1".toList]) ∧
    Legal [(.textList ["x", "y"] : DbValue Empty)] []
        [.text .code "a".toList, .test (spaced .eq true "1")] ∧
      ¬ Preserves [(.textList ["x", "y"] : DbValue Empty)]
        [.text .code "a".toList, .test (spaced .eq true "1")] := by
  refine ⟨⟨?_, ?_⟩, ⟨?_, ?_⟩, ?_, ?_⟩
  · refine ⟨List.cons_ne_nil _ _, by decide,
      ⟨⟨0, _, ⟨by decide, by decide, rfl, rfl⟩, rfl⟩, spaced_legal _ _ _, Or.inr ?_⟩,
      by decide, trivial⟩
    decide
  · intro ⟨out, flat, _, expanded, _⟩
    have panics : expandLists
        ([Piece.text .string "'$9'".toList, .test (spaced .eq false "1")].flatMap Piece.render)
        [(.textList ["x"] : DbValue Empty)] = none := by
      decide +kernel
    rw [panics] at expanded
    cases expanded
  · exact ⟨List.cons_ne_nil _ _, by decide, ⟨0, _, by decide, by decide, rfl, rfl⟩,
      by decide, trivial⟩
  · intro ⟨out, flat, targets, expanded, isOut, corresponds, _⟩
    have written : (expandLists
        ([Piece.text .code "f = many(".toList, .placeholder "1".toList].flatMap Piece.render)
        [(.textList ["x"] : DbValue Empty)]).map Prod.fst = some "f = m IN ($1".toList := by
      decide +kernel
    rw [expanded, isOut] at written
    cases corresponds with
    | @cons _ target _ _ isText _ =>
        cases target with
        | text chars =>
            cases isText
            cases Option.some.inj written
        | placeholder | listing | membership => cases isText
  · refine ⟨List.cons_ne_nil _ _, by decide,
      ⟨⟨0, _, ⟨by decide, by decide, rfl, rfl⟩, rfl⟩, spaced_legal _ _ _, Or.inr ?_⟩,
      by decide, trivial⟩
    decide
  · intro ⟨out, flat, targets, expanded, _, corresponds, _⟩
    have isFlat : flat = [.text (some "x"), .text (some "y")] := by
      have values : (expandLists
          ([Piece.text .code "a".toList, .test (spaced .eq true "1")].flatMap Piece.render)
          [(.textList ["x", "y"] : DbValue Empty)]).map Prod.snd =
            some [.text (some "x"), .text (some "y")] := by
        decide +kernel
      rw [expanded] at values
      exact Option.some.inj values
    cases corresponds with
    | cons _ corresponds =>
        cases corresponds with
        | @cons _ target _ _ isTest _ =>
            cases target with
            | text | placeholder | listing => cases isTest
            | membership negated numbers =>
                obtain ⟨index, param, ⟨_, _, isNumber, isParam⟩, isNumbers, means⟩ := isTest
                have isIndex : index = 0 := by
                  have isOne : number (spaced .eq true "1").digits = 1 := by decide
                  rw [isOne] at isNumber
                  omega
                subst isIndex
                cases isParam
                rw [isNumbers, isFlat] at means
                -- Both values equal the operand, or the first alone does.
                cases negated with
                | true => exact absurd (means fun _ => .holds) (by decide)
                | false =>
                    exact absurd
                      (means fun value => if value = .text (some "x") then .holds else .fails)
                      (by decide)

theorem expandLists_preserves_members :
    Preserves [(.textList ["x", "y"] : DbValue Empty), .i64List []]
      [.text .code "a".toList, .test (spaced .eq false "1"),
        .text .code ") AND b".toList, .test (spaced .ltGt true "2"), .text .code ")".toList] := by
  have quiet {text : List Char} (no : '$' ∉ text) : NoPlaceholder text := by
    intro before char after same
    rw [same] at no
    exact absurd (List.mem_append_right before List.mem_cons_self) no
  have blank : Blank " ".toList := (spaced_legal .eq true "").lead
  have empty : Blank [] := fun _ member => absurd member List.not_mem_nil
  refine expandLists_preserves ⟨List.cons_ne_nil _ _, by decide,
      ⟨⟨0, _, ⟨by decide, by decide, rfl, rfl⟩, rfl⟩, spaced_legal _ _ _, Or.inr (by decide)⟩,
      by decide, List.cons_ne_nil _ _, by decide,
      ⟨⟨1, _, ⟨by decide, by decide, rfl, rfl⟩, rfl⟩, spaced_legal _ _ _, Or.inr (by decide)⟩,
      by decide, List.cons_ne_nil _ _, by decide, trivial⟩
    (Or.inr ⟨quiet (by decide),
      ⟨⟨blank, empty, empty⟩, Or.inl (by decide), fun _ other => by cases other⟩,
      quiet (by decide),
      ⟨⟨blank, empty, empty⟩, Or.inl (by decide), fun _ other => by cases other⟩,
      quiet (by decide), trivial⟩)

end Pieces

end NookOs.Db.Lists
