/-
Module: NookOs.Lib.Text
Purpose: The operations of a UTF-8 string type on lists of characters, and what
  trimming an end and taking a last segment give on a text made of two parts.
Trusted boundary: none
Main exports: isWhitespace, trim, trimEndMatches, lastSegment, splitOn_joinSpaced, mem_joinSpaced
-/
import Mathlib.Algebra.GroupWithZero.Nat
import Mathlib.Data.List.DropRight

namespace NookOs.Lib.Text

/-- A text is tested at its own characters, not at all there are. -/
instance (priority := 2000) decidableForallMem (text : List Char) (test : Char → Prop)
    [DecidablePred test] :
    Decidable (∀ char ∈ text, test char) :=
  List.decidableBAll test text

instance (priority := 2000) decidableForallMark (mark : Option Char) (test : Char → Prop)
    [DecidablePred test] :
    Decidable (∀ char ∈ mark, test char) :=
  Option.decidableForallMem mark

/-- The characters of the Unicode property White_Space. -/
def isWhitespace (char : Char) : Bool :=
  char.toNat ∈ [0x20, 0x85, 0xA0, 0x1680, 0x2028, 0x2029, 0x202F, 0x205F, 0x3000] ||
    (0x9 ≤ char.toNat && char.toNat ≤ 0xD) ||
    (0x2000 ≤ char.toNat && char.toNat ≤ 0x200A)

def trim (text : List Char) : List Char :=
  (text.dropWhile isWhitespace).rdropWhile isWhitespace

/-- Drop a mark from the end as often as it stands there. -/
def trimEndMatches (mark : Char) (text : List Char) : List Char :=
  text.rdropWhile (· = mark)

/-- Drop a pattern from the start, at most so many times. -/
def trimStartOf (pattern : List Char) : Nat → List Char → List Char
  | 0, text => text
  | times + 1, text =>
      match pattern.isPrefixOf? text with
      | some rest => trimStartOf pattern times rest
      | none => text

/-- Drop a pattern from the end as often as it stands there. -/
def trimEndOf (pattern text : List Char) : List Char :=
  (trimStartOf pattern.reverse text.length text.reverse).reverse

/-- What follows the last mark, or all of the text. -/
def lastSegment (mark : Char) (text : List Char) : List Char :=
  text.rtakeWhile (· ≠ mark)

/-- The text before the first mark and the text after it. -/
def splitOnce (mark : Char) (text : List Char) : Option (List Char × List Char) :=
  match text.dropWhile (· ≠ mark) with
  | [] => none
  | _ :: after => some (text.takeWhile (· ≠ mark), after)

/-- The text before the last mark and the text after it. -/
def rsplitOnce (mark : Char) (text : List Char) : Option (List Char × List Char) :=
  (splitOnce mark text.reverse).map fun (after, before) => (before.reverse, after.reverse)

/-- The text before the first occurrence of a pattern and the text after it. -/
def splitOnceOf (pattern : List Char) : List Char → Option (List Char × List Char)
  | [] => if pattern = [] then some ([], []) else none
  | char :: rest =>
      match pattern.isPrefixOf? (char :: rest) with
      | some after => some ([], after)
      | none => (splitOnceOf pattern rest).map fun (before, after) => (char :: before, after)

/-- The first mark gives way to another. -/
def replaceFirst (mark other : Char) (text : List Char) : List Char :=
  match splitOnce mark text with
  | none => text
  | some (before, after) => before ++ other :: after

def utf8Length (text : List Char) : Nat :=
  (text.map Char.utf8Size).sum

/-- The first bytes of a text and the rest of it, where a character begins there. -/
def splitBytes : Nat → List Char → Option (List Char × List Char)
  | 0, text => some ([], text)
  | _ + 1, [] => none
  | bytes + 1, char :: text =>
      if char.utf8Size ≤ bytes + 1 then
        (splitBytes (bytes + 1 - char.utf8Size) text).map fun (head, rest) => (char :: head, rest)
      else none
termination_by _ text => text.length

/-- The lines of a text without their ends; what follows the last line feed is a line
unless it is empty. -/
def lines (text : List Char) : List (List Char) :=
  let pieces := text.splitOn '\n'
  let ended := pieces.dropLast.map fun line =>
    if line.getLast? = some '\r' then line.dropLast else line
  match pieces.getLast? with
  | none | some [] => ended
  | some rest => ended ++ [rest]

/-- The words between runs of whitespace. -/
def splitWhitespace (text : List Char) : List (List Char) :=
  (text.splitOnP isWhitespace).filter (· ≠ [])

/-- The pieces with a mark and a blank between them. -/
def joinSpaced (mark : Char) : List (List Char) → List Char
  | [] => []
  | [piece] => piece
  | piece :: rest => piece ++ mark :: ' ' :: joinSpaced mark rest

section Letters

variable {char mark : Char}

theorem toLower_cases (char : Char) :
    char.toLower = char ∨ (97 ≤ char.toLower.toNat ∧ char.toLower.toNat ≤ 122) := by
  by_cases isUpper : char.val ≥ 'A'.val ∧ char.val ≤ 'Z'.val
  · have atLeast : 65 ≤ char.val.toNat := UInt32.le_iff_toNat_le.mp isUpper.1
    have atMost : char.val.toNat ≤ 90 := UInt32.le_iff_toNat_le.mp isUpper.2
    have values : char.toLower.toNat = (char.val.toNat + 32) % 2 ^ 32 := by
      unfold Char.toLower
      rw [dif_pos isUpper]
      rfl
    omega
  · left
    unfold Char.toLower
    rw [dif_neg isUpper]

/-- What is no letter is what it was. -/
theorem toLower_eq_iff (noLetter : ¬ (97 ≤ mark.toNat ∧ mark.toNat ≤ 122))
    (fixed : mark.toLower = mark) : char.toLower = mark ↔ char = mark := by
  constructor
  · intro lowers
    rcases toLower_cases char with same | letter
    · rw [← same, lowers]
    · rw [lowers] at letter
      exact absurd letter noLetter
  · rintro rfl
    exact fixed

theorem toLower_toLower : char.toLower.toLower = char.toLower := by
  rcases toLower_cases char with same | ⟨atLeast, -⟩
  · rw [same, same]
  · have small : ¬ (char.toLower.val ≥ 'A'.val ∧ char.toLower.val ≤ 'Z'.val) := by
      intro isUpper
      have atMost : char.toLower.val.toNat ≤ 90 := UInt32.le_iff_toNat_le.mp isUpper.2
      have same : char.toLower.toNat = char.toLower.val.toNat := rfl
      omega
    exact dif_neg small

theorem toLower_blank : isWhitespace char.toLower = isWhitespace char := by
  by_cases isUpper : char.val ≥ 'A'.val ∧ char.val ≤ 'Z'.val
  · have atLeast : 65 ≤ char.toNat := UInt32.le_iff_toNat_le.mp isUpper.1
    have atMost : char.toNat ≤ 90 := UInt32.le_iff_toNat_le.mp isUpper.2
    have values : char.toLower.toNat = (char.val.toNat + 32) % 2 ^ 32 := by
      unfold Char.toLower
      rw [dif_pos isUpper]
      rfl
    have sameNat : char.val.toNat = char.toNat := rfl
    have notBlank (nat : Nat) (letter : 65 ≤ nat ∧ nat ≤ 122) :
        ¬ (nat ∈ [0x20, 0x85, 0xA0, 0x1680, 0x2028, 0x2029, 0x202F, 0x205F, 0x3000] ∨
          (0x9 ≤ nat ∧ nat ≤ 0xD) ∨ (0x2000 ≤ nat ∧ nat ≤ 0x200A)) := by
      simp only [List.mem_cons, List.not_mem_nil, or_false]
      omega
    have lowered := notBlank char.toLower.toNat (by omega)
    have plain := notBlank char.toNat (by omega)
    simp only [isWhitespace, Bool.or_assoc]
    grind
  · unfold Char.toLower
    rw [dif_neg isUpper]

end Letters

variable {char : Char}

section Segments

variable {mark : Char} {head tail text rest : List Char}

/-- The bytes that are split off and the rest are the text. -/
theorem splitBytes_some {bytes : Nat} (split : splitBytes bytes text = some (head, rest)) :
    text = head ++ rest := by
  induction bytes, text using splitBytes.induct generalizing head with
  | case1 text =>
      rw [splitBytes] at split
      cases split
      rfl
  | case2 bytes =>
      rw [splitBytes] at split
      cases split
  | case3 bytes char text fits ih =>
      rw [splitBytes, if_pos fits] at split
      obtain ⟨⟨front, back⟩, found, same⟩ := Option.map_eq_some_iff.mp split
      cases same
      rw [ih found, List.cons_append]
  | case4 bytes char text large =>
      rw [splitBytes, if_neg large] at split
      cases split

theorem lastSegment_append (ends : head.getLast? = some mark) (absent : mark ∉ tail) :
    lastSegment mark (head ++ tail) = tail := by
  obtain ⟨front, rfl⟩ := List.getLast?_eq_some_iff.mp ends
  rw [lastSegment, List.rtakeWhile, List.append_assoc, List.reverse_append,
    List.reverse_append, List.append_assoc]
  have kept : ∀ char ∈ tail.reverse, decide (char ≠ mark) = true := by
    intro char member
    apply decide_eq_true
    rintro rfl
    exact absent (List.mem_reverse.mp member)
  rw [List.takeWhile_append_of_pos kept, List.reverse_singleton, List.singleton_append,
    List.takeWhile_cons_of_neg (by simp), List.append_nil, List.reverse_reverse]

theorem lastSegment_of_ends (ends : text.getLast? = some mark) : lastSegment mark text = [] := by
  have whole : lastSegment mark (text ++ []) = [] :=
    lastSegment_append ends List.not_mem_nil
  rwa [List.append_nil] at whole

theorem trimEndMatches_concat :
    trimEndMatches mark (text ++ [char]) =
      if char = mark then trimEndMatches mark text else text ++ [char] := by
  rw [trimEndMatches, List.rdropWhile_concat]
  simp only [decide_eq_true_eq]
  rfl

/-- Where the end of a text is not all marks, they are trimmed from that end. -/
theorem trimEndMatches_append (remains : trimEndMatches mark tail ≠ []) :
    trimEndMatches mark (head ++ tail) = head ++ trimEndMatches mark tail := by
  induction tail using List.reverseRecOn with
  | nil => exact absurd rfl remains
  | append_singleton front char ih =>
      rw [trimEndMatches_concat] at remains
      rw [← List.append_assoc, trimEndMatches_concat, trimEndMatches_concat]
      by_cases isMark : char = mark
      · rw [if_pos isMark] at remains
        rw [if_pos isMark, if_pos isMark]
        exact ih remains
      · rw [if_neg isMark, if_neg isMark, List.append_assoc]

/-- Nothing is trimmed exactly where the text does not end with the mark. -/
theorem trimEndMatches_eq_self (ends : text.getLast? ≠ some mark) :
    trimEndMatches mark text = text := by
  apply List.rdropWhile_eq_self_iff.mpr
  intro nonempty isMark
  apply ends
  rw [List.getLast?_eq_some_getLast nonempty, of_decide_eq_true isMark]

/-- Marks at the end are trimmed, however many. -/
theorem trimEndMatches_replicate (count : Nat) :
    trimEndMatches mark (text ++ List.replicate count mark) = trimEndMatches mark text := by
  induction count with
  | zero => rw [List.replicate_zero, List.append_nil]
  | succ count ih =>
      rw [List.replicate_succ', ← List.append_assoc, trimEndMatches_concat, if_pos rfl,
        ih]

end Segments

section Splitting

variable {mark : Char} {head tail text rest : List Char}

/-- A text is split where the mark stands for the first time. -/
theorem splitOnce_append (absent : mark ∉ head) :
    splitOnce mark (head ++ mark :: tail) = some (head, tail) := by
  have before : ∀ char ∈ head, decide (char ≠ mark) = true := by
    intro char member
    apply decide_eq_true
    intro same
    exact absent (same ▸ member)
  rw [splitOnce, List.dropWhile_append_of_pos before, List.takeWhile_append_of_pos before,
    List.dropWhile_cons_of_neg (by simp), List.takeWhile_cons_of_neg (by simp),
    List.append_nil]

theorem splitOnce_none (absent : mark ∉ text) : splitOnce mark text = none := by
  have before : ∀ char ∈ text, decide (char ≠ mark) = true := by
    intro char member
    apply decide_eq_true
    intro same
    exact absent (same ▸ member)
  rw [splitOnce, List.dropWhile_eq_nil_iff.mpr before]

/-- A split is one at the first mark. -/
theorem splitOnce_some (split : splitOnce mark text = some (head, rest)) :
    text = head ++ mark :: rest ∧ mark ∉ head := by
  by_cases member : mark ∈ text
  · obtain ⟨front, back, same, absent⟩ := List.eq_append_cons_of_mem member
    rw [same, splitOnce_append absent] at split
    cases split
    exact ⟨same, absent⟩
  · rw [splitOnce_none member] at split
    cases split

/-- A text is split at a mark in one way. -/
theorem append_mark_inj {other after : List Char} (absent : mark ∉ head)
    (otherAbsent : mark ∉ other) (same : head ++ mark :: tail = other ++ mark :: after) :
    head = other ∧ tail = after := by
  have split : splitOnce mark (head ++ mark :: tail) = some (head, tail) :=
    splitOnce_append absent
  rw [same, splitOnce_append otherAbsent] at split
  cases split
  exact ⟨rfl, rfl⟩

theorem replaceFirst_append {other : Char} (absent : mark ∉ head) :
    replaceFirst mark other (head ++ mark :: tail) = head ++ other :: tail := by
  rw [replaceFirst, splitOnce_append absent]

variable {pattern : List Char}

theorem isPrefixOf?_append :
    pattern.isPrefixOf? (pattern ++ tail) = some tail := by
  induction pattern with
  | nil => rfl
  | cons char pattern ih =>
      rw [List.cons_append, List.isPrefixOf?, if_pos BEq.rfl]
      exact ih

theorem isPrefixOf?_some (split : pattern.isPrefixOf? text = some rest) :
    text = pattern ++ rest := by
  induction pattern generalizing text with
  | nil =>
      cases split
      rfl
  | cons char pattern ih =>
      cases text with
      | nil => cases split
      | cons first text =>
          rw [List.isPrefixOf?] at split
          split at split
          case isTrue same =>
            rw [ih split, eq_of_beq same]
            rfl
          case isFalse => cases split

theorem isPrefixOf?_none (apart : ¬ pattern <+: text) :
    pattern.isPrefixOf? text = none := by
  cases split : pattern.isPrefixOf? text with
  | none => rfl
  | some rest => exact absurd ⟨rest, (isPrefixOf?_some split).symm⟩ apart

/-- A text is split at a pattern where its first character stands for the first
time. -/
theorem splitOnceOf_append (absent : mark ∉ head) :
    splitOnceOf (mark :: pattern) (head ++ mark :: pattern ++ tail) = some (head, tail) := by
  induction head with
  | nil =>
      have split : (mark :: pattern).isPrefixOf? (mark :: pattern ++ tail) = some tail :=
        isPrefixOf?_append
      rw [List.cons_append] at split
      rw [List.nil_append, List.cons_append, splitOnceOf, split]
  | cons char head ih =>
      have apart : ¬ mark :: pattern <+: char :: (head ++ mark :: pattern ++ tail) := by
        intro isPrefix
        exact absent ((List.cons_prefix_cons.mp isPrefix).1 ▸ List.mem_cons_self)
      rw [List.cons_append, List.cons_append, splitOnceOf, isPrefixOf?_none apart,
        ih fun member => absent (List.mem_cons_of_mem char member)]
      rfl

/-- A text that does not hold the pattern is not split. -/
theorem splitOnceOf_none (apart : ¬ pattern <:+: text) :
    splitOnceOf pattern text = none := by
  induction text with
  | nil =>
      rw [splitOnceOf, if_neg]
      intro empty
      exact apart (empty ▸ List.infix_rfl)
  | cons char text ih =>
      have notHere : ¬ pattern <+: char :: text := fun isPrefix => apart isPrefix.isInfix
      rw [splitOnceOf, isPrefixOf?_none notHere, ih fun later =>
        apart (later.trans (List.suffix_cons char text).isInfix)]
      rfl

/-- What starts a text and does not hold the mark starts what stands before the
mark. -/
theorem prefix_of_append_mark (isPrefix : pattern <+: head ++ mark :: tail)
    (absent : mark ∉ pattern) : pattern <+: head := by
  have split : head ++ [mark] <+: head ++ mark :: tail := ⟨tail, List.append_assoc ..⟩
  rcases List.prefix_or_prefix_of_prefix isPrefix split with shorter | longer
  · rcases List.prefix_concat_iff.mp shorter with same | shorter
    · exact absurd (same ▸ List.mem_append_right head List.mem_cons_self) absent
    · exact shorter
  · exact absurd (longer.subset (List.mem_append_right head List.mem_cons_self)) absent

/-- The same of the end. -/
theorem suffix_of_append_mark (isSuffix : pattern <:+ head ++ mark :: tail)
    (absent : mark ∉ pattern) : pattern <:+ tail := by
  apply List.reverse_prefix.mp
  have reversed := List.reverse_prefix.mpr isSuffix
  rw [List.reverse_append, List.reverse_cons, List.append_assoc] at reversed
  exact prefix_of_append_mark reversed fun member => absent (List.mem_reverse.mp member)

end Splitting

section Ends

variable {text pattern : List Char}

/-- Nothing is trimmed of a text that neither begins nor ends with a blank. -/
theorem trim_eq_self (start : ∀ char ∈ text.head?, isWhitespace char = false)
    (ends : ∀ char ∈ text.getLast?, isWhitespace char = false) : trim text = text := by
  have first : text.dropWhile isWhitespace = text := by
    cases text with
    | nil => rfl
    | cons char rest =>
        exact List.dropWhile_cons_of_neg (Bool.not_eq_true _ ▸ start char rfl)
  rw [trim, first]
  apply List.rdropWhile_eq_self_iff.mpr
  intro nonempty isBlank
  rw [ends _ (List.getLast?_eq_some_getLast nonempty)] at isBlank
  cases isBlank

theorem trimStartOf_eq_self (times : Nat) (apart : ¬ pattern <+: text) :
    trimStartOf pattern times text = text := by
  cases times with
  | zero => rfl
  | succ times => rw [trimStartOf, isPrefixOf?_none apart]

/-- Nothing is trimmed of a text that does not end with the pattern. -/
theorem trimEndOf_eq_self (apart : ¬ pattern <:+ text) : trimEndOf pattern text = text := by
  rw [trimEndOf, trimStartOf_eq_self _ fun isPrefix => apart (List.reverse_prefix.mp isPrefix),
    List.reverse_reverse]

/-- A pattern that stands once at the end is trimmed. -/
theorem trimEndOf_append (apart : ¬ pattern <:+ text) (nonempty : pattern ≠ []) :
    trimEndOf pattern (text ++ pattern) = text := by
  have left : ¬ pattern.reverse <+: text.reverse := fun isPrefix =>
    apart (List.reverse_prefix.mp isPrefix)
  obtain ⟨times, many⟩ : ∃ times, (text ++ pattern).length = times + 1 :=
    Nat.exists_eq_succ_of_ne_zero fun none => nonempty
      (List.append_eq_nil_iff.mp (List.length_eq_zero_iff.mp none)).2
  rw [trimEndOf, many, List.reverse_append, trimStartOf, isPrefixOf?_append]
  dsimp only
  rw [trimStartOf_eq_self _ left, List.reverse_reverse]

end Ends

section Trimming

variable {test : Char → Bool} {front text back : List Char}

/-- What trails a text is trimmed with it. -/
theorem trimmed_append (blank : ∀ char ∈ back, test char = true) :
    ((text ++ back).dropWhile test).rdropWhile test =
      (text.dropWhile test).rdropWhile test := by
  have trailing (kept : List Char) : (kept ++ back).rdropWhile test = kept.rdropWhile test := by
    rw [List.rdropWhile, List.rdropWhile, List.reverse_append,
      List.dropWhile_append_of_pos fun char member => blank char (List.mem_reverse.mp member)]
  rw [List.dropWhile_append]
  split
  · next nothing =>
      rw [List.isEmpty_iff.mp nothing, List.dropWhile_eq_nil_iff.mpr blank]
  · exact trailing _

theorem trimmed_blank (blank : ∀ char ∈ front, test char = true) :
    ((front ++ text).dropWhile test).rdropWhile test =
      (text.dropWhile test).rdropWhile test := by
  rw [List.dropWhile_append_of_pos blank]

/-- A text is what trimming leaves, between blanks. -/
theorem exists_around_trimmed (test : Char → Bool) (text : List Char) :
    ∃ front back, text = front ++ ((text.dropWhile test).rdropWhile test ++ back) ∧
      (∀ char ∈ front, test char = true) ∧ ∀ char ∈ back, test char = true := by
  refine ⟨text.takeWhile test, (text.dropWhile test).rtakeWhile test, ?_, ?_, ?_⟩
  · rw [List.rdropWhile_append_rtakeWhile, List.takeWhile_append_dropWhile]
  · exact fun char member => List.mem_takeWhile_imp member
  · exact fun char member => List.mem_rtakeWhile_imp member

end Trimming

section Pieces

variable {mark : Char} {text piece : List Char}

/-- A blank at the start is trimmed. -/
@[simp] theorem trim_space : trim (' ' :: text) = trim text := by
  rw [trim, List.dropWhile_cons_of_pos (by decide)]
  rfl

/-- What has been trimmed has nothing more to trim. -/
theorem trim_trim : trim (trim text) = trim text := by
  have fromStart : (trim text).dropWhile isWhitespace = trim text := by
    apply List.dropWhile_eq_self_iff.mpr
    intro nonempty
    -- the first character that is left is the first that was not dropped
    have front : trim text <+: text.dropWhile isWhitespace :=
      List.rdropWhile_prefix isWhitespace _
    have longer : 0 < (text.dropWhile isWhitespace).length :=
      Nat.lt_of_lt_of_le nonempty front.length_le
    have same : (trim text)[0] = (text.dropWhile isWhitespace)[0] :=
      front.getElem nonempty
    rw [same]
    exact List.dropWhile_eq_self_iff.mp (List.dropWhile_idempotent isWhitespace text)
      longer
  rw [trim, fromStart]
  exact List.rdropWhile_idempotent isWhitespace _

/-- Trimming adds no character. -/
theorem mem_of_mem_trim (member : char ∈ trim text) : char ∈ text :=
  (List.dropWhile_sublist _).subset
    ((List.rdropWhile_prefix isWhitespace _).subset member)

/-- The characters of a piece are characters of the text, and none is one that it was
split at. -/
theorem mem_of_mem_splitOnP {test : Char → Bool}
    (member : piece ∈ text.splitOnP test) (found : char ∈ piece) :
    char ∈ text ∧ test char = false := by
  induction text generalizing piece with
  | nil =>
      rw [List.splitOnP_nil, List.mem_singleton] at member
      rw [member] at found
      exact absurd found List.not_mem_nil
  | cons first text ih =>
      have later : ∀ {other}, other ∈ text.splitOnP test → char ∈ other →
          char ∈ first :: text ∧ test char = false := by
        intro other inRest inOther
        obtain ⟨inText, apart⟩ := ih inRest inOther
        exact ⟨List.mem_cons_of_mem first inText, apart⟩
      rw [List.splitOnP_cons_eq_if_modifyHead] at member
      split at member
      case isTrue =>
        rcases List.mem_cons.mp member with rfl | inRest
        · exact absurd found List.not_mem_nil
        · exact later inRest found
      case isFalse other =>
        cases pieces : text.splitOnP test with
        | nil => exact absurd pieces (List.splitOnP_ne_nil test text)
        | cons head rest =>
            rw [pieces, List.modifyHead_cons] at member
            rcases List.mem_cons.mp member with rfl | inRest
            · rcases List.mem_cons.mp found with rfl | inHead
              · exact ⟨List.mem_cons_self, by simpa using other⟩
              · exact later (pieces ▸ List.mem_cons_self) inHead
            · exact later (pieces ▸ List.mem_cons_of_mem head inRest) found

theorem mem_of_mem_splitOn (member : piece ∈ text.splitOn mark)
    (found : char ∈ piece) : char ∈ text ∧ char ≠ mark := by
  rw [List.splitOn_eq_splitOnP] at member
  obtain ⟨within, apart⟩ := mem_of_mem_splitOnP member found
  exact ⟨within, by simpa using apart⟩

theorem head_splitOnP (test : Char → Bool) (text : List Char) :
    (text.splitOnP test).head? = some (text.takeWhile (!test ·)) := by
  induction text with
  | nil => rfl
  | cons char text ih =>
      rw [List.splitOnP_cons_eq_if_modifyHead]
      split
      case isTrue found => rw [List.takeWhile_cons_of_neg (by simpa using found), List.head?_cons]
      case isFalse other =>
        rw [List.takeWhile_cons_of_pos (by simpa using other), List.head?_modifyHead,
          ih]
        rfl

theorem head_splitOn (mark : Char) (text : List Char) :
    (text.splitOn mark).head? = some (text.takeWhile (· ≠ mark)) := by
  rw [List.splitOn_eq_splitOnP, head_splitOnP]
  refine congrArg (fun test => some (text.takeWhile test)) (funext fun char => ?_)
  simp [beq_eq_decide]

/-- The pieces after the first are what follows the marks, each up to the next. -/
theorem mem_tail_splitOn {mark : Char} :
    piece ∈ (text.splitOn mark).tail ↔
      ∃ front rest, text = front ++ mark :: rest ∧ piece = rest.takeWhile (· ≠ mark) := by
  induction text with
  | nil => simp [List.splitOn_nil]
  | cons char text ih =>
      have pieces : text.splitOn mark =
          text.takeWhile (· ≠ mark) :: (text.splitOn mark).tail := by
        obtain ⟨rest, shape⟩ := List.head?_eq_some_iff.mp (head_splitOn mark text)
        rw [shape, List.tail_cons]
      have later : (∃ front rest, char :: text = front ++ mark :: rest ∧
            piece = rest.takeWhile (· ≠ mark)) ↔
          (char = mark ∧ piece = text.takeWhile (· ≠ mark)) ∨
            piece ∈ (text.splitOn mark).tail := by
        refine Iff.trans ?_ (or_congr_right ih.symm)
        constructor
        · rintro ⟨front, rest, split, isPiece⟩
          cases front with
          | nil =>
              cases split
              exact .inl ⟨rfl, isPiece⟩
          | cons other front =>
              cases split
              exact .inr ⟨front, rest, rfl, isPiece⟩
        · rintro (⟨rfl, isPiece⟩ | ⟨front, rest, rfl, isPiece⟩)
          · exact ⟨[], text, rfl, isPiece⟩
          · exact ⟨char :: front, rest, rfl, isPiece⟩
      rw [later, List.splitOn_cons_eq_if_modifyHead]
      split
      case isTrue found =>
        rw [List.tail_cons, pieces, List.mem_cons, List.tail_cons]
        exact or_congr ⟨fun isPiece => ⟨by simpa using found, isPiece⟩, And.right⟩ Iff.rfl
      case isFalse other =>
        rw [pieces, List.modifyHead_cons, List.tail_cons, List.tail_cons]
        exact ⟨.inr, fun found => found.resolve_left fun same => other (by simpa using same.1)⟩

/-- The first word of a text. -/
theorem head_splitWhitespace (text : List Char) :
    (splitWhitespace text).head? =
      let word := (text.dropWhile isWhitespace).takeWhile (!isWhitespace ·)
      if word = [] then none else some word := by
  induction text with
  | nil => rfl
  | cons char text ih =>
      rw [splitWhitespace, List.splitOnP_cons_eq_if_modifyHead]
      split
      case isTrue blank =>
        rw [List.filter_cons_of_neg (by simp), List.dropWhile_cons_of_pos blank]
        exact ih
      case isFalse other =>
        rw [List.dropWhile_cons_of_neg (by simpa using other),
          List.takeWhile_cons_of_pos (by simpa using other)]
        obtain ⟨rest, shape⟩ := List.head?_eq_some_iff.mp (head_splitOnP isWhitespace text)
        rw [shape, List.modifyHead_cons, List.filter_cons_of_pos (by simp)]
        rfl

/-- No character of a word is a blank. -/
theorem notBlank_of_mem_splitWhitespace (member : piece ∈ splitWhitespace text)
    (found : char ∈ piece) : isWhitespace char = false :=
  (mem_of_mem_splitOnP (List.mem_filter.mp member).1 found).2

/-- Pieces that were joined are split again where they were joined. -/
theorem splitOn_joinSpaced {rest : List (List Char)} (space : mark ≠ ' ')
    (absent : ∀ other ∈ piece :: rest, mark ∉ other) :
    (joinSpaced mark (piece :: rest)).splitOn mark =
      piece :: rest.map fun other => ' ' :: other := by
  induction rest generalizing piece with
  | nil =>
      rw [joinSpaced, List.splitOn_eq_singleton (absent piece List.mem_cons_self)]
      rfl
  | cons next rest ih =>
      have later := ih
        (fun other member => absent other (List.mem_cons_of_mem _ member))
      rw [joinSpaced, List.splitOn_append_cons_self_of_not_mem
          (absent piece List.mem_cons_self),
        List.splitOn_cons_eq_if_modifyHead, later, if_neg (by simpa using space.symm)]
      · rfl
      · exact nofun

/-- A joined text has the characters of its pieces, the mark and the blank. -/
theorem mem_joinSpaced {pieces : List (List Char)} (member : char ∈ joinSpaced mark pieces) :
    char = mark ∨ char = ' ' ∨ ∃ piece ∈ pieces, char ∈ piece := by
  induction pieces with
  | nil => exact absurd member List.not_mem_nil
  | cons piece rest ih =>
      have split : char ∈ piece ∨ char = mark ∨ char = ' ' ∨
          char ∈ joinSpaced mark rest := by
        cases rest with
        | nil => exact .inl member
        | cons next rest => simpa [joinSpaced] using member
      rcases split with inPiece | isMark | isSpace | later
      · exact .inr (.inr ⟨piece, List.mem_cons_self, inPiece⟩)
      · exact .inl isMark
      · exact .inr (.inl isSpace)
      · rcases ih later with isMark | isSpace | ⟨other, inRest, found⟩
        · exact .inl isMark
        · exact .inr (.inl isSpace)
        · exact .inr (.inr ⟨other, List.mem_cons_of_mem piece inRest, found⟩)

end Pieces

end NookOs.Lib.Text
