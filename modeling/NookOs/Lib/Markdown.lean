/-
Module: NookOs.Lib.Markdown
Purpose: How a reader of CommonMark takes a document of plain paragraphs and fenced code
  blocks: its lines, its blocks, and the code spans of its paragraphs.
Trusted boundary: none
Main exports: lines, fenceOf, closesFence, blocks, runs, closer, blocks_paragraph, spans_segments
-/
import Mathlib.Data.List.Basic
import Mathlib.Data.List.Infix
import Mathlib.Tactic.Common

namespace NookOs.Lib.Markdown

/-!
The characters of a document may carry more than themselves (where each comes from, say), so
the reader takes them through `char`.  It reads the documents whose lines, outside of fenced
code, are blank, open a fence or begin with a letter.  A line that begins with a letter is a
line of a paragraph in every document; any other line (a heading, a list, a quote, an HTML
block, indented code) is not read, and neither is its document.
-/

variable {α : Type*} (char : α → Char)

section Lines

/-- The lines of a document, each apart from the line ending that it has. -/
def lines : List α → List (List α × List α)
  | [] => []
  | a :: rest =>
      if char a = '\n' ∨ (char a = '\r' ∧ ¬ rest.head?.any (char · = '\n')) then
        ([], [a]) :: lines rest
      else
        match lines rest with
        | [] => [([a], [])]
        | (content, ending) :: more =>
            -- A carriage return and the newline after it are one ending.
            if char a = '\r' then ([], a :: (content ++ ending)) :: more
            else (a :: content, ending) :: more

/-- A text that stands on one line. -/
def OneLine (text : List α) : Prop := ∀ a ∈ text, char a ≠ '\n' ∧ char a ≠ '\r'

instance (text : List α) : Decidable (OneLine char text) :=
  inferInstanceAs (Decidable (∀ a ∈ text, char a ≠ '\n' ∧ char a ≠ '\r'))

end Lines

section Blocks

def isBlank (content : List α) : Bool := content.all fun a => char a = ' ' || char a = '\t'

/-- The text of a line after at most three spaces. -/
def unindented (content : List α) : Option (List α) :=
  let rest := content.dropWhile (char · = ' ')
  if content.length - rest.length ≤ 3 then some rest else none

structure Fence where
  mark : Char
  width : Nat
deriving DecidableEq

/-- The fence that a line opens; what follows a fence of backticks has no backtick. -/
def fenceOf (content : List α) : Option Fence :=
  match unindented char content with
  | some (a :: rest) =>
      let info := rest.dropWhile (char · = char a)
      let width := 1 + rest.length - info.length
      if (char a = '\x60' ∨ char a = '~') ∧ 3 ≤ width ∧
          (char a = '\x60' → info.all (char · ≠ '\x60')) then
        some ⟨char a, width⟩
      else none
  | _ => none

def closesFence (fence : Fence) (content : List α) : Bool :=
  match unindented char content with
  | some rest =>
      let after := rest.dropWhile (char · = fence.mark)
      fence.width ≤ rest.length - after.length && isBlank char after
  | none => false

inductive Kind where
  | blank
  | paragraph
  | opening
  | content
  | closing
deriving DecidableEq

/-- Lines of one kind that follow each other belong together. -/
def attach (kind : Kind) (line : List α) : List (Kind × List α) → List (Kind × List α)
  | [] => [(kind, line)]
  | (other, text) :: more =>
      if other = kind then (kind, line ++ text) :: more
      else (kind, line) :: (other, text) :: more

def beginsWithLetter (content : List α) : Bool := content.head?.any (char · |>.isAlpha)

/-- The blocks of a document, with the fence that is open before its first line. -/
def blocks : Option Fence → List (List α × List α) → Option (List (Kind × List α))
  | _, [] => some []
  | none, (content, ending) :: rest =>
      if isBlank char content then (blocks none rest).map (attach .blank (content ++ ending))
      else
        match fenceOf char content with
        | some fence => (blocks (some fence) rest).map (attach .opening (content ++ ending))
        | none =>
            if beginsWithLetter char content then
              (blocks none rest).map (attach .paragraph (content ++ ending))
            else none
  | some fence, (content, ending) :: rest =>
      if closesFence char fence content then
        (blocks none rest).map (attach .closing (content ++ ending))
      else (blocks (some fence) rest).map (attach .content (content ++ ending))

end Blocks

section Spans

/-- What a character is to the reader: text of a fenced block, text of a code span that stands
on one line, or anything else. -/
inductive Mark where
  | fenced
  | coded
  | plain
deriving DecidableEq

/-- The lengths of the runs of backticks, after so many that have just been read. -/
def runs : Nat → List α → List Nat
  | run, [] => if run = 0 then [] else [run]
  | run, a :: rest =>
      if char a = '\x60' then runs (run + 1) rest
      else (if run = 0 then [] else [run]) ++ runs 0 rest

/-- The place of the first run of backticks of a width, when so many backticks have just been
read and so many characters passed. -/
def closer (width : Nat) : Nat → Nat → List α → Option Nat
  | run, passed, [] => if run = width then some (passed - run) else none
  | run, passed, a :: rest =>
      if char a = '\x60' then closer width (run + 1) (passed + 1) rest
      else if run = width then some (passed - run)
      else closer width 0 (passed + 1) rest

def isPunctuation (char : Char) : Bool :=
  (0x21 ≤ char.toNat && char.toNat ≤ 0x2F) || (0x3A ≤ char.toNat && char.toNat ≤ 0x40) ||
    (0x5B ≤ char.toNat && char.toNat ≤ 0x60) || (0x7B ≤ char.toNat && char.toNat ≤ 0x7E)

/-- What a character settles about the ones after it.  What binds as tightly as a code span,
an autolink or an HTML tag, begins with an angle bracket; `tag` says how far it goes. -/
def begun (tag : List Char → Nat) (a : α) (rest : List α) : List Mark :=
  if char a = '\x60' then
    let ticks := (rest.takeWhile (char · = '\x60')).length
    let after := rest.drop ticks
    match closer char (ticks + 1) 0 0 after with
    | some size =>
        let mark := if OneLine char (after.take size) then .coded else .plain
        List.replicate ticks .plain ++ List.replicate size mark ++
          List.replicate (ticks + 1) .plain
    | none => List.replicate ticks .plain
  else if char a = '\\' then if rest.head?.any (isPunctuation <| char ·) then [.plain] else []
  else if char a = '<' then List.replicate (tag (rest.map char)) .plain
  else []

/-- The code spans of a paragraph, where the marks of its first characters are settled. -/
def spans (tag : List Char → Nat) : List Mark → List α → List (α × Mark)
  | _, [] => []
  | mark :: pending, a :: rest => (a, mark) :: spans tag pending rest
  | [], a :: rest => (a, .plain) :: spans tag (begun char tag a rest) rest

/-- Every character of a document, with what it is to the reader. -/
def marks (tag : List Char → Nat) (parsed : List (Kind × List α)) : List (α × Mark) :=
  parsed.flatMap fun (kind, text) =>
    match kind with
    | .content => text.map (·, .fenced)
    | .paragraph => spans char tag [] text
    | _ => text.map (·, .plain)

end Spans

/-! ### The lines of a text made of parts -/

section LinesOfParts

variable {char} {content text rest : List α} {a nl : α}

theorem OneLine.of_cons (oneLine : OneLine char (a :: content)) : OneLine char content :=
  fun b member => oneLine b (List.mem_cons_of_mem a member)

theorem lines_newline (isNewline : char nl = '\n') (rest : List α) :
    lines char (nl :: rest) = ([], [nl]) :: lines char rest := by
  rw [lines, if_pos (.inl isNewline)]

/-- A text on one line and the newline after it are one line. -/
theorem lines_line (oneLine : OneLine char content) (isNewline : char nl = '\n')
    (rest : List α) :
    lines char (content ++ nl :: rest) = (content, [nl]) :: lines char rest := by
  induction content with
  | nil => exact lines_newline isNewline rest
  | cons a content ih =>
      obtain ⟨newline, carriage⟩ := oneLine a List.mem_cons_self
      rw [List.cons_append, lines, if_neg (by simp [newline, carriage]),
        ih oneLine.of_cons]
      exact if_neg carriage

/-- A text and the newline after it are whole lines. -/
theorem lines_append (isNewline : char nl = '\n') (text rest : List α) :
    ∃ front : List (List α × List α), lines char (text ++ nl :: rest) = front ++ lines char rest ∧
      front.flatMap (fun line => line.1 ++ line.2) = text ++ [nl] ∧ front ≠ [] := by
  induction text with
  | nil => exact ⟨[([], [nl])], lines_newline isNewline rest, rfl, nofun⟩
  | cons a text ih =>
      obtain ⟨front, split, flat, nonempty⟩ := ih
      rw [List.cons_append, lines, split]
      obtain ⟨⟨content, ending⟩, more, rfl⟩ := List.exists_cons_of_ne_nil nonempty
      split
      · exact ⟨([], [a]) :: (content, ending) :: more, rfl, congrArg (a :: ·) flat, nofun⟩
      · simp only [List.cons_append]
        split
        · exact ⟨([], a :: (content ++ ending)) :: more, rfl, congrArg (a :: ·) flat, nofun⟩
        · exact ⟨(a :: content, ending) :: more, rfl, congrArg (a :: ·) flat, nofun⟩

theorem lines_flatMap (isNewline : char nl = '\n') {contents : List (List α)}
    (oneLine : ∀ content ∈ contents, OneLine char content) (rest : List α) :
    lines char (contents.flatMap (· ++ [nl]) ++ rest) =
      contents.map (·, [nl]) ++ lines char rest := by
  induction contents with
  | nil => rfl
  | cons content contents ih =>
      have later := ih fun other member => oneLine other (.tail content member)
      rw [List.flatMap_cons, List.append_assoc, List.append_assoc, List.singleton_append,
        lines_line (oneLine content List.mem_cons_self) isNewline, later]
      rfl

end LinesOfParts

/-! ### The code spans of a paragraph -/

section SpansOfParts

/-- A character that is neither a backtick nor begins an escape or a tag. -/
def Literal (a : α) : Prop := char a ≠ '\x60' ∧ char a ≠ '\\' ∧ char a ≠ '<'

instance (a : α) : Decidable (Literal char a) :=
  inferInstanceAs (Decidable (char a ≠ '\x60' ∧ char a ≠ '\\' ∧ char a ≠ '<'))

/-- A text that one backtick on each side makes a code span of one line. -/
structure Clean (field : List α) : Prop where
  oneLine : OneLine char field
  begins : ∀ a ∈ field.head?, char a ≠ '\x60'
  ends : ∀ a ∈ field.getLast?, char a ≠ '\x60'
  alone : 1 ∉ runs char 0 field

instance (field : List α) : Decidable (Clean char field) :=
  decidable_of_iff
    (OneLine char field ∧ (∀ a ∈ field.head?, char a ≠ '\x60') ∧
      (∀ a ∈ field.getLast?, char a ≠ '\x60') ∧ 1 ∉ runs char 0 field)
    ⟨fun ⟨oneLine, begins, ends, alone⟩ => ⟨oneLine, begins, ends, alone⟩,
      fun ⟨oneLine, begins, ends, alone⟩ => ⟨oneLine, begins, ends, alone⟩⟩

/-- A field between two backticks, with the texts before and after them. -/
structure Segment (α : Type*) where
  lead : List α
  field : List α
  after : List α

def Segment.text (tick : α) (segment : Segment α) : List α :=
  segment.lead ++ tick :: (segment.field ++ tick :: segment.after)

/-- The field as one code span, where it is not empty. -/
def Segment.marked (tick : α) (segment : Segment α) : List (α × Mark) :=
  segment.lead.map (·, .plain) ++ (tick, .plain) :: (segment.field.map (·, .coded) ++
    (tick, .plain) :: segment.after.map (·, .plain))

structure Segment.Proper (segment : Segment α) : Prop where
  lead : ∀ a ∈ segment.lead, Literal char a
  after : ∀ a ∈ segment.after, Literal char a
  nonempty : segment.after ≠ []
  clean : segment.field ≠ [] → Clean char segment.field

variable {char} {tick a : α} {text rest front field : List α} {width run passed : Nat}

theorem runs_append (literal : char a ≠ '\x60') (front rest : List α) :
    runs char run (front ++ a :: rest) = runs char run front ++ runs char 0 rest := by
  induction front generalizing run with
  | nil => rw [List.nil_append, runs, runs, if_neg literal]
  | cons b front ih =>
      rw [List.cons_append, runs, runs]
      split
      · exact ih
      · rw [ih, List.append_assoc]

theorem runs_literal (literal : ∀ a ∈ front, char a ≠ '\x60') (rest : List α) :
    runs char 0 (front ++ rest) = runs char 0 rest := by
  induction front with
  | nil => rfl
  | cons a front ih =>
      rw [List.cons_append, runs, if_neg (literal a List.mem_cons_self), if_pos rfl,
        List.nil_append, ih fun b member => literal b (.tail a member)]

/-- The runs of a field between two backticks, where it neither begins nor ends with one. -/
theorem runs_field (isTick : char tick = '\x60') (nonempty : field ≠ [])
    (begins : ∀ a ∈ field.head?, char a ≠ '\x60') (ends : ∀ a ∈ field.getLast?, char a ≠ '\x60') :
    runs char 0 (tick :: (field ++ [tick])) = 1 :: (runs char 0 field ++ [1]) := by
  have closed (run : Nat) :
      runs char run (field ++ [tick]) = runs char run field ++ runs char 0 [tick] := by
    obtain ⟨front, last, rfl⟩ := List.eq_nil_or_concat' field |>.resolve_left nonempty
    have apart : char last ≠ '\x60' := ends last (by simp)
    rw [List.append_assoc, List.singleton_append, runs_append apart, runs_append apart,
      show runs char 0 ([] : List α) = [] from rfl, List.append_nil]
  obtain ⟨first, more, rfl⟩ := List.exists_cons_of_ne_nil nonempty
  have apart : char first ≠ '\x60' := begins first rfl
  have starts (run : Nat) : runs char run (first :: more) = runs char run [] ++ runs char 0 more :=
    runs_append apart [] more
  have one : runs char 0 [tick] = [1] := by
    rw [runs, if_pos isTick]
    rfl
  rw [runs, if_pos isTick, closed, starts, starts, one]
  rfl

theorem closer_eq_none (absent : width ∉ runs char run text) (positive : 0 < width) :
    closer char width run passed text = none := by
  induction text generalizing run passed with
  | nil =>
      rw [runs] at absent
      rw [closer, if_neg]
      rintro rfl
      rw [if_neg positive.ne'] at absent
      exact absent List.mem_cons_self
  | cons a text ih =>
      rw [runs] at absent
      rw [closer]
      split
      · next isTick =>
          rw [if_pos isTick] at absent
          exact ih absent
      · next literal =>
          rw [if_neg literal, List.mem_append, not_or] at absent
          rw [if_neg]
          · exact ih absent.2
          · rintro rfl
            rw [if_neg positive.ne'] at absent
            exact absent.1 List.mem_cons_self

/-- The backtick after a field without a lone one is the first lone one. -/
theorem closer_field (isTick : char tick = '\x60') (fresh : field = [] → run = 0)
    (ends : ∀ a ∈ field.getLast?, char a ≠ '\x60') (alone : 1 ∉ runs char run field)
    (apart : ∀ a ∈ rest.head?, char a ≠ '\x60') :
    closer char 1 run passed (field ++ tick :: rest) = some (passed + field.length) := by
  induction field generalizing run passed with
  | nil =>
      rw [fresh rfl, List.nil_append, closer, if_pos isTick]
      cases rest with
      | nil => rfl
      | cons b rest => rw [closer, if_neg (apart b rfl), if_pos rfl]; rfl
  | cons a field ih =>
      have endsAfter : ∀ b ∈ field.getLast?, char b ≠ '\x60' := by
        cases field with
        | nil => exact nofun
        | cons b field => simpa [List.getLast?_cons_cons] using ends
      rw [List.cons_append, closer, List.length_cons, ← Nat.add_assoc, Nat.add_right_comm]
      rw [runs] at alone
      split
      · next ticks =>
          rw [if_pos ticks] at alone
          refine ih (fun empty => ?_) endsAfter alone
          subst empty
          exact absurd ticks (ends a rfl)
      · next literal =>
          rw [if_neg literal, List.mem_append, not_or] at alone
          rw [if_neg]
          · exact ih (fun _ => rfl) endsAfter alone.2
          · rintro rfl
            exact alone.1 List.mem_cons_self

variable {tag : List Char → Nat}

theorem spans_settled (mark : Mark) (pending : List Mark) (front rest : List α) :
    spans char tag (List.replicate front.length mark ++ pending) (front ++ rest) =
      front.map (·, mark) ++ spans char tag pending rest := by
  induction front with
  | nil => rfl
  | cons a front ih => exact congrArg ((a, mark) :: ·) ih

theorem spans_literal (literal : ∀ a ∈ front, Literal char a) (rest : List α) :
    spans char tag [] (front ++ rest) = front.map (·, .plain) ++ spans char tag [] rest := by
  induction front with
  | nil => rfl
  | cons a front ih =>
      obtain ⟨noTick, noEscape, noTag⟩ := literal a List.mem_cons_self
      rw [List.cons_append, spans, begun, if_neg noTick, if_neg noEscape, if_neg noTag,
        ih fun b member => literal b (.tail a member)]
      rfl

/-- A clean field between two backticks is a code span. -/
theorem spans_field (isTick : char tick = '\x60') (nonempty : field ≠ []) (clean : Clean char field)
    (apart : ∀ a ∈ rest.head?, char a ≠ '\x60') :
    spans char tag [] (tick :: (field ++ tick :: rest)) =
      (tick, .plain) :: (field.map (·, .coded) ++ (tick, .plain) :: spans char tag [] rest) := by
  have noTicks : (field ++ tick :: rest).takeWhile (char · = '\x60') = [] := by
    obtain ⟨first, more, rfl⟩ := List.exists_cons_of_ne_nil nonempty
    exact List.takeWhile_cons_of_neg (by simpa using clean.begins first rfl)
  rw [spans, begun, if_pos isTick, noTicks]
  simp only [List.length_nil, List.drop_zero, Nat.zero_add]
  rw [closer_field isTick (fun empty => absurd empty nonempty) clean.ends clean.alone apart]
  simp only [Nat.zero_add, List.take_left, if_pos clean.oneLine, List.replicate_zero,
    List.nil_append]
  rw [spans_settled]
  rfl

/-- Two backticks that no other two close are no code span. -/
theorem spans_empty (isTick : char tick = '\x60') (apart : ∀ a ∈ rest.head?, char a ≠ '\x60')
    (absent : 2 ∉ runs char 0 rest) :
    spans char tag [] (tick :: tick :: rest) =
      (tick, .plain) :: (tick, .plain) :: spans char tag [] rest := by
  have oneTick : (tick :: rest).takeWhile (char · = '\x60') = [tick] := by
    rw [List.takeWhile_cons_of_pos (by simpa using isTick)]
    cases rest with
    | nil => rfl
    | cons b rest => rw [List.takeWhile_cons_of_neg (by simpa using apart b rfl)]
  rw [spans, begun, if_pos isTick, oneTick]
  simp only [List.length_singleton, List.drop_succ_cons, List.drop_zero]
  rw [closer_eq_none absent (by decide)]
  rfl

variable {segment : Segment α} {segments : List (Segment α)}

theorem Segment.text_append (tick : α) (segment : Segment α) (rest : List α) :
    segment.text tick ++ rest =
      segment.lead ++ tick :: (segment.field ++ tick :: (segment.after ++ rest)) := by
  simp [text]

theorem Segment.marked_append (tick : α) (segment : Segment α) (rest : List (α × Mark)) :
    segment.marked tick ++ rest =
      segment.lead.map (·, .plain) ++ (tick, .plain) :: (segment.field.map (·, .coded) ++
        (tick, .plain) :: (segment.after.map (·, .plain) ++ rest)) := by
  simp [marked]

/-- What a segment is followed by does not begin with a backtick where its field ends. -/
theorem Segment.Proper.apart (proper : segment.Proper char) (rest : List α) :
    ∀ a ∈ (segment.after ++ rest).head?, char a ≠ '\x60' := by
  obtain ⟨first, more, shape⟩ := List.exists_cons_of_ne_nil proper.nonempty
  have literal := proper.after first (shape ▸ List.mem_cons_self)
  rw [shape]
  intro a begins
  cases begins
  exact literal.1

theorem runs_segment (proper : segment.Proper char) (tick : α) (rest : List α) :
    runs char 0 (segment.text tick ++ rest) =
      runs char 0 (tick :: (segment.field ++ [tick])) ++ runs char 0 rest := by
  obtain ⟨first, more, shape⟩ := List.exists_cons_of_ne_nil proper.nonempty
  have literal : ∀ a ∈ first :: more, Literal char a := shape ▸ proper.after
  have parts : segment.text tick ++ rest =
      segment.lead ++ ((tick :: (segment.field ++ [tick])) ++ first :: (more ++ rest)) := by
    rw [segment.text_append, shape]
    simp
  rw [parts, runs_literal fun a member => (proper.lead a member).1,
    runs_append (literal first List.mem_cons_self).1,
    runs_literal fun a member => (literal a (.tail first member)).1]

theorem two_notMem_runs (isTick : char tick = '\x60')
    (proper : ∀ segment ∈ segments, segment.Proper char)
    (apart : ∀ segment ∈ segments, segment.field ≠ [] ∧ 2 ∉ runs char 0 segment.field) :
    2 ∉ runs char 0 (segments.flatMap (·.text tick)) := by
  induction segments with
  | nil => exact List.not_mem_nil
  | cons segment segments ih =>
      obtain ⟨nonempty, absent⟩ := apart segment List.mem_cons_self
      have clean := (proper segment List.mem_cons_self).clean nonempty
      rw [List.flatMap_cons, runs_segment (proper segment List.mem_cons_self),
        runs_field isTick nonempty clean.begins clean.ends]
      have rest := ih (fun other member => proper other (.tail segment member))
        fun other member => apart other (.tail segment member)
      simpa using ⟨absent, rest⟩

theorem runs_map {β : Type*} (carry : β → α) (text : List β) :
    runs char run (text.map carry) = runs (fun b => char (carry b)) run text := by
  induction text generalizing run with
  | nil => rfl
  | cons b text ih =>
      rw [List.map_cons, runs, runs, ih, ih]

theorem Clean.map {β : Type*} {carry : β → α} {field : List β}
    (clean : Clean (fun b => char (carry b)) field) : Clean char (field.map carry) where
  oneLine := List.forall_mem_map.mpr clean.oneLine
  begins a member := by
    rw [List.head?_map] at member
    obtain ⟨b, first, rfl⟩ := Option.map_eq_some_iff.mp member
    exact clean.begins b first
  ends a member := by
    rw [List.getLast?_map] at member
    obtain ⟨b, last, rfl⟩ := Option.map_eq_some_iff.mp member
    exact clean.ends b last
  alone := runs_map carry field ▸ clean.alone

theorem mem_spans {pending : List Mark} {entry : α × Mark}
    (member : entry ∈ spans char tag pending text) : entry.1 ∈ text := by
  induction text generalizing pending with
  | nil =>
      cases pending with
      | nil | cons => exact absurd member List.not_mem_nil
  | cons a text ih =>
      cases pending with
      | nil | cons =>
          rcases List.mem_cons.mp member with rfl | later
          · exact List.mem_cons_self
          · exact .tail a (ih later)

/-- Fields that are clean or empty are code spans, where after an empty one there is none that
could close it. -/
theorem spans_segments (isTick : char tick = '\x60')
    (proper : ∀ segment ∈ segments, segment.Proper char)
    (apart : segments.Pairwise fun one other =>
      one.field = [] → other.field ≠ [] ∧ 2 ∉ runs char 0 other.field) :
    spans char tag [] (segments.flatMap (·.text tick)) = segments.flatMap (·.marked tick) := by
  induction segments with
  | nil => rfl
  | cons segment segments ih =>
      have one := proper segment List.mem_cons_self
      have others : ∀ other ∈ segments, other.Proper char :=
        fun other member => proper other (.tail segment member)
      obtain ⟨alone, apart⟩ := List.pairwise_cons.mp apart
      have next := one.apart (segments.flatMap (·.text tick))
      rw [List.flatMap_cons, List.flatMap_cons, ← ih others apart]
      rw [Segment.text_append, Segment.marked_append, spans_literal one.lead]
      by_cases empty : segment.field = []
      · have absent : 2 ∉ runs char 0 (segment.after ++ segments.flatMap (·.text tick)) := by
          rw [runs_literal fun a member => (one.after a member).1]
          exact two_notMem_runs isTick others fun other member => alone other member empty
        rw [empty, List.nil_append, spans_empty isTick next absent, spans_literal one.after]
        rfl
      · rw [spans_field isTick empty (one.clean empty) next, spans_literal one.after]

end SpansOfParts

/-! ### The blocks of a document made of parts -/

section BlocksOfParts

/-- How many fences a document opens, and the text of its fenced blocks. -/
def opened (parsed : List (Kind × List α)) : Nat := (parsed.filter (·.1 = .opening)).length

def fencedText (parsed : List (Kind × List α)) : List α :=
  (parsed.filter (·.1 = .content)).flatMap (·.2)

/-- The lines are read, they have so many fenced blocks with this text in all, and what is
theirs is code. -/
structure Encloses (tag : List Char → Nat) (theirs : α → Prop) (fences : Nat) (text : List α)
    (document : List (List α × List α)) (parsed : List (Kind × List α)) : Prop where
  read : blocks char none document = some parsed
  opens : opened parsed = fences
  fenced : fencedText parsed = text
  code : ∀ entry ∈ marks char tag parsed, theirs entry.1 → entry.2 ≠ .plain

variable {char} {tag : List Char → Nat} {theirs : α → Prop} {content ending text line : List α}
  {document front : List (List α × List α)} {kind : Kind} {parsed : List (Kind × List α)}
  {fence : Fence} {fences : Nat}

theorem head_attach : ∀ block ∈ (attach kind line parsed).head?, block.1 = kind := by
  cases parsed with
  | nil => simp [attach]
  | cons block more =>
      rw [attach]
      split <;> simp

theorem attach_apart (apart : ∀ block ∈ parsed.head?, block.1 ≠ kind) :
    attach kind line parsed = (kind, line) :: parsed := by
  cases parsed with
  | nil => rfl
  | cons block more => rw [attach, if_neg (apart block rfl)]

theorem opened_attach (other : kind ≠ .opening) (line : List α) (parsed : List (Kind × List α)) :
    opened (attach kind line parsed) = opened parsed := by
  cases parsed with
  | nil => simp [attach, opened, other]
  | cons block more =>
      rw [attach]
      split
      · next same => simp [opened, other, same]
      · simp [opened, other]

theorem fencedText_attach (other : kind ≠ .content) (line : List α)
    (parsed : List (Kind × List α)) : fencedText (attach kind line parsed) = fencedText parsed := by
  cases parsed with
  | nil => simp [attach, fencedText, other]
  | cons block more =>
      rw [attach]
      split
      · next same => simp [fencedText, other, same]
      · simp [fencedText, other]

theorem marks_attach (other : kind ≠ .paragraph) (line : List α)
    (parsed : List (Kind × List α)) :
    marks char tag (attach kind line parsed) =
      marks char tag [(kind, line)] ++ marks char tag parsed := by
  cases parsed with
  | nil => simp [attach, marks]
  | cons block more =>
      obtain ⟨kindOfBlock, text⟩ := block
      rw [attach]
      split
      · next same =>
          subst same
          cases kindOfBlock <;> simp_all [marks]
      · simp [marks]

/-- Lines of one kind become one block. -/
theorem foldr_attach (apart : ∀ block ∈ parsed.head?, block.1 ≠ kind) (nonempty : front ≠ []) :
    front.foldr (fun line => attach kind (line.1 ++ line.2)) parsed =
      (kind, front.flatMap fun line => line.1 ++ line.2) :: parsed := by
  induction front with
  | nil => exact absurd rfl nonempty
  | cons line front ih =>
      rw [List.foldr_cons, List.flatMap_cons]
      by_cases empty : front = []
      · subst empty
        rw [List.foldr_nil, attach_apart apart, List.flatMap_nil, List.append_nil]
      · rw [ih empty, attach, if_pos rfl]

theorem exists_letter (letter : beginsWithLetter char content = true) :
    ∃ a rest, content = a :: rest ∧ (char a).isAlpha = true := by
  cases content with
  | nil => cases letter
  | cons a rest => exact ⟨a, rest, rfl, by simpa [beginsWithLetter] using letter⟩

theorem isBlank_of_letter (letter : beginsWithLetter char content = true) :
    isBlank char content = false := by
  obtain ⟨a, rest, rfl, isAlpha⟩ := exists_letter letter
  have blank : ¬ (char a = ' ' ∨ char a = '\t') := by
    rintro (space | tab)
    · rw [space] at isAlpha
      exact absurd isAlpha (by decide)
    · rw [tab] at isAlpha
      exact absurd isAlpha (by decide)
  rw [isBlank, List.all_cons, Bool.and_eq_false_iff]
  exact .inl (by simpa using blank)

theorem fenceOf_of_letter (letter : beginsWithLetter char content = true) :
    fenceOf char content = none := by
  obtain ⟨a, rest, rfl, isAlpha⟩ := exists_letter letter
  have apart (mark : Char) (other : mark.isAlpha = false) : char a ≠ mark := by
    rintro same
    rw [same, other] at isAlpha
    cases isAlpha
  have start : unindented char (a :: rest) = some (a :: rest) := by
    rw [unindented, List.dropWhile_cons_of_neg (by simpa using apart ' ' (by decide))]
    simp
  rw [fenceOf, start]
  exact if_neg fun opens => opens.1.elim (apart _ (by decide)) (apart _ (by decide))

theorem blocks_paragraph (letters : ∀ line ∈ front, beginsWithLetter char line.1 = true)
    (document : List (List α × List α)) :
    blocks char none (front ++ document) = (blocks char none document).map
      fun parsed => front.foldr (fun line => attach .paragraph (line.1 ++ line.2)) parsed := by
  induction front with
  | nil => simp
  | cons line front ih =>
      have letter := letters line List.mem_cons_self
      rw [List.cons_append, blocks, isBlank_of_letter letter, fenceOf_of_letter letter,
        if_neg (by decide),
        ih fun other member => letters other (.tail line member)]
      dsimp only
      rw [if_pos letter, Option.map_map]
      rfl

theorem blocks_content (stays : ∀ line ∈ front, closesFence char fence line.1 = false)
    (document : List (List α × List α)) :
    blocks char (some fence) (front ++ document) = (blocks char (some fence) document).map
      fun parsed => front.foldr (fun line => attach .content (line.1 ++ line.2)) parsed := by
  induction front with
  | nil => simp
  | cons line front ih =>
      rw [List.cons_append, blocks, stays line List.mem_cons_self, if_neg (by decide),
        ih fun other member => stays other (.tail line member), Option.map_map]
      rfl

theorem Encloses.blank (encloses : Encloses char tag theirs fences text document parsed)
    (blank : isBlank char content = true) (ours : ∀ a ∈ content ++ ending, ¬ theirs a) :
    Encloses char tag theirs fences text ((content, ending) :: document)
      (attach .blank (content ++ ending) parsed) where
  read := by
    rw [blocks, if_pos blank, encloses.read]
    rfl
  opens := (opened_attach (by decide) _ _).trans encloses.opens
  fenced := (fencedText_attach (by decide) _ _).trans encloses.fenced
  code entry member isTheirs := by
    rw [marks_attach (by decide), List.mem_append] at member
    rcases member with own | other
    · simp only [marks, List.flatMap_singleton, List.mem_map] at own
      obtain ⟨a, within, rfl⟩ := own
      exact absurd isTheirs (ours a within)
    · exact encloses.code entry other isTheirs

/-- Lines that begin with a letter are a paragraph, before anything that is not one. -/
theorem Encloses.paragraph (encloses : Encloses char tag theirs fences text document parsed)
    (apart : ∀ block ∈ parsed.head?, block.1 ≠ .paragraph) (nonempty : front ≠ [])
    (letters : ∀ line ∈ front, beginsWithLetter char line.1 = true)
    (code : ∀ entry ∈ spans char tag [] (front.flatMap fun line => line.1 ++ line.2),
      theirs entry.1 → entry.2 ≠ .plain) :
    Encloses char tag theirs fences text (front ++ document)
      ((.paragraph, front.flatMap fun line => line.1 ++ line.2) :: parsed) where
  read := by
    rw [blocks_paragraph letters, encloses.read, Option.map_some, foldr_attach apart nonempty]
  opens := by
    rw [← encloses.opens]
    rfl
  fenced := by
    rw [← encloses.fenced]
    rfl
  code entry member isTheirs := by
    rw [marks, List.flatMap_cons, List.mem_append] at member
    rcases member with own | other
    · exact code entry own isTheirs
    · exact encloses.code entry other isTheirs

/-- A fence, lines that do not close it and one that does are a fenced block. -/
theorem Encloses.fencing (encloses : Encloses char tag theirs 0 [] document parsed)
    (apart : ∀ block ∈ parsed.head?, block.1 ≠ .closing) (nonempty : front ≠ [])
    {opening closing : List α × List α}
    (notBlank : isBlank char opening.1 = false) (opens : fenceOf char opening.1 = some fence)
    (stays : ∀ line ∈ front, closesFence char fence line.1 = false)
    (closes : closesFence char fence closing.1 = true)
    (ours : ∀ a ∈ opening.1 ++ opening.2 ++ (closing.1 ++ closing.2), ¬ theirs a) :
    Encloses char tag theirs 1 (front.flatMap fun line => line.1 ++ line.2)
      (opening :: (front ++ closing :: document))
      ((.opening, opening.1 ++ opening.2) ::
        (.content, front.flatMap fun line => line.1 ++ line.2) ::
        (.closing, closing.1 ++ closing.2) :: parsed) where
  read := by
    rw [blocks, notBlank, opens, if_neg (by decide)]
    dsimp only
    rw [blocks_content stays, blocks, if_pos closes, encloses.read, Option.map_some,
      Option.map_some, Option.map_some, attach_apart apart, foldr_attach (by simp) nonempty,
      attach_apart (by simp)]
  opens := by
    have none := encloses.opens
    simpa [opened] using none
  fenced := by
    have none := encloses.fenced
    simpa [fencedText] using none
  code entry member isTheirs := by
    simp only [marks, List.flatMap_cons, List.mem_append, List.mem_map] at member
    rcases member with ⟨a, within, rfl⟩ | ⟨a, within, rfl⟩ | ⟨a, within, rfl⟩ | other
    · exact absurd isTheirs (ours a (List.mem_append_left _ (List.mem_append.mpr within)))
    · exact nofun
    · exact absurd isTheirs (ours a (List.mem_append_right _ (List.mem_append.mpr within)))
    · exact encloses.code entry other isTheirs

theorem encloses_nil : Encloses char tag theirs 0 [] [] [] where
  read := rfl
  opens := rfl
  fenced := rfl
  code _ member := absurd member List.not_mem_nil

section Fences

variable {tick : α} {info : List α} {width : Nat}

theorem dropWhile_ticks (isTick : char tick = '\x60') (width : Nat)
    (apart : ∀ a ∈ info.head?, char a ≠ '\x60') :
    (List.replicate width tick ++ info).dropWhile (char · = '\x60') = info := by
  induction width with
  | zero =>
      cases info with
      | nil => rfl
      | cons a info => exact List.dropWhile_cons_of_neg (by simpa using apart a rfl)
  | succ width ih =>
      rw [List.replicate_succ, List.cons_append, List.dropWhile_cons_of_pos (by simpa using isTick),
        ih]

theorem unindented_ticks (isTick : char tick = '\x60') (rest : List α) :
    unindented char (tick :: rest) = some (tick :: rest) := by
  rw [unindented, List.dropWhile_cons_of_neg (by simp [isTick])]
  simp

theorem fenceOf_ticks (isTick : char tick = '\x60') (wide : 2 ≤ width)
    (plain : ∀ a ∈ info, char a ≠ '\x60') :
    fenceOf char (List.replicate (width + 1) tick ++ info) = some ⟨'\x60', width + 1⟩ := by
  have apart : ∀ a ∈ info.head?, char a ≠ '\x60' :=
    fun a first => plain a (List.mem_of_mem_head? first)
  rw [List.replicate_succ, List.cons_append, fenceOf, unindented_ticks isTick]
  simp only [isTick]
  rw [dropWhile_ticks isTick width apart, List.length_append, List.length_replicate,
    show 1 + (width + info.length) - info.length = width + 1 by omega, if_pos]
  exact ⟨.inl trivial, by omega, fun _ => by simpa using plain⟩

theorem closesFence_ticks (isTick : char tick = '\x60') (width : Nat) :
    closesFence char ⟨'\x60', width + 1⟩ (List.replicate (width + 1) tick) = true := by
  have dropped : (List.replicate (width + 1) tick).dropWhile (char · = '\x60') = [] := by
    simpa using dropWhile_ticks isTick (width + 1) (nofun : ∀ a ∈ ([] : List α).head?, _)
  rw [closesFence, List.replicate_succ, unindented_ticks isTick, ← List.replicate_succ]
  dsimp only
  rw [dropped]
  simp [isBlank]

/-- A line that closes a fence has as many of its marks in a row. -/
theorem exists_ticks_of_closesFence (closes : closesFence char fence content = true) :
    ∃ ticks, ticks <:+: content ∧ fence.width ≤ ticks.length ∧
      ∀ a ∈ ticks, char a = fence.mark := by
  unfold closesFence at closes
  split at closes
  · next rest start =>
      refine ⟨rest.takeWhile (char · = fence.mark), ?_, ?_, fun a member => ?_⟩
      · have isSuffix : rest <:+ content := by
          rw [unindented] at start
          split at start
          · cases start
            exact List.dropWhile_suffix _
          · cases start
        exact (List.takeWhile_prefix _).isInfix.trans isSuffix.isInfix
      · have split := congrArg List.length
          (List.takeWhile_append_dropWhile (p := (char · = fence.mark)) (l := rest))
        rw [List.length_append] at split
        simp only [Bool.and_eq_true, decide_eq_true_eq] at closes
        omega
      · simpa using List.all_eq_true.mp List.all_takeWhile a member
  · cases closes

end Fences

end BlocksOfParts

end NookOs.Lib.Markdown
