/-
Module: NookOs.Db.Paging
Purpose: The one pagination of all lists: its arguments and cursors, the page that
  the SQL selects, and the page that a repository in memory makes.
Trusted boundary: how a uuid is written and read is a parameter
Main exports: Cursor, PageArgs, PageArgs.parse, ListSpec, ListSpec.fetch, walk, paging_visits
-/
import NookOs.Lib.Digits
import NookOs.Lib.Text
import NookOs.Lib.Walk
import Mathlib.Data.List.Infix

namespace NookOs.Db.Paging

open Lib
open Lib.Walk (follow)

section Data

abbrev Text := List Char

/-- A uuid by its bytes, which its order compares. -/
abbrev Uuid := Nat

/-- How a uuid is written and read. -/
structure UuidText where
  display : Uuid → Text
  parse : Text → Option Uuid
  parse_display : ∀ id, parse (display id) = some id

/-- A decoded continuation token. -/
inductive Cursor where
  | keyset (id : Uuid)
  | offset (rows : Nat)
deriving DecidableEq

inductive PageError where
  | cursor
  | sort (key : Text)
  | dir (dir : Text)
deriving DecidableEq

def PageError.display : PageError → Text
  | .cursor => "invalid cursor".toList
  | .sort key => "unknown sort key ".toList ++ '\x60' :: key ++ ['\x60']
  | .dir given => "invalid dir ".toList ++ '\x60' :: given ++ '\x60' :: " — use ".toList ++
      '\x60' :: "asc".toList ++ '\x60' :: " or ".toList ++ '\x60' :: "desc".toList ++ ['\x60']

/-- Read a decimal number, which may be signed.  The offsets of a table's rows are far
from the bounds of 64 bits, which are left out. -/
def parseI64 : Text → Option Int := Digits.readNumeral

namespace Cursor

variable (uuid : UuidText)

def encode : Cursor → Text
  | .keyset id => 'k' :: ':' :: uuid.display id
  | .offset rows => 'o' :: ':' :: Nat.toDigits 10 rows

def decode : Text → Except PageError Cursor
  | 'k' :: ':' :: rest =>
      match uuid.parse rest with
      | some id => .ok (.keyset id)
      | none => .error .cursor
  | 'o' :: ':' :: rest =>
      match (parseI64 rest).filter (0 ≤ ·) with
      | some rows => .ok (.offset rows.toNat)
      | none => .error .cursor
  | _ => .error .cursor

end Cursor

/-- A resolved sort, by an output column: `Sort`. -/
structure RowSort where
  col : Text
  desc : Bool
deriving DecidableEq

/-- The default order, which is the order of the keyset. -/
def RowSort.isId (sort : RowSort) : Bool := sort.col = "id".toList

/-- A cursor fits the order that it continues. -/
def Cursor.Fits (sort : RowSort) : Cursor → Bool
  | .keyset _ => sort.isId
  | .offset _ => !sort.isId

/-- Validated page arguments. -/
structure PageArgs where
  q : Option Text
  cursor : Option Cursor
  limit : Nat
  sort : RowSort
  fits : ∀ token ∈ cursor, token.Fits sort = true
  clamped : 1 ≤ limit ∧ limit ≤ 200

/-- What a client sends. -/
structure PageQuery where
  q : Option Text := none
  after : Option Text := none
  limit : Option Int := none
  sort : Option Text := none
  dir : Option Text := none
deriving DecidableEq

/-- The column of a sort key; the allowlist is public. -/
def sortColumn (sorts : List (Text × Text)) : Option Text → Except PageError Text
  | none => .ok "id".toList
  | some key =>
      match sorts.find? (·.1 = key) with
      | some (_, col) => .ok col
      | none => .error (.sort key)

/-- Newest first by default; explicit sorts read ascending. -/
def sortDesc (sort : Option Text) : Option Text → Except PageError Bool
  | none => .ok sort.isNone
  | some dir =>
      if dir = "asc".toList then .ok false
      else if dir = "desc".toList then .ok true
      else .error (.dir dir)

/-- `limit.unwrap_or(50).clamp(1, 200)`. -/
def clampLimit (limit : Option Int) : Nat := (min (max (limit.getD 50) 1) 200).toNat

theorem clampLimit_clamped (limit : Option Int) :
    1 ≤ clampLimit limit ∧ clampLimit limit ≤ 200 := by
  unfold clampLimit
  omega

/-- `after.map(Cursor::decode).transpose()`. -/
def decodeAfter (uuid : UuidText) : Option Text → Except PageError (Option Cursor)
  | none => .ok none
  | some token => (Cursor.decode uuid token).map some

/-- An empty search is no filter. -/
def searchTerm (q : Option Text) : Option Text := (q.map Text.trim).filter (· ≠ [])

/-- Wire values in, validated arguments out. -/
def PageArgs.parse (uuid : UuidText) (sorts : List (Text × Text)) (query : PageQuery) :
    Except PageError PageArgs := do
  let sort : RowSort := ⟨← sortColumn sorts query.sort, ← sortDesc query.sort query.dir⟩
  let cursor ← decodeAfter uuid query.after
  if fits : ∀ token ∈ cursor, token.Fits sort = true then
    pure ⟨searchTerm query.q, cursor, clampLimit query.limit, sort, fits,
      clampLimit_clamped query.limit⟩
  else throw .cursor

end Data

section Pages

/-- Which character a pattern escapes with. -/
inductive Engine where
  | postgres
  | sqlite
deriving DecidableEq

def Engine.escape : Engine → Option Char
  | .postgres => some '\\'
  | .sqlite => none

/-- Whether a text is like a pattern, its case folded: a percent sign stands for any
text, an underscore for any character, and what follows the escape for itself. -/
def ciMatch (escape : Option Char) (fold : Char → Char) : Text → Text → Bool
  | [], text => text.isEmpty
  | mark :: pattern, text =>
      if some mark = escape then
        match pattern, text with
        | literal :: rest, char :: more =>
            fold char = fold literal && ciMatch escape fold rest more
        | _, _ => false
      else if mark = '%' then text.tails.any (ciMatch escape fold pattern)
      else
        match text with
        | [] => false
        | char :: more =>
            (mark = '_' || fold char = fold mark) && ciMatch escape fold pattern more

/-- `'%' || $2 || '%'`. -/
def searchPattern (q : Text) : Text := '%' :: q ++ ['%']

/-- The shape of a list: the id of a row, its output columns, and those of them that a
search matches.  The rows are those of `select`. -/
structure ListSpec (Row Value : Type) where
  id : Row → Uuid
  col : Text → Row → Option Value
  search : List (Row → Option Text)

variable {Row Value : Type} [LinearOrder Value]

structure DbPage (Row : Type) where
  rows : List Row
  nextCursor : Option Text
deriving DecidableEq

/-- The full-page rule, shared by SQL and fakes. -/
def nextCursor (uuid : UuidText) (id : Row → Uuid) (args : PageArgs) (rows : List Row) :
    Option Text :=
  if rows.length ≠ args.limit then none
  else if args.sort.isId then
    rows.getLast?.map fun row => (Cursor.keyset (id row)).encode uuid
  else
    match args.cursor with
    | some (.offset count) => some ((Cursor.offset (count + args.limit)).encode uuid)
    | _ => some ((Cursor.offset args.limit).encode uuid)

/-- `DIR NULLS LAST`, and the id descending where that is a tie. -/
def keyBefore (desc : Bool) : Option Value × Uuid → Option Value × Uuid → Prop
  | (some one, first), (some two, second) =>
      (if desc then two < one else one < two) ∨ (one = two ∧ second ≤ first)
  | (some _, _), (none, _) => True
  | (none, _), (some _, _) => False
  | (none, first), (none, second) => second ≤ first

instance (desc : Bool) : DecidableRel (@keyBefore Value _ desc) := fun first second => by
  unfold keyBefore
  split <;> infer_instance

namespace ListSpec

variable (spec : ListSpec Row Value) (engine : Engine) (fold : Char → Char)

/-- `($2 IS NULL OR (x.c ILIKE '%' || $2 || '%' OR …))`. -/
def matchesTerm (q : Option Text) (row : Row) : Bool :=
  q.all fun term => spec.search.any fun column =>
    (column row).any (ciMatch engine.escape fold (searchPattern term))

/-- `x.id < $3`, or `x.id > $3`. -/
def beyondId (desc : Bool) (cursor : Uuid) (row : Row) : Bool :=
  if desc then spec.id row < cursor else cursor < spec.id row

/-- `ORDER BY x.id DIR`. -/
def idBefore (desc : Bool) (first second : Row) : Prop :=
  if desc then spec.id second ≤ spec.id first else spec.id first ≤ spec.id second

/-- `ORDER BY x.col DIR NULLS LAST, x.id DESC`. -/
def colBefore (col : Text) (desc : Bool) (first second : Row) : Prop :=
  keyBefore desc (spec.col col first, spec.id first) (spec.col col second, spec.id second)

/-- The order of a list. -/
def sortsBefore (sort : RowSort) (first second : Row) : Prop :=
  if sort.isId then spec.idBefore sort.desc first second
  else spec.colBefore sort.col sort.desc first second

instance (sort : RowSort) : DecidableRel (spec.sortsBefore sort) := fun first second => by
  unfold sortsBefore idBefore colBefore
  split <;> infer_instance

/-- The rows that the query of a page selects. -/
def sql (args : PageArgs) (rows : List Row) : List Row :=
  let found := rows.filter (spec.matchesTerm engine fold args.q)
  if args.sort.isId then
    let beyond := found.filter fun row =>
      match args.cursor with
      | some (.keyset id) => spec.beyondId args.sort.desc id row
      | _ => true
    (beyond.insertionSort (spec.sortsBefore args.sort)).take args.limit
  else
    let offset := match args.cursor with
      | some (.offset count) => count
      | _ => 0
    ((found.insertionSort (spec.sortsBefore args.sort)).drop offset).take args.limit

def fetch (uuid : UuidText) (args : PageArgs) (rows : List Row) : DbPage Row :=
  let rows := spec.sql engine fold args rows
  ⟨rows, nextCursor uuid spec.id args rows⟩

end ListSpec

/-- Ask for the pages of a list, one in each state of its table, each by the cursor that
the page before it returned. -/
def walk (uuid : UuidText) (sorts : List (Text × Text)) (spec : ListSpec Row Value)
    (engine : Engine) (fold : Char → Char) (query : PageQuery) :
    List (List Row) → Option Text → Option (List Row) :=
  follow fun rows after =>
    match PageArgs.parse uuid sorts { query with after := after } with
    | .ok args =>
        let page := spec.fetch engine fold uuid args rows
        (page.rows, page.nextCursor)
    | .error _ => ([], none)

end Pages

section Tokens

variable {uuid : UuidText} {sorts : List (Text × Text)} {query : PageQuery} {args : PageArgs}

/-- The arguments of a later page. -/
def PageArgs.continued (args : PageArgs) (token : Cursor) (fits : token.Fits args.sort = true) :
    PageArgs :=
  { args with
    cursor := some token
    fits := by
      rintro _ ⟨⟩
      exact fits }

/-- What the arguments of a first page say. -/
structure PageArgs.First (uuid : UuidText) (sorts : List (Text × Text)) (query : PageQuery)
    (args : PageArgs) : Prop where
  cursor : args.cursor = none
  continues : ∀ token fits, PageArgs.parse uuid sorts
    { query with after := some (token.encode uuid) } = .ok (args.continued token fits)

end Tokens

section Orders

variable {Row Value : Type} [LinearOrder Value] {spec : ListSpec Row Value} {sort : RowSort}

theorem keyBefore_trans {desc : Bool} {first second third : Option Value × Uuid}
    (before : keyBefore desc first second) (after : keyBefore desc second third) :
    keyBefore desc first third := by
  obtain ⟨_ | one, firstId⟩ := first <;> obtain ⟨_ | two, secondId⟩ := second <;>
    obtain ⟨_ | three, thirdId⟩ := third <;> simp only [keyBefore] at before after ⊢
  case none.none.none => exact after.trans before
  case some.some.some =>
    split at before
    case isTrue isDesc =>
      rw [if_pos isDesc] at after ⊢
      rcases before with more | ⟨rfl, ids⟩
      · exact .inl (after.elim (fun less => less.trans more) fun same => same.1 ▸ more)
      · exact after.imp_right fun same => ⟨same.1, same.2.trans ids⟩
    case isFalse isAsc =>
      rw [if_neg isAsc] at after ⊢
      rcases before with less | ⟨rfl, ids⟩
      · exact .inl (after.elim less.trans fun same => same.1 ▸ less)
      · exact after.imp_right fun same => ⟨same.1, same.2.trans ids⟩

theorem keyBefore_total {desc : Bool} (first second : Option Value × Uuid) :
    keyBefore desc first second ∨ keyBefore desc second first := by
  obtain ⟨_ | one, firstId⟩ := first <;> obtain ⟨_ | two, secondId⟩ := second <;>
    simp only [keyBefore, or_true, true_or]
  case none.none => exact le_total _ _
  case some.some =>
    rcases lt_trichotomy one two with less | rfl | more
    · cases desc with
      | false => exact .inl (.inl less)
      | true => exact .inr (.inl less)
    · exact (le_total secondId firstId).imp (fun ids => .inr ⟨rfl, ids⟩)
        fun ids => .inr ⟨rfl, ids⟩
    · cases desc with
      | false => exact .inr (.inl more)
      | true => exact .inl (.inl more)

namespace ListSpec

instance : IsTrans Row (spec.sortsBefore sort) where
  trans first second third := by
    unfold sortsBefore idBefore
    split
    case isTrue =>
      split
      case isTrue => exact fun before after => after.trans before
      case isFalse => exact fun before after => before.trans after
    case isFalse => exact keyBefore_trans

instance : Std.Total (spec.sortsBefore sort) where
  total first second := by
    unfold sortsBefore idBefore
    split
    case isTrue =>
      split
      case isTrue => exact le_total _ _
      case isFalse => exact le_total _ _
    case isFalse => exact keyBefore_total _ _

end ListSpec

end Orders

section Walking

variable {Row Value : Type} [LinearOrder Value] {spec : ListSpec Row Value} {engine : Engine}
  {fold : Char → Char} {uuid : UuidText} {sorts : List (Text × Text)} {query : PageQuery}
  {args : PageArgs}

variable (spec engine fold) in
/-- The rows that a search matches, in the order of the list. -/
def ordered (q : Option Text) (sort : RowSort) (rows : List Row) : List Row :=
  (rows.filter (spec.matchesTerm engine fold q)).insertionSort (spec.sortsBefore sort)

section Keyset

variable {Key : Type} [LinearOrder Key] (order : Uuid ≃ Key)

/-- An order of ids in which the later ones of the sort are greater. -/
def Follows (desc : Bool) : Prop :=
  ∀ one two, order one < order two ↔ if desc then two < one else one < two

variable {order}

end Keyset

end Walking

section Searching

variable {engine : Engine} {fold : Char → Char}

/-- A term that is no pattern. -/
def Literal (engine : Engine) (term : Text) : Prop :=
  ∀ char ∈ term, char ≠ '%' ∧ char ≠ '_' ∧ some char ≠ engine.escape

end Searching

section InMemory

variable {Row Value : Type} [LinearOrder Value] {spec : ListSpec Row Value} {engine : Engine}
  {fold : Char → Char} {uuid : UuidText} {args : PageArgs}
  {byCol : Text → Row → Row → Ordering} {rows : List Row}

/-- Newest first, or turned round, the rows stand in the order of their ids. -/
theorem newest_eq (distinct : (rows.map spec.id).Nodup) (isId : args.sort.isId = true) :
    (if args.sort.desc then rows.insertionSort fun first second => spec.id second ≤ spec.id first
      else (rows.insertionSort fun first second => spec.id second ≤ spec.id first).reverse) =
      rows.insertionSort (spec.sortsBefore args.sort) := by
  split
  case isTrue desc =>
    apply Walk.insertionSort_congr
    intro first _ second _
    rw [ListSpec.sortsBefore, if_pos isId, ListSpec.idBefore, if_pos desc]
  case isFalse asc =>
    have newest := List.perm_insertionSort
      (fun first second : Row => spec.id second ≤ spec.id first)
      rows
    have sorted : (rows.insertionSort fun first second =>
        spec.id second ≤ spec.id first).reverse.Pairwise (spec.sortsBefore args.sort) := by
      rw [List.pairwise_reverse]
      have descends : IsTrans Row fun first second => spec.id second ≤ spec.id first :=
        ⟨fun _ _ _ before after => after.trans before⟩
      have total : Std.Total fun first second : Row => spec.id second ≤ spec.id first :=
        ⟨fun _ _ => le_total _ _⟩
      refine (List.pairwise_insertionSort _ rows).imp ?_
      intro first second before
      rw [ListSpec.sortsBefore, if_pos isId, ListSpec.idBefore, if_neg asc]
      exact before
    apply List.Perm.eq_of_pairwise _ sorted (List.pairwise_insertionSort _ rows)
    · exact ((List.reverse_perm _).trans newest).trans (List.perm_insertionSort _ rows).symm
    · intro first second isFirst isSecond before after
      rw [ListSpec.sortsBefore, if_pos isId, ListSpec.idBefore, if_neg asc] at before after
      rw [List.mem_reverse, newest.mem_iff] at isFirst
      rw [(List.perm_insertionSort _ rows).mem_iff] at isSecond
      exact List.inj_on_of_nodup_map distinct isFirst isSecond (le_antisymm before after)

end InMemory

section Walks

variable {Row Value : Type} [LinearOrder Value] {spec : ListSpec Row Value} {engine : Engine}
  {fold : Char → Char} {uuid : UuidText} {sorts : List (Text × Text)} {query : PageQuery}
  {args : PageArgs}

end Walks

section Samples

end Samples

end NookOs.Db.Paging
