/-
Module: NookOs.Db.Dialect
Purpose: The JSON seam of the two engines: what each arm's fragment evaluates to on a
  stored document, and exactly when the two arms mean the same.
Trusted boundary: how the engines print and read JSON and read an array literal, as
  parameters
Main exports: Json, Engines, Postgres.getText, Sqlite.getText, Agrees, Alike, agrees_iff
-/
import NookOs.Lib.Fallible
import NookOs.Lib.Text

namespace NookOs.Db.Dialect

open Lib.Fallible
open Lib.Text (isWhitespace splitOnce)

/-!
An arm splices its arguments into the text of an expression, and the engine evaluates
that.  Each method here is the value of its fragment, which its docstring quotes.  Every
fragment may fail: a key may end the literal it is spliced into, a path or a text may not
parse.
-/

abbrev Text := List Char

section Documents

inductive Scalar (Number : Type) where
  | null
  | bool (value : Bool)
  | num (value : Number)
  | str (value : Text)
deriving DecidableEq

/-- A document; two numbers are equal when their values are.  The names of an object's
fields are distinct. -/
inductive Json (Number : Type) where
  | scalar (value : Scalar Number)
  | arr (elements : List (Json Number))
  | obj (fields : List (Text × Json Number))

variable {Number : Type}

/-- The member of an object. -/
def field (key : Text) : Json Number → Option (Json Number)
  | .obj fields => (fields.find? (·.1 = key)).map (·.2)
  | _ => none

/-- Why a fragment has no value. -/
inductive Failure where
  | literal
  | path
  | malformedJson
  | notAnArray
deriving DecidableEq

/-- A text between single quotes: a quote in it is doubled, or ends the literal. -/
def spliced : Text → Except Failure Text
  | [] => .ok []
  | '\'' :: '\'' :: rest => (spliced rest).map ('\'' :: ·)
  | '\'' :: _ => .error .literal
  | char :: rest => (spliced rest).map (char :: ·)

/-- What the engines do that the seam relies on: `->>` prints a value that is no string,
SQLite prints an array or an object, reads a number and a truth value as one of its own,
and reads a text as JSON; Postgres reads a text as an array of keys.  The two `set`
functions are here for the paths that no caller has. -/
structure Engines (Number : Type) where
  printText : Json Number → Text
  printJson : Json Number → Text
  number : Number → Number
  ofBool : Bool → Number
  readJson : Text → Option (Json Number)
  readArray : Text → Option (List Text)
  jsonbSet : Json Number → List Text → Json Number → Json Number
  jsonSet : Json Number → Text → Json Number → Json Number

end Documents

variable {Number : Type} (engines : Engines Number)

namespace Postgres

/-- `{col} -> '{key}'`. -/
def getJson (col : Json Number) (key : Text) : Except Failure (Option (Json Number)) :=
  (spliced key).map fun key => field key col

/-- A `jsonb` value as text; a JSON null is NULL. -/
def asText : Option (Json Number) → Option Text
  | none | some (.scalar .null) => none
  | some (.scalar (.str text)) => some text
  | some other => some (engines.printText other)

/-- `{col} ->> '{key}'`. -/
def getText (col : Json Number) (key : Text) : Except Failure (Option Text) :=
  (getJson col key).map (asText engines)

/-- `{col} @> {rhs}` of a flat object: every key has an equal scalar. -/
def contains [DecidableEq Number] (col : Json Number)
    (rhs : List (Text × Scalar Number)) : Bool :=
  rhs.all fun (key, value) =>
    match field key col with
    | some (.scalar stored) => stored = value
    | _ => false

/-- `COALESCE({expr}, '[]'::jsonb)`. -/
def orEmpty (expr : Option (Json Number)) : Json Number :=
  expr.getD (.arr [])

def isString (needle : Text) : Json Number → Bool
  | .scalar (.str text) => text = needle
  | _ => false

/-- `{arr} @> to_jsonb({needle}::text)`: an array may contain a primitive value. -/
def arrayContainsText (arr : Json Number) (needle : Text) : Bool :=
  match arr with
  | .arr elements => elements.any (isString needle)
  | other => isString needle other

/-- `jsonb_array_elements({expr})`. -/
def arrayElements : Json Number → Except Failure (List (Json Number))
  | .arr elements => .ok elements
  | _ => .error .notAnArray

/-- `SELECT {alias} ->> '{key}' FROM jsonb_array_elements(COALESCE(..)) {alias}`, of the
member of a column. -/
def elementTexts (col : Json Number) (member key : Text) :
    Except Failure (List (Option Text)) := do
  let _ ← spliced key
  let elements ← arrayElements (orEmpty (← getJson col member))
  elements.mapM (getText engines · key)

/-- A text as `text[]`: a brace, or the bounds before one, comes first. -/
def arrayLiteral (text : Text) : Except Failure (List Text) :=
  match text.dropWhile isWhitespace with
  | '{' :: _ | '[' :: _ =>
      match engines.readArray text with
      | some keys => .ok keys
      | none => .error .literal
  | _ => .error .literal

/-- A member replaced, or added where there is none. -/
def setField (key : Text) (value : Json Number) : Json Number → Json Number
  | .obj fields =>
      if fields.any (·.1 = key) then
        .obj (fields.map fun (name, stored) =>
          (name, if name = key then value else stored))
      else .obj (fields ++ [(key, value)])
  | other => other

/-- `jsonb_set({col}, '{path}', {value}, true)`. -/
def set (col : Json Number) (path : Text) (value : Json Number) :
    Except Failure (Json Number) := do
  let keys ← arrayLiteral engines (← spliced path)
  match keys with
  | [key] => .ok (setField key value col)
  | keys => .ok (engines.jsonbSet col keys value)

end Postgres

namespace Sqlite

/-- A step of a path; an index may count from the end, and `#` is none from it. -/
inductive Step where
  | label (name : Text)
  | index (place : Nat)
  | fromEnd (distance : Nat)
deriving DecidableEq

def readNat (digits : Text) : Except Failure Nat :=
  if digits ≠ [] ∧ digits.all Char.isDigit then
    .ok (digits.foldl (fun total digit => total * 10 + (digit.toNat - '0'.toNat)) 0)
  else .error .path

/-- What stands between two brackets. -/
def readIndex : Text → Except Failure Step
  | ['#'] => .ok (.fromEnd 0)
  | '#' :: '-' :: digits => (readNat digits).map .fromEnd
  | digits => (readNat digits).map .index

def endsLabel (char : Char) : Bool :=
  char = '.' || char = '['

/-- The steps of a path: a label, bare or quoted, or an index. -/
def steps : Nat → Text → Except Failure (List Step)
  | _, [] => .ok []
  | 0, _ => .error .path
  | fuel + 1, '.' :: '"' :: rest =>
      match splitOnce '"' rest with
      | none => .error .path
      | some (name, after) => (steps fuel after).map (.label name :: ·)
  | fuel + 1, '.' :: rest =>
      match rest.takeWhile fun char => !endsLabel char with
      | [] => .error .path
      | name =>
          (steps fuel (rest.dropWhile fun char => !endsLabel char)).map (.label name :: ·)
  | fuel + 1, '[' :: rest =>
      match splitOnce ']' rest with
      | none => .error .path
      | some (digits, after) => do
          let step ← readIndex digits
          (steps fuel after).map (step :: ·)
  | _ + 1, _ => .error .path

/-- A path begins with a dollar sign. -/
def jsonPath : Text → Except Failure (List Step)
  | '$' :: rest => steps (rest.length + 1) rest
  | _ => .error .path

def element (doc : Json Number) (place : Nat) : Option (Json Number) :=
  match doc with
  | .arr elements => elements[place]?
  | _ => none

def elementFromEnd (doc : Json Number) (distance : Nat) : Option (Json Number) :=
  match doc with
  | .arr elements =>
      if distance = 0 then none else elements.reverse[distance - 1]?
  | _ => none

/-- What a path finds. -/
def walk : List Step → Json Number → Option (Json Number)
  | [], doc => some doc
  | .label name :: rest, doc => (field name doc).bind (walk rest)
  | .index place :: rest, doc => (element doc place).bind (walk rest)
  | .fromEnd distance :: rest, doc => (elementFromEnd doc distance).bind (walk rest)

def find (doc : Json Number) (path : Text) : Except Failure (Option (Json Number)) :=
  (jsonPath path).map fun steps => walk steps doc

/-- A value of SQLite; `json` is a text that is known to be JSON. -/
inductive SqlValue (Number : Type) where
  | null
  | num (value : Number)
  | text (value : Text)
  | json (doc : Json Number)

/-- A member or an element as a value: what `json_extract` and the `value` column of
`json_each` give. -/
def sqlValue : Option (Json Number) → SqlValue Number
  | none | some (.scalar .null) => .null
  | some (.scalar (.bool value)) => .num (engines.ofBool value)
  | some (.scalar (.num value)) => .num (engines.number value)
  | some (.scalar (.str value)) => .text value
  | some nested => .json nested

/-- What two values are compared by; NULL is equal to nothing. -/
def content : SqlValue Number → Option (Number ⊕ Text)
  | .null => none
  | .num value => some (.inl value)
  | .text value => some (.inr value)
  | .json doc => some (.inr (engines.printJson doc))

def sqlEq [DecidableEq Number] (first second : SqlValue Number) : Bool :=
  match content engines first with
  | none => false
  | some value => content engines second = some value

/-- A value as a JSON argument. -/
def jsonArgument : SqlValue Number → Except Failure (Option (Json Number))
  | .null => .ok none
  | .num value => .ok (some (.scalar (.num value)))
  | .text value =>
      match engines.readJson value with
      | none => .error .malformedJson
      | some doc => .ok (some doc)
  | .json doc => .ok (some doc)

def jsonExtract (value : SqlValue Number) (path : Text) :
    Except Failure (SqlValue Number) := do
  match ← jsonArgument engines value with
  | none => .ok .null
  | some doc => (find doc path).map (sqlValue engines)

/-- The values `json_each` goes through. -/
def eachValues : Json Number → List (Json Number)
  | .arr elements => elements
  | .obj fields => fields.map (·.2)
  | .scalar value => [.scalar value]

/-- `json_extract({col}, '$.{key}')`, of a column and of a row's value. -/
def getText (col : SqlValue Number) (key : Text) : Except Failure (SqlValue Number) := do
  jsonExtract engines col (← spliced ('$' :: '.' :: key))

/-- `EXISTS (SELECT 1 FROM json_each({rhs}) k WHERE json_extract({col}, '$.' || k.key) =
k.value)`: the rows are read until one holds. -/
def contains [DecidableEq Number] (col : Json Number) :
    List (Text × Scalar Number) → Except Failure Bool
  | [] => .ok false
  | (key, value) :: rest => do
      let found ← find col ('$' :: '.' :: key)
      if sqlEq engines (sqlValue engines found) (sqlValue engines (some (.scalar value)))
      then .ok true
      else contains col rest

/-- `COALESCE({expr}, json('[]'))`. -/
def orEmpty : SqlValue Number → SqlValue Number
  | .null => .json (.arr [])
  | other => other

/-- `json_each({expr})`, with `{alias}.value` for the row. -/
def arrayElements (expr : SqlValue Number) : Except Failure (List (SqlValue Number)) := do
  match ← jsonArgument engines expr with
  | none => .ok []
  | some doc => .ok ((eachValues doc).map fun value => sqlValue engines (some value))

/-- `SELECT json_extract({alias}.value, '$.{key}') FROM json_each(COALESCE(..)) {alias}`,
of the member of a column. -/
def elementTexts (col : SqlValue Number) (member key : Text) :
    Except Failure (List (SqlValue Number)) := do
  let _ ← spliced key
  let rows ← arrayElements engines (orEmpty (← getText engines col member))
  rows.mapM (getText engines · key)

/-- `EXISTS (SELECT 1 FROM json_each({arr}) x WHERE x.value = {needle})`. -/
def arrayContainsText [DecidableEq Number] (arr : SqlValue Number) (needle : Text) :
    Except Failure Bool := do
  let rows ← arrayElements engines arr
  .ok (rows.any fun row => sqlEq engines row (.text needle))

/-- `json_set({col}, '{path}', {value})`. -/
def set (col : Json Number) (path : Text) (value : Json Number) :
    Except Failure (Json Number) := do
  let path ← spliced path
  let _ ← jsonPath path
  .ok (engines.jsonSet col path value)

end Sqlite

section Law

/-- A use of the seam on a stored object: the three single methods, and the two that the
executor query builds of an array member that may be missing. -/
inductive Use (Number : Type) where
  | contains (rhs : List (Text × Scalar Number))
  | getText (key : Text)
  | arrayContainsText (member needle : Text)
  | elementTexts (member key : Text)
  | set (path : Text) (value : Json Number)

/-- The text of a NULL or a value, in both engines. -/
def SameText (text : Option Text) (value : Sqlite.SqlValue Number) : Prop :=
  Sqlite.content engines value = text.map .inr

/-- The two arms have the same value, and have one. -/
def Agrees [DecidableEq Number] (col : Json Number) : Use Number → Prop
  | .contains rhs =>
      Sqlite.contains engines col rhs = .ok (Postgres.contains col rhs)
  | .getText key =>
      ∃ text value, Postgres.getText engines col key = .ok text ∧
        Sqlite.getText engines (.json col) key = .ok value ∧ SameText engines text value
  | .arrayContainsText member needle =>
      ∃ stored value, Postgres.getJson col member = .ok stored ∧
        Sqlite.getText engines (.json col) member = .ok value ∧
        Sqlite.arrayContainsText engines (Sqlite.orEmpty value) needle =
          .ok (Postgres.arrayContainsText (Postgres.orEmpty stored) needle)
  | .elementTexts member key =>
      ∃ texts values, Postgres.elementTexts engines col member key = .ok texts ∧
        Sqlite.elementTexts engines (.json col) member key = .ok values ∧
        List.Forall₂ (SameText engines) texts values
  | .set path value =>
      ∃ result, Postgres.set engines col path value = .ok result ∧
        Sqlite.set engines col path value = .ok result

/-- What SQLite reads in place of the member that a key names: the path of the key. -/
def ReadAt (col : Json Number) (key : Text) (found : Option (Json Number)) : Prop :=
  Sqlite.find col ('$' :: '.' :: key) = .ok found

/-- What SQLite reads of a member that it has read once: a null is gone, a truth value is
a number, and a text is read for the JSON in it. -/
inductive Reread : Option (Json Number) → Option (Json Number) → Prop where
  | missing : Reread none none
  | null : Reread (some (.scalar .null)) none
  | bool (value : Bool) :
      Reread (some (.scalar (.bool value))) (some (.scalar (.num (engines.ofBool value))))
  | num (value : Number) :
      Reread (some (.scalar (.num value))) (some (.scalar (.num (engines.number value))))
  | str {text : Text} {doc : Json Number} (read : engines.readJson text = some doc) :
      Reread (some (.scalar (.str text))) (some doc)
  | arr (elements : List (Json Number)) :
      Reread (some (.arr elements)) (some (.arr elements))
  | obj (fields : List (Text × Json Number)) :
      Reread (some (.obj fields)) (some (.obj fields))

/-- The text of a member in Postgres is the value of one in SQLite: neither has any, or it
is the text of a string, or both print it the same.  A number or a truth value is no text. -/
def TextAlike (stored : Option (Json Number)) : Option (Json Number) → Prop
  | none | some (.scalar .null) => stored = none ∨ stored = some (.scalar .null)
  | some (.scalar (.bool _)) | some (.scalar (.num _)) => False
  | some (.scalar (.str text)) => Postgres.asText engines stored = some text
  | some nested => Postgres.asText engines stored = some (engines.printJson nested)

/-- The number that SQLite has for a scalar. -/
def asNumber : Scalar Number → Option Number
  | .bool value => some (engines.ofBool value)
  | .num value => some (engines.number value)
  | .null | .str _ => none

/-- A member that SQLite takes for equal to a scalar: by number, whether a truth value or
not, or by text, whether printed or not.  Never a null. -/
def Equal : Option (Json Number) → Scalar Number → Prop
  | none, _ => False
  | some (.scalar (.str first)), .str second => first = second
  | some (.scalar first), second =>
      ∃ number, asNumber engines first = some number ∧ asNumber engines second = some number
  | some nested, .str text => engines.printJson nested = text
  | some _, _ => False

/-- The key at which SQLite finds an equal value. -/
def Taken (col : Json Number) (pair : Text × Scalar Number) : Prop :=
  ∃ found, ReadAt col pair.1 found ∧ Equal engines found pair.2

/-- The path of a key is one, and SQLite finds no equal value at it. -/
def Passed (col : Json Number) (pair : Text × Scalar Number) : Prop :=
  ∃ found, ReadAt col pair.1 found ∧ ¬ Equal engines found pair.2

/-- Postgres finds the value of every key. -/
def AllMatch (col : Json Number) (rhs : List (Text × Scalar Number)) : Prop :=
  ∀ pair ∈ rhs, field pair.1 col = some (.scalar pair.2)

/-- The element that SQLite compares with a text as one. -/
def RowText (needle : Text) : Json Number → Prop
  | .scalar (.str text) => text = needle
  | .scalar _ => False
  | nested => engines.printJson nested = needle

/-- A member is a string, or an array with it. -/
def HasString (stored : Option (Json Number)) (needle : Text) : Prop :=
  match stored with
  | some (.arr elements) => .scalar (.str needle) ∈ elements
  | other => other = some (.scalar (.str needle))

/-- The elements that SQLite goes through. -/
def members (doc : Option (Json Number)) : List (Json Number) :=
  (doc.map Sqlite.eachValues).getD []

/-- The texts of a key of an element, and of what SQLite reads of a row. -/
def RowAlike (key : Text) (element row : Json Number) : Prop :=
  ∃ doc, Reread engines (some row) doc ∧
    match doc with
    | none => TextAlike engines (field key element) none
    | some doc => ∃ found, ReadAt doc key found ∧ TextAlike engines (field key element) found

/-- The uses that mean the same in both: no key of a containment is taken where one does
not match, and one is where all do; a member is a string or what both print alike; an
array is one of strings or of objects.  No path is one for both. -/
def Alike (col : Json Number) : Use Number → Prop
  | .contains rhs =>
      (AllMatch col rhs ∧ ∃ before pair after, rhs = before ++ pair :: after ∧
        (∀ earlier ∈ before, Passed engines col earlier) ∧ Taken engines col pair) ∨
      (¬ AllMatch col rhs ∧ ∀ pair ∈ rhs, Passed engines col pair)
  | .getText key =>
      ∃ name found, spliced key = .ok name ∧ ReadAt col name found ∧
        TextAlike engines (field name col) found
  | .arrayContainsText member needle =>
      ∃ name found doc, spliced member = .ok name ∧ ReadAt col name found ∧
        Reread engines found doc ∧
        ((∃ row ∈ members doc, RowText engines needle row) ↔
          HasString (field name col) needle)
  | .elementTexts member key =>
      ∃ name label found doc elements, spliced member = .ok name ∧
        spliced key = .ok label ∧ ReadAt col name found ∧ Reread engines found doc ∧
        Postgres.orEmpty (field name col) = .arr elements ∧
        List.Forall₂ (RowAlike engines label) elements (members doc)
  | .set _ _ => False

end Law

/-!
Each method of an arm is inverted once.  What SQLite reads of a value it has read before
is the same relation wherever it does so, and two values are compared in two ways only.
-/

section Inversion

variable {engines}

theorem spliced_path (key : Text) :
    spliced ('$' :: '.' :: key) = (spliced key).map ('$' :: '.' :: ·) := by
  cases named : spliced key with
  | error | ok => simp [spliced, named, Except.map]

theorem sqlEq_iff [DecidableEq Number] {found : Option (Json Number)} {value : Scalar Number} :
    Sqlite.sqlEq engines (Sqlite.sqlValue engines found)
        (Sqlite.sqlValue engines (some (.scalar value))) = true ↔
      Equal engines found value := by
  rcases found with _ | ((_ | first | first | first) | elements | fields) <;>
    cases value <;>
      simp [Sqlite.sqlEq, Sqlite.sqlValue, Sqlite.content, Equal, asNumber, eq_comm]

theorem sqlEq_text_iff [DecidableEq Number] {row : Json Number} {needle : Text} :
    Sqlite.sqlEq engines (Sqlite.sqlValue engines (some row)) (.text needle) = true ↔
      RowText engines needle row := by
  rcases row with (_ | first | first | first) | elements | fields <;>
    simp [Sqlite.sqlEq, Sqlite.sqlValue, Sqlite.content, RowText, eq_comm]

theorem asText_eq_none {stored : Option (Json Number)} :
    Postgres.asText engines stored = none ↔
      stored = none ∨ stored = some (.scalar .null) := by
  rcases stored with _ | ((_ | first | first | first) | elements | fields) <;>
    simp [Postgres.asText]

theorem sameText_iff {stored found : Option (Json Number)} :
    SameText engines (Postgres.asText engines stored) (Sqlite.sqlValue engines found) ↔
      TextAlike engines stored found := by
  rw [SameText]
  rcases found with _ | ((_ | first | first | first) | elements | fields)
  case none | some.scalar.null =>
    simp only [Sqlite.sqlValue, Sqlite.content, TextAlike]
    rw [← asText_eq_none]
    cases Postgres.asText engines stored <;> simp
  case some.scalar.bool | some.scalar.num =>
    simp only [Sqlite.sqlValue, Sqlite.content, TextAlike]
    cases Postgres.asText engines stored <;> simp
  case some.scalar.str | some.arr | some.obj =>
    simp only [Sqlite.sqlValue, Sqlite.content, TextAlike]
    cases Postgres.asText engines stored <;> simp [eq_comm]

theorem jsonArgument_ok_iff {found doc : Option (Json Number)} :
    Sqlite.jsonArgument engines (Sqlite.sqlValue engines found) = .ok doc ↔
      Reread engines found doc := by
  constructor
  · intro read
    rcases found with _ | ((_ | first | first | first) | elements | fields)
    case some.scalar.str =>
      rw [Sqlite.sqlValue, Sqlite.jsonArgument] at read
      split at read
      case h_1 => cases read
      case h_2 _ parsed =>
        cases read
        exact .str parsed
    all_goals
      cases read
      constructor
  · intro read
    cases read with
    | str parsed => simp only [Sqlite.sqlValue, Sqlite.jsonArgument, parsed]
    | _ => rfl

variable {col : Json Number}

theorem postgres_getText_ok_iff {key : Text} {text : Option Text} :
    Postgres.getText engines col key = .ok text ↔
      ∃ name, spliced key = .ok name ∧ Postgres.asText engines (field name col) = text := by
  simp only [Postgres.getText, Postgres.getJson, map_ok_iff]
  constructor
  · intro ⟨_, ⟨name, named, rfl⟩, same⟩
    exact ⟨name, named, same⟩
  · intro ⟨name, named, same⟩
    exact ⟨_, ⟨name, named, rfl⟩, same⟩

theorem postgres_contains_iff [DecidableEq Number] {rhs : List (Text × Scalar Number)} :
    Postgres.contains col rhs = true ↔ AllMatch col rhs := by
  rw [Postgres.contains, List.all_eq_true]
  apply forall₂_congr
  intro pair _
  obtain ⟨key, value⟩ := pair
  dsimp only
  generalize field key col = stored
  rcases stored with _ | (stored | elements | fields) <;> simp

theorem postgres_arrayContainsText_iff {stored : Option (Json Number)} {needle : Text} :
    Postgres.arrayContainsText (Postgres.orEmpty stored) needle = true ↔
      HasString stored needle := by
  have isString_iff (doc : Json Number) : Postgres.isString needle doc = true ↔
      .scalar (.str needle) = doc := by
    rcases doc with (_ | _ | _ | text) | elements | fields <;>
      simp [Postgres.isString, eq_comm]
  rcases stored with _ | (value | elements | fields)
  case none => simp [Postgres.orEmpty, Postgres.arrayContainsText, HasString]
  case some.arr =>
    simp [Postgres.orEmpty, Postgres.arrayContainsText, HasString, isString_iff]
  case some.scalar | some.obj =>
    simp [Postgres.orEmpty, Postgres.arrayContainsText, HasString, isString_iff, eq_comm]

theorem Reread.functional {found first second : Option (Json Number)}
    (read : Reread engines found first) (again : Reread engines found second) :
    first = second := by
  cases read with
  | str parsed =>
    cases again with
    | str parsedAgain => exact parsed.symm.trans parsedAgain
  | _ =>
    cases again
    rfl

/-- What SQLite reads a second time. -/
theorem sqlite_getText_again {row : Option (Json Number)} {key : Text}
    {value : Sqlite.SqlValue Number} :
    Sqlite.getText engines (Sqlite.sqlValue engines row) key = .ok value ↔
      ∃ label doc, spliced key = .ok label ∧ Reread engines row doc ∧
        match doc with
        | none => .null = value
        | some doc => ∃ found, ReadAt doc label found ∧
            Sqlite.sqlValue engines found = value := by
  simp only [Sqlite.getText, Sqlite.jsonExtract, spliced_path, bind_ok_iff, map_ok_iff,
    jsonArgument_ok_iff, ReadAt]
  constructor
  · intro ⟨_, ⟨label, named, rfl⟩, doc, read, rest⟩
    refine ⟨label, doc, named, read, ?_⟩
    cases doc with
    | none => exact Except.ok.inj rest
    | some doc => exact map_ok_iff.mp rest
  · intro ⟨label, doc, named, read, rest⟩
    refine ⟨_, ⟨label, named, rfl⟩, doc, read, ?_⟩
    cases doc with
    | none => exact congrArg Except.ok rest
    | some doc => exact map_ok_iff.mpr rest

theorem sqlite_getText_ok_iff {key : Text} {value : Sqlite.SqlValue Number} :
    Sqlite.getText engines (.json col) key = .ok value ↔
      ∃ name found, spliced key = .ok name ∧ ReadAt col name found ∧
        Sqlite.sqlValue engines found = value := by
  simp only [Sqlite.getText, Sqlite.jsonExtract, Sqlite.jsonArgument, spliced_path,
    bind_ok_iff, map_ok_iff, ReadAt]
  constructor
  · intro ⟨_, ⟨name, named, rfl⟩, _, rfl, rest⟩
    obtain ⟨found, read, same⟩ := map_ok_iff.mp rest
    exact ⟨name, found, named, read, same⟩
  · intro ⟨name, found, named, read, same⟩
    exact ⟨_, ⟨name, named, rfl⟩, some col, rfl, map_ok_iff.mpr ⟨found, read, same⟩⟩

/-- The rows of a member, where a member that is missing is an empty array. -/
theorem sqlite_arrayElements_ok_iff {found : Option (Json Number)}
    {rows : List (Sqlite.SqlValue Number)} :
    Sqlite.arrayElements engines (Sqlite.orEmpty (Sqlite.sqlValue engines found)) =
        .ok rows ↔
      ∃ doc, Reread engines found doc ∧
        (members doc).map (fun row => Sqlite.sqlValue engines (some row)) = rows := by
  have absent_or :
      (∃ doc, Reread engines found doc ∧ doc = none ∧
          Sqlite.orEmpty (Sqlite.sqlValue engines found) = .json (.arr [])) ∨
        Sqlite.orEmpty (Sqlite.sqlValue engines found) = Sqlite.sqlValue engines found ∧
          ∀ doc, Reread engines found doc → doc ≠ none := by
    rcases found with _ | ((_ | first | first | first) | elements | fields)
    case none => exact .inl ⟨none, .missing, rfl, rfl⟩
    case some.scalar.null => exact .inl ⟨none, .null, rfl, rfl⟩
    all_goals
      refine .inr ⟨rfl, ?_⟩
      intro doc read
      cases read
      exact Option.some_ne_none _
  rcases absent_or with ⟨doc, read, rfl, empty⟩ | ⟨same, present⟩
  · rw [empty]
    constructor
    · intro went
      cases went
      exact ⟨none, read, rfl⟩
    · intro ⟨other, again, went⟩
      cases again.functional read
      rw [← went]
      rfl
  · simp only [same, Sqlite.arrayElements, bind_ok_iff, jsonArgument_ok_iff]
    apply exists_congr
    intro doc
    apply and_congr_right
    intro read
    cases doc with
    | none => exact absurd rfl (present none read)
    | some doc => simp [members]

section Containment

variable [DecidableEq Number] {col : Json Number} {rhs : List (Text × Scalar Number)}

/-- One row of the scan. -/
theorem sqlite_contains_cons {pair : Text × Scalar Number} {answer : Bool} :
    Sqlite.contains engines col (pair :: rhs) = .ok answer ↔
      (Taken engines col pair ∧ answer = true) ∨
        (Passed engines col pair ∧ Sqlite.contains engines col rhs = .ok answer) := by
  simp only [Sqlite.contains, bind_ok_iff, Taken, Passed, ReadAt]
  constructor
  · intro ⟨found, read, rest⟩
    by_cases equal : Equal engines found pair.2
    · rw [if_pos (sqlEq_iff.mpr equal)] at rest
      exact .inl ⟨⟨found, read, equal⟩, (Except.ok.inj rest).symm⟩
    · rw [if_neg (mt sqlEq_iff.mp equal)] at rest
      exact .inr ⟨⟨found, read, equal⟩, rest⟩
  · intro row
    rcases row with ⟨⟨found, read, equal⟩, rfl⟩ | ⟨⟨found, read, differ⟩, rest⟩
    · exact ⟨found, read, if_pos (sqlEq_iff.mpr equal)⟩
    · exact ⟨found, read, (if_neg (mt sqlEq_iff.mp differ)).trans rest⟩

/-- The scan ends at the first key that is taken. -/
theorem sqlite_contains_true_iff :
    Sqlite.contains engines col rhs = .ok true ↔
      ∃ before pair after, rhs = before ++ pair :: after ∧
        (∀ earlier ∈ before, Passed engines col earlier) ∧ Taken engines col pair := by
  induction rhs with
  | nil => simp [Sqlite.contains]
  | cons pair rest ih =>
    rw [sqlite_contains_cons, ih]
    constructor
    · intro row
      rcases row with ⟨taken, -⟩ | ⟨passed, before, later, after, rfl, earlier, taken⟩
      · exact ⟨[], pair, rest, rfl, by simp, taken⟩
      · refine ⟨pair :: before, later, after, rfl, ?_, taken⟩
        exact List.forall_mem_cons.mpr ⟨passed, earlier⟩
    · intro ⟨before, later, after, split, earlier, taken⟩
      cases before with
      | nil =>
        cases split
        exact .inl ⟨taken, rfl⟩
      | cons first before =>
        cases split
        obtain ⟨passed, earlier⟩ := List.forall_mem_cons.mp earlier
        exact .inr ⟨passed, before, later, after, rfl, earlier, taken⟩

theorem sqlite_contains_false_iff :
    Sqlite.contains engines col rhs = .ok false ↔
      ∀ pair ∈ rhs, Passed engines col pair := by
  induction rhs with
  | nil => simp [Sqlite.contains]
  | cons pair rest ih =>
    rw [sqlite_contains_cons, ih, List.forall_mem_cons]
    simp

theorem agrees_contains_iff :
    Agrees engines col (.contains rhs) ↔ Alike engines col (.contains rhs) := by
  simp only [Agrees, Alike]
  by_cases all : AllMatch col rhs
  · rw [postgres_contains_iff.mpr all, sqlite_contains_true_iff]
    simp [all]
  · have unmatched : Postgres.contains col rhs = false :=
      Bool.eq_false_iff.mpr fun holds => all (postgres_contains_iff.mp holds)
    rw [unmatched, sqlite_contains_false_iff]
    simp [all]

end Containment

theorem agrees_getText_iff [DecidableEq Number] {key : Text} :
    Agrees engines col (.getText key) ↔ Alike engines col (.getText key) := by
  simp only [Agrees, Alike, postgres_getText_ok_iff, sqlite_getText_ok_iff]
  constructor
  · intro ⟨_, _, ⟨name, named, rfl⟩, ⟨label, found, labelled, read, rfl⟩, same⟩
    cases named.symm.trans labelled
    exact ⟨name, found, named, read, sameText_iff.mp same⟩
  · intro ⟨name, found, named, read, alike⟩
    exact ⟨_, _, ⟨name, named, rfl⟩, ⟨name, found, named, read, rfl⟩,
      sameText_iff.mpr alike⟩

theorem agrees_arrayContainsText_iff [DecidableEq Number] {member needle : Text} :
    Agrees engines col (.arrayContainsText member needle) ↔
      Alike engines col (.arrayContainsText member needle) := by
  have rows_any (doc : Option (Json Number)) :
      ((members doc).map fun row => Sqlite.sqlValue engines (some row)).any
          (Sqlite.sqlEq engines · (.text needle)) = true ↔
        ∃ row ∈ members doc, RowText engines needle row := by
    simp [sqlEq_text_iff]
  simp only [Agrees, Alike, Postgres.getJson, map_ok_iff, sqlite_getText_ok_iff,
    Sqlite.arrayContainsText, bind_ok_iff, Except.ok.injEq]
  constructor
  · intro ⟨_, _, ⟨name, named, rfl⟩, ⟨label, found, labelled, read, rfl⟩, rows, went, same⟩
    cases named.symm.trans labelled
    obtain ⟨doc, again, rfl⟩ := sqlite_arrayElements_ok_iff.mp went
    refine ⟨name, found, doc, named, read, again, ?_⟩
    rw [← rows_any, same, postgres_arrayContainsText_iff]
  · intro ⟨name, found, doc, named, read, again, same⟩
    refine ⟨_, _, ⟨name, named, rfl⟩, ⟨name, found, named, read, rfl⟩, _,
      sqlite_arrayElements_ok_iff.mpr ⟨doc, again, rfl⟩, ?_⟩
    rw [Bool.eq_iff_iff, rows_any, same, postgres_arrayContainsText_iff]

/-- The texts of one key, of an element and of its row. -/
theorem rowAlike_iff {key label : Text} {element row : Json Number}
    (labelled : spliced key = .ok label) :
    (∃ text value, Postgres.getText engines element key = .ok text ∧
        Sqlite.getText engines (Sqlite.sqlValue engines (some row)) key = .ok value ∧
        SameText engines text value) ↔
      RowAlike engines label element row := by
  simp only [postgres_getText_ok_iff, sqlite_getText_again, RowAlike]
  constructor
  · intro ⟨_, _, ⟨name, named, rfl⟩, ⟨other, doc, again, read, rest⟩, same⟩
    cases labelled.symm.trans named
    cases labelled.symm.trans again
    refine ⟨doc, read, ?_⟩
    cases doc with
    | none =>
      cases rest
      exact sameText_iff.mp same
    | some doc =>
      obtain ⟨found, at_, rfl⟩ := rest
      exact ⟨found, at_, sameText_iff.mp same⟩
  · intro ⟨doc, read, alike⟩
    cases doc with
    | none =>
      exact ⟨_, _, ⟨label, labelled, rfl⟩, ⟨label, none, labelled, read, rfl⟩,
        sameText_iff.mpr alike⟩
    | some doc =>
      obtain ⟨found, at_, alike⟩ := alike
      exact ⟨_, _, ⟨label, labelled, rfl⟩,
        ⟨label, some doc, labelled, read, found, at_, rfl⟩, sameText_iff.mpr alike⟩

/-- Two lists of computed texts are alike when the texts are, row by row. -/
theorem forall₂_through {First Second Third Fourth : Type*}
    {left : First → Third → Prop} {right : Second → Fourth → Prop}
    {same : Third → Fourth → Prop} {firsts : List First} {seconds : List Second} :
    (∃ thirds fourths, List.Forall₂ left firsts thirds ∧
        List.Forall₂ right seconds fourths ∧ List.Forall₂ same thirds fourths) ↔
      List.Forall₂
        (fun first second => ∃ third fourth, left first third ∧ right second fourth ∧
          same third fourth) firsts seconds := by
  constructor
  · intro ⟨thirds, fourths, lefts, rights, sames⟩
    induction sames generalizing firsts seconds with
    | nil =>
      cases lefts
      cases rights
      exact .nil
    | cons equal _ ih =>
      cases lefts with
      | cons leftHead lefts =>
        cases rights with
        | cons rightHead rights =>
          exact .cons ⟨_, _, leftHead, rightHead, equal⟩ (ih lefts rights)
  · intro each
    induction each with
    | nil => exact ⟨[], [], .nil, .nil, .nil⟩
    | cons row _ ih =>
      obtain ⟨third, fourth, leftHead, rightHead, equal⟩ := row
      obtain ⟨thirds, fourths, lefts, rights, sames⟩ := ih
      exact ⟨third :: thirds, fourth :: fourths, .cons leftHead lefts,
        .cons rightHead rights, .cons equal sames⟩

theorem postgres_arrayElements_ok_iff {doc : Json Number} {elements : List (Json Number)} :
    Postgres.arrayElements doc = .ok elements ↔ doc = .arr elements := by
  cases doc with
  | _ => simp [Postgres.arrayElements]

theorem agrees_elementTexts_iff [DecidableEq Number] {member key : Text} :
    Agrees engines col (.elementTexts member key) ↔
      Alike engines col (.elementTexts member key) := by
  simp only [Agrees, Alike, Postgres.elementTexts, Sqlite.elementTexts, Postgres.getJson,
    bind_ok_iff, map_ok_iff, sqlite_getText_ok_iff, postgres_arrayElements_ok_iff,
    mapM_ok_iff]
  constructor
  · intro ⟨texts, values,
      ⟨label, labelled, _, ⟨name, named, rfl⟩, elements, array, printed⟩,
      ⟨_, _, _, ⟨other, found, again, read, rfl⟩, rows, went, extracted⟩, same⟩
    cases named.symm.trans again
    obtain ⟨doc, reread, rfl⟩ := sqlite_arrayElements_ok_iff.mp went
    refine ⟨name, label, found, doc, elements, named, labelled, read, reread, array, ?_⟩
    rw [List.forall₂_map_left_iff] at extracted
    have rows := forall₂_through.mp ⟨texts, values, printed, extracted, same⟩
    exact rows.imp fun element row => (rowAlike_iff labelled).mp
  · intro ⟨name, label, found, doc, elements, named, labelled, read, reread, array, alike⟩
    have rows := alike.imp fun element row => (rowAlike_iff labelled).mpr
    obtain ⟨texts, values, printed, extracted, same⟩ := forall₂_through.mpr rows
    exact ⟨texts, values,
      ⟨label, labelled, _, ⟨name, named, rfl⟩, elements, array, printed⟩,
      ⟨label, labelled, _, ⟨name, found, named, read, rfl⟩, _,
        sqlite_arrayElements_ok_iff.mpr ⟨doc, reread, rfl⟩,
        List.forall₂_map_left_iff.mpr extracted⟩, same⟩

theorem not_agrees_set [DecidableEq Number] {col value : Json Number} {path : Text} :
    ¬ Agrees engines col (.set path value) := by
  intro ⟨result, postgres, sqlite⟩
  simp only [Postgres.set, Sqlite.set, bind_ok_iff] at postgres sqlite
  obtain ⟨text, read, keys, literal, -⟩ := postgres
  obtain ⟨other, again, steps, parsed, -⟩ := sqlite
  cases read.symm.trans again
  -- a path of SQLite begins with a dollar sign, an array literal never does
  rcases text with _ | ⟨first, rest⟩
  · cases parsed
  · by_cases dollar : first = '$'
    · cases dollar
      have kept : ('$' :: rest).dropWhile isWhitespace = '$' :: rest :=
        List.dropWhile_cons_of_neg (by decide)
      rw [Postgres.arrayLiteral, kept] at literal
      cases literal
    · rw [Sqlite.jsonPath] at parsed
      · cases parsed
      · intro later same
        exact dollar (List.head_eq_of_cons_eq same)

end Inversion

/-- The two arms mean the same on exactly the uses that are alike. -/
theorem agrees_iff [DecidableEq Number] (fields : List (Text × Json Number)) (use : Use Number) :
    Agrees engines (.obj fields) use ↔ Alike engines (.obj fields) use := by
  cases use with
  | contains rhs => exact agrees_contains_iff
  | getText key => exact agrees_getText_iff
  | arrayContainsText member needle => exact agrees_arrayContainsText_iff
  | elementTexts member key => exact agrees_elementTexts_iff
  | set path value => exact iff_of_false not_agrees_set id

section Kinds

def one : Json Int :=
  .scalar (.num 1)

/-- Any key is enough for SQLite, and no path is one for both engines. -/
theorem any_key_matches :
    ∃ (fields : List (Text × Json Int)) (rhs : List (Text × Scalar Int)) (value : Json Int),
      ∀ engines : Engines Int,
        ¬ Agrees engines (.obj fields) (.contains rhs) ∧
          ¬ Agrees engines (.obj fields) (.set "{runtime_auth}".toList value) := by
  refine ⟨[(['a'], one)], [(['a'], .num 1), (['b'], .num 2)], .arr [], ?_⟩
  intro engines
  constructor
  · intro agrees
    have taken : Sqlite.contains engines (.obj [(['a'], one)])
        [(['a'], .num 1), (['b'], .num 2)] = .ok true := by
      rw [Sqlite.contains]
      have found : Sqlite.find (.obj [(['a'], one)]) ['$', '.', 'a'] = .ok (some one) := rfl
      rw [found]
      simp [bind, Except.bind, Sqlite.sqlEq, Sqlite.sqlValue, Sqlite.content, one]
    have unmatched : Postgres.contains (.obj [(['a'], one)])
        [(['a'], .num 1), (['b'], .num 2)] = false := rfl
    rw [Agrees, taken, unmatched] at agrees
    cases agrees
  · exact not_agrees_set

end Kinds

end NookOs.Db.Dialect
