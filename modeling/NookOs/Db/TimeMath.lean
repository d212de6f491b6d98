/-
Module: NookOs.Db.TimeMath
Purpose: The expressions by which the SQLite track writes the time and the time some units
  from now, and that what the engine makes of them is ordered with the bound timestamps as
  the instants are.
Trusted boundary: what the engine makes of a specifier, of a count, of a modifier of whole
  units and of a call of its time function, as parameters
Main exports: sqliteModifierUnit, nowPlus, nowMinus, OrderedLikeInstants, ordered_like_instants
-/
import Mathlib.Algebra.Group.Int.Defs
import NookOs.Db.SqliteTime
import NookOs.Lib.Text

namespace NookOs.Db.SqliteTime

open Lib.Digits

section Forms

/-- The unit of a modifier from the literal of an interval. -/
def sqliteModifierUnit (unit : Text) : Text :=
  let bare := (("1 ".toList).isPrefixOf? unit).getD unit
  if bare.getLast? = some 's' then bare else bare ++ ['s']

def nowPlus (spec : Text) : Text := nowShiftedSql ("'+".toList ++ spec ++ "'".toList)

def nowMinus (spec : Text) : Text := nowShiftedSql ("'-".toList ++ spec ++ "'".toList)

def nowMinusScaled (count unit : Text) : Text :=
  nowShiftedSql <|
    "printf('%s ".toList ++ sqliteModifierUnit unit ++ "', -(".toList ++ count ++ "))".toList

def nowPlusScaled (count unit : Text) : Text :=
  nowShiftedSql <|
    "printf('%s ".toList ++ sqliteModifierUnit unit ++ "', ".toList ++ count ++ ")".toList

end Forms

section Outside

/-- The units of one length, in milliseconds. -/
def units : List (Text × Int) :=
  [("second".toList, 1000), ("minute".toList, 60000), ("hour".toList, 3600000),
    ("day".toList, 86400000)]

/-- A unit may be a plural. -/
def unitMillis (unit : Text) : Option Int :=
  (units.find? fun (name, _) => unit = name ∨ unit = name ++ ['s']).map Prod.snd

/-- The engine: its specifiers, the integer value and the text value of an expression, where a
modifier moves an instant, and the value of a call of its time function.  What it moves stays
in milliseconds, but may leave the years of four digits. -/
structure Engine where
  print : Instant → Text → Text
  printYear : ∀ instant, instant.IsMoment → print instant ['Y'] = digits 4 instant.year.toNat
  printMonth : ∀ instant, instant.IsMoment → print instant ['m'] = digits 2 instant.month
  printDay : ∀ instant, instant.IsMoment → print instant ['d'] = digits 2 instant.day
  printHour : ∀ instant, instant.IsMoment → print instant ['H'] = digits 2 instant.hour
  printMinute : ∀ instant, instant.IsMoment → print instant ['M'] = digits 2 instant.minute
  printSeconds : ∀ instant, instant.IsMoment →
    print instant ['f'] = digits 2 instant.second ++ '.' :: digits 3 (instant.frac / 1000000)
  number : Text → Option Int
  numberNegated : ∀ count value, number count = some value → -2 ^ 63 < value →
    number ("-(".toList ++ count ++ ")".toList) = some (-value)
  value : Text → Option Text
  valueLiteral : ∀ text, '\'' ∉ text → value ("'".toList ++ text ++ "'".toList) = some text
  valuePrintf : ∀ unit count value', '\'' ∉ unit → '%' ∉ unit → number count = some value' →
    value ("printf('%s ".toList ++ unit ++ "', ".toList ++ count ++ ")".toList) =
      some (decimal value' ++ ' ' :: unit)
  shift : Text → Instant → Option Instant
  shiftWhole : ∀ modifier now moved, shift modifier now = some moved → moved.IsWhole
  shiftUnits : ∀ numeral count unit millis (now moved : Instant), Numeral numeral count →
    unitMillis unit = some millis → now.IsMoment → moved.IsMoment →
      moved.stamp = now.stamp + count * millis →
        shift (numeral ++ ' ' :: unit) now = some moved
  evaluate : Text → Instant → Option Text
  evaluateNow : ∀ format now, '\'' ∉ format → now.IsMoment →
    evaluate ("strftime('".toList ++ format ++ "','now')".toList) now =
      some (expand (print now) format)
  evaluateShifted : ∀ format modifier text now, '\'' ∉ format → value modifier = some text →
    now.IsMoment →
      evaluate ("strftime('".toList ++ format ++ "','now', ".toList ++ modifier ++ ")".toList)
          now =
        (shift text now).map fun moved => expand (print moved) format

end Outside

section Properties

/-- The expressions that move the time by some milliseconds: a literal of so many units, or
a count, which the engine computes, of one unit. -/
inductive Moves (engine : Engine) : Text → Int → Prop
  | plus (count : Nat) {unit : Text} {millis : Int} (isUnit : unitMillis unit = some millis) :
      Moves engine (nowPlus (Nat.toDigits 10 count ++ ' ' :: unit)) (count * millis)
  | minus (count : Nat) {unit : Text} {millis : Int} (isUnit : unitMillis unit = some millis) :
      Moves engine (nowMinus (Nat.toDigits 10 count ++ ' ' :: unit)) (-count * millis)
  | plusScaled {count unit interval : Text} {value millis : Int}
      (isNumber : engine.number count = some value) (isUnit : unitMillis unit = some millis)
      (isInterval : interval = unit ∨ interval = "1 ".toList ++ unit) :
      Moves engine (nowPlusScaled count interval) (value * millis)
  | minusScaled {count unit interval : Text} {value millis : Int}
      (isNumber : engine.number count = some value) (room : -2 ^ 63 < value)
      (isUnit : unitMillis unit = some millis)
      (isInterval : interval = unit ∨ interval = "1 ".toList ++ unit) :
      Moves engine (nowMinusScaled count interval) (-value * millis)

/-- The texts of timestamps are as the instants. -/
structure OrderedLikeInstants (formatter : Formatter) (engine : Engine) : Prop where
  width : ∀ instant : Instant, instant.InYears → (render formatter instant).length = 23
  readBack : ∀ instant : Instant, instant.InYears →
    formatter.parse chronoFormat (render formatter instant) = some instant.floor
  ordered : ∀ first second : Instant, first.InYears → second.InYears →
    (render formatter first < render formatter second ↔ first.floor < second.floor)
  distinct : ∀ first second : Instant, first.InYears → second.InYears →
    (render formatter first = render formatter second ↔ first.floor = second.floor)
  now : ∀ now : Instant, now.IsMoment →
    engine.evaluate nowSql now = some (render formatter now)
  shifted : ∀ modifier text (now moved : Instant), engine.value modifier = some text →
    now.IsMoment → engine.shift text now = some moved → moved.InYears →
      engine.evaluate (nowShiftedSql modifier) now = some (render formatter moved)
  planned : ∀ sql millis (now moved : Instant), Moves engine sql millis → now.IsMoment →
    moved.IsMoment → moved.stamp = now.stamp + millis →
      engine.evaluate sql now = some (render formatter moved)
  expires : ∀ sql millis (written expiry now : Instant), Moves engine sql millis →
    written.IsMoment → expiry.IsMoment → now.IsMoment →
      expiry.stamp = written.stamp + millis →
        ∃ stored current, engine.evaluate sql written = some stored ∧
          engine.evaluate nowSql now = some current ∧
          (stored < current ↔ written.stamp + millis < now.stamp)

end Properties

/-! ### One form -/

section Units

variable {unit : Text} {millis : Int}

theorem mem_units (isUnit : unitMillis unit = some millis) :
    ∃ name, (name, millis) ∈ units ∧ (unit = name ∨ unit = name ++ ['s']) := by
  obtain ⟨⟨name, length⟩, found, rfl⟩ := Option.map_eq_some_iff.mp isUnit
  have isName := List.find?_some found
  exact ⟨name, List.mem_of_find?_eq_some found, of_decide_eq_true isName⟩

theorem units_modifier : ∀ entry ∈ units, ∀ unit ∈ [entry.1, entry.1 ++ ['s']],
    ¬ "1 ".toList <+: unit ∧ '\'' ∉ unit ∧ unitMillis (sqliteModifierUnit unit) = some entry.2 ∧
      '\'' ∉ sqliteModifierUnit unit ∧ '%' ∉ sqliteModifierUnit unit := by
  decide

/-- One unit and its plural are one modifier. -/
theorem sqliteModifierUnit_one (notOne : ¬ "1 ".toList <+: unit) :
    sqliteModifierUnit ("1 ".toList ++ unit) = sqliteModifierUnit unit := by
  unfold sqliteModifierUnit
  rw [Lib.Text.isPrefixOf?_append, Lib.Text.isPrefixOf?_none notOne]
  rfl

theorem unit_modifier (isUnit : unitMillis unit = some millis) :
    ¬ "1 ".toList <+: unit ∧ '\'' ∉ unit ∧
      unitMillis (sqliteModifierUnit unit) = some millis ∧
      '\'' ∉ sqliteModifierUnit unit ∧ '%' ∉ sqliteModifierUnit unit := by
  obtain ⟨name, member, isName⟩ := mem_units isUnit
  refine units_modifier (name, millis) member unit ?_
  simpa only [List.mem_cons, List.not_mem_nil, or_false] using isName

/-- The unit of an interval is a unit of the engine, of the same length. -/
theorem interval_modifier {interval : Text} (isUnit : unitMillis unit = some millis)
    (isInterval : interval = unit ∨ interval = "1 ".toList ++ unit) :
    unitMillis (sqliteModifierUnit interval) = some millis ∧
      '\'' ∉ sqliteModifierUnit interval ∧ '%' ∉ sqliteModifierUnit interval := by
  obtain ⟨notOne, -, modifier⟩ := unit_modifier isUnit
  rcases isInterval with rfl | rfl
  · exact modifier
  · rwa [sqliteModifierUnit_one notOne]

end Units

section Modifiers

variable {engine : Engine} {sql : Text} {millis : Int}

theorem unquoted_literal {count : Nat} {unit : Text} {each : Int} {sign : Char}
    (isSign : sign ≠ '\'') (isUnit : unitMillis unit = some each) :
    '\'' ∉ sign :: (Nat.toDigits 10 count ++ ' ' :: unit) := by
  have noDigit : '\'' ∉ Nat.toDigits 10 count := fun member =>
    absurd (List.all_eq_true.mp (toDigits_all count) '\'' member) (by decide)
  have unquoted := (unit_modifier isUnit).2.1
  simp [isSign.symm, noDigit, unquoted]

/-- Each form has a modifier that is a numeral of one unit. -/
theorem Moves.modifier (moves : Moves engine sql millis) :
    ∃ modifier numeral unit count each, sql = nowShiftedSql modifier ∧
      engine.value modifier = some (numeral ++ ' ' :: unit) ∧ Numeral numeral count ∧
      unitMillis unit = some each ∧ millis = count * each := by
  cases moves with
  | @plus count unit each isUnit =>
      have isValue := engine.valueLiteral ('+' :: (Nat.toDigits 10 count ++ ' ' :: unit))
        (unquoted_literal (by decide) isUnit)
      exact ⟨_, '+' :: Nat.toDigits 10 count, unit, count, each, rfl, isValue, .plus count,
        isUnit, rfl⟩
  | @minus count unit each isUnit =>
      have isValue := engine.valueLiteral ('-' :: (Nat.toDigits 10 count ++ ' ' :: unit))
        (unquoted_literal (by decide) isUnit)
      exact ⟨_, '-' :: Nat.toDigits 10 count, unit, -count, each, rfl, isValue, .minus count,
        isUnit, rfl⟩
  | plusScaled isNumber isUnit isInterval =>
      obtain ⟨isUnit, unquoted, noPercent⟩ := interval_modifier isUnit isInterval
      exact ⟨_, _, _, _, _, rfl, engine.valuePrintf _ _ _ unquoted noPercent isNumber,
        .plain _, isUnit, rfl⟩
  | minusScaled isNumber room isUnit isInterval =>
      obtain ⟨isUnit, unquoted, noPercent⟩ := interval_modifier isUnit isInterval
      have isNegated := engine.numberNegated _ _ isNumber room
      refine ⟨_, _, _, _, _, rfl, ?_, .plain _, isUnit, rfl⟩
      have printed := engine.valuePrintf _ _ _ unquoted noPercent isNegated
      simpa using printed

end Modifiers

section Engines

variable (formatter : Formatter) (engine : Engine) {sql : Text} {millis : Int}
  {now moved written expiry : Instant}

/-- What the engine writes of an instant is what the binder writes. -/
theorem expand_eq (isMoment : now.IsMoment) :
    expand (engine.print now) timestampFormat = render formatter now := by
  have noLeap := isMoment.noLeap
  change engine.print now ['Y'] ++ '-' :: (engine.print now ['m'] ++ '-' ::
    (engine.print now ['d'] ++ ' ' :: (engine.print now ['H'] ++ ':' ::
      (engine.print now ['M'] ++ ':' :: (engine.print now ['f'] ++ []))))) = _
  rw [engine.printYear now isMoment, engine.printMonth now isMoment,
    engine.printDay now isMoment, engine.printHour now isMoment,
    engine.printMinute now isMoment, engine.printSeconds now isMoment,
    render_eq formatter isMoment.inYears]
  have second : now.second + now.frac / 1000000000 = now.second := by omega
  have millis : now.frac % 1000000000 / 1000000 = now.frac / 1000000 := by omega
  simp only [columns, shape, Instant.fields, List.cons_append, List.nil_append,
    List.append_assoc, second, millis]

theorem timestampFormat_unquoted : '\'' ∉ timestampFormat := by decide

theorem evaluate_now (isMoment : now.IsMoment) :
    engine.evaluate nowSql now = some (render formatter now) := by
  have evaluated : engine.evaluate nowSql now =
      some (expand (engine.print now) timestampFormat) :=
    engine.evaluateNow timestampFormat now timestampFormat_unquoted isMoment
  rw [evaluated, expand_eq formatter engine isMoment]

theorem evaluate_shifted {modifier text : Text} (isValue : engine.value modifier = some text)
    (isMoment : now.IsMoment) (isMoved : engine.shift text now = some moved)
    (inYears : moved.InYears) :
    engine.evaluate (nowShiftedSql modifier) now = some (render formatter moved) := by
  have evaluated : engine.evaluate (nowShiftedSql modifier) now =
      (engine.shift text now).map fun moved => expand (engine.print moved) timestampFormat :=
    engine.evaluateShifted timestampFormat modifier text now timestampFormat_unquoted isValue
      isMoment
  have movedMoment : moved.IsMoment := ⟨engine.shiftWhole text now moved isMoved, inYears⟩
  rw [evaluated, isMoved, Option.map_some, expand_eq formatter engine movedMoment]

/-- The forms write the time so many milliseconds on. -/
theorem evaluate_moves (moves : Moves engine sql millis) (isMoment : now.IsMoment)
    (movedMoment : moved.IsMoment) (isMoved : moved.stamp = now.stamp + millis) :
    engine.evaluate sql now = some (render formatter moved) := by
  obtain ⟨modifier, numeral, unit, count, each, rfl, isValue, isNumeral, isUnit, rfl⟩ :=
    moves.modifier
  have shifted : engine.shift (numeral ++ ' ' :: unit) now = some moved :=
    engine.shiftUnits numeral count unit each now moved isNumeral isUnit isMoment movedMoment
      isMoved
  exact evaluate_shifted formatter engine isValue isMoment shifted movedMoment.inYears

/-- An expiry that was stored is before the current time in their texts as in their
milliseconds. -/
theorem stored_lt (formatter : Formatter) (moves : Moves engine sql millis)
    (wasMoment : written.IsMoment) (expiryMoment : expiry.IsMoment) (isMoment : now.IsMoment)
    (isExpiry : expiry.stamp = written.stamp + millis) :
    ∃ stored current, engine.evaluate sql written = some stored ∧
      engine.evaluate nowSql now = some current ∧
      (stored < current ↔ written.stamp + millis < now.stamp) := by
  refine ⟨_, _, evaluate_moves formatter engine moves wasMoment expiryMoment isExpiry,
    evaluate_now formatter engine isMoment, ?_⟩
  rw [render_lt formatter expiryMoment.inYears isMoment.inYears,
    Instant.floor_eq_self expiryMoment.toIsWhole, Instant.floor_eq_self isMoment.toIsWhole,
    ← Instant.stamp_lt expiryMoment.toIsWhole isMoment.toIsWhole, isExpiry]

/-- The texts of timestamps are of one width, are read back, and are ordered as the
instants in milliseconds, whoever wrote them. -/
theorem ordered_like_instants : OrderedLikeInstants formatter engine where
  width _ := length_render formatter
  readBack _ := parse_render formatter
  ordered _ _ := render_lt formatter
  distinct _ _ := render_inj formatter
  now _ := evaluate_now formatter engine
  shifted _ _ _ _ := evaluate_shifted formatter engine
  planned _ _ _ _ := evaluate_moves formatter engine
  expires _ _ _ _ _ := stored_lt engine formatter

end Engines

section Concrete

open Lib.Calendar
open Lib.Text (splitOnce splitOnce_append isPrefixOf?_append)

/-- The format and the modifier of an expression of the time functions. -/
def callParts (sql : Text) : Option (Text × Option Text) :=
  (("strftime('".toList).isPrefixOf? sql).bind fun rest =>
    (splitOnce '\'' rest).bind fun (format, rest) =>
      if rest = ",'now')".toList then some (format, none)
      else ((",'now', ".toList).isPrefixOf? rest).map fun modifier =>
        (format, some modifier.dropLast)

section Calls

variable {format modifier : Text}

theorem callParts_now (unquoted : '\'' ∉ format) :
    callParts ("strftime('".toList ++ format ++ "','now')".toList) = some (format, none) := by
  have split : splitOnce '\'' (format ++ "','now')".toList) =
      some (format, ",'now')".toList) := splitOnce_append unquoted
  rw [callParts, List.append_assoc, isPrefixOf?_append, Option.bind_some, split,
    Option.bind_some]
  exact if_pos rfl

theorem callParts_shifted (unquoted : '\'' ∉ format) :
    callParts ("strftime('".toList ++ format ++ "','now', ".toList ++ modifier ++ ")".toList) =
      some (format, some modifier) := by
  have split : splitOnce '\'' (format ++ ("','now', ".toList ++ (modifier ++ [')']))) =
      some (format, ",'now', ".toList ++ (modifier ++ [')'])) := splitOnce_append unquoted
  have other : ",'now', ".toList ++ (modifier ++ [')']) ≠ ",'now')".toList := by
    intro same
    cases same
  have whole : "strftime('".toList ++ format ++ "','now', ".toList ++ modifier ++ ")".toList =
      "strftime('".toList ++ (format ++ ("','now', ".toList ++ (modifier ++ [')']))) := by
    simp only [List.append_assoc]
    rfl
  rw [callParts, whole, isPrefixOf?_append, Option.bind_some, split, Option.bind_some]
  dsimp only
  rw [if_neg other, isPrefixOf?_append, Option.map_some, List.dropLast_concat]

end Calls

/-- The specifiers of the engine. -/
def printMoment (instant : Instant) : Text → Text
  | ['f'] => digits 2 instant.second ++ '.' :: digits 3 (instant.frac / 1000000)
  | letter => civil.print instant letter

/-- The whole instant of some milliseconds. -/
def momentAt (stamp : Int) : Instant where
  year := (Date.ofNumber (stamp / 86400000)).year
  month := (Date.ofNumber (stamp / 86400000)).month
  day := (Date.ofNumber (stamp / 86400000)).day
  secs := (stamp % 86400000 / 1000).toNat
  frac := (stamp % 1000 * 1000000).toNat
  monthRange := (Date.ofNumber (stamp / 86400000)).monthRange
  dayRange := (Date.ofNumber (stamp / 86400000)).dayRange
  secsRange := by omega
  fracRange := by omega
  leap := by omega

theorem momentAt_whole (stamp : Int) : (momentAt stamp).IsWhole := by
  constructor
  · change (stamp % 1000 * 1000000).toNat % 1000000 = 0
    omega
  · change (stamp % 1000 * 1000000).toNat < 1000000000
    omega

theorem stamp_momentAt (stamp : Int) : (momentAt stamp).stamp = stamp := by
  have isDate : (momentAt stamp).date.number = stamp / 86400000 := Date.number_ofNumber _
  rw [Instant.stamp, isDate]
  simp only [momentAt]
  omega

instance decidableInYears (instant : Instant) : Decidable instant.InYears :=
  inferInstanceAs (Decidable (0 ≤ instant.year ∧ instant.year ≤ 9999))

/-- An instant moved by a number of units, within the years of four digits. -/
def shiftBy (modifier : Text) (now : Instant) : Option Instant := do
  let (numeral, unit) ← splitOnce ' ' modifier
  let count ← readNumeral numeral
  let millis ← unitMillis unit
  let moved := momentAt (now.stamp + count * millis)
  if moved.InYears then some moved else none

theorem shiftBy_whole {modifier : Text} {now moved : Instant}
    (isMoved : shiftBy modifier now = some moved) : moved.IsWhole := by
  simp only [shiftBy, Option.bind_eq_bind, Option.bind_eq_some_iff,
    Option.ite_none_right_eq_some, Option.some.injEq] at isMoved
  obtain ⟨_, -, count, -, millis, -, -, rfl⟩ := isMoved
  exact momentAt_whole _

theorem shiftBy_units {numeral unit : Text} {count millis : Int} {now moved : Instant}
    (isNumeral : Numeral numeral count) (isUnit : unitMillis unit = some millis)
    (movedMoment : moved.IsMoment) (isMoved : moved.stamp = now.stamp + count * millis) :
    shiftBy (numeral ++ ' ' :: unit) now = some moved := by
  have same : momentAt (now.stamp + count * millis) = moved := by
    rw [← Instant.stamp_inj (momentAt_whole _) movedMoment.toIsWhole, stamp_momentAt, isMoved]
  simp only [shiftBy, splitOnce_append (space_notMem_numeral isNumeral), Option.bind_eq_bind,
    Option.bind_some, readNumeral_numeral isNumeral, isUnit, same, if_pos movedMoment.inYears]

/-- An integer of 64 bits: a bound value, a numeral, or another one negated. -/
def numberOf (bound : Text → Option Int) : Text → Option Int
  | '-' :: '(' :: rest =>
      if rest.getLast? = some ')' then
        ((numberOf bound rest.dropLast).filter (-2 ^ 63 < ·)).map Neg.neg
      else none
  | '$' :: name => (bound name).filter fun value => -2 ^ 63 ≤ value ∧ value < 2 ^ 63
  | text => (readNumeral text).filter fun value => -2 ^ 63 ≤ value ∧ value < 2 ^ 63
termination_by text => text.length
decreasing_by
  simp only [List.length_dropLast, List.length_cons]
  omega

theorem numberOf_negated (bound : Text → Option Int) (count : Text) (value : Int)
    (isNumber : numberOf bound count = some value) (room : -2 ^ 63 < value) :
    numberOf bound ("-(".toList ++ count ++ ")".toList) = some (-value) := by
  change numberOf bound ('-' :: '(' :: (count ++ [')'])) = some (-value)
  rw [numberOf, if_pos List.getLast?_concat, List.dropLast_concat, isNumber,
    Option.filter_some, if_pos (decide_eq_true room)]
  rfl

/-- A literal is its text, and a form with one count is its number and its unit. -/
def valueOf (bound : Text → Option Int) : Text → Option Text
  | '\'' :: rest =>
      if rest.getLast? = some '\'' ∧ '\'' ∉ rest.dropLast then some rest.dropLast else none
  | sql => do
      let rest ← ("printf('%s ".toList).isPrefixOf? sql
      let (unit, rest) ← splitOnce '\'' rest
      let rest ← (", ".toList).isPrefixOf? rest
      if rest.getLast? = some ')' then
        (numberOf bound rest.dropLast).map fun count => decimal count ++ ' ' :: unit
      else none

theorem valueOf_literal (bound : Text → Option Int) (text : Text) (unquoted : '\'' ∉ text) :
    valueOf bound ("'".toList ++ text ++ "'".toList) = some text := by
  change valueOf bound ('\'' :: (text ++ ['\''])) = some text
  rw [valueOf, List.getLast?_concat, List.dropLast_concat, if_pos ⟨rfl, unquoted⟩]

theorem valueOf_printf (bound : Text → Option Int) (unit count : Text) (value : Int)
    (unquoted : '\'' ∉ unit) (isNumber : numberOf bound count = some value) :
    valueOf bound ("printf('%s ".toList ++ unit ++ "', ".toList ++ count ++ ")".toList) =
      some (decimal value ++ ' ' :: unit) := by
  have split : splitOnce '\'' (unit ++ '\'' :: (", ".toList ++ (count ++ [')']))) =
      some (unit, ", ".toList ++ (count ++ [')'])) := splitOnce_append unquoted
  have whole : "printf('%s ".toList ++ unit ++ "', ".toList ++ count ++ ")".toList =
      "printf('%s ".toList ++ (unit ++ '\'' :: (", ".toList ++ (count ++ [')']))) := by
    simp only [List.append_assoc]
    rfl
  rw [whole, valueOf]
  · simp only [isPrefixOf?_append, split, Option.bind_eq_bind, Option.bind_some,
      List.getLast?_concat, List.dropLast_concat, isNumber, if_true, Option.map_some]
  · intro rest isLiteral
    cases isLiteral

def evaluateCall (bound : Text → Option Int) (sql : Text) (now : Instant) : Option Text := do
  let (format, modifier) ← callParts sql
  match modifier with
  | none => some (expand (printMoment now) format)
  | some modifier =>
      let text ← valueOf bound modifier
      (shiftBy text now).map fun moved => expand (printMoment moved) format

/-- An engine of these expressions, with what is bound to its parameters. -/
def engineOf (bound : Text → Option Int) : Engine where
  print := printMoment
  printYear _ _ := rfl
  printMonth _ _ := rfl
  printDay _ _ := rfl
  printHour _ _ := rfl
  printMinute _ _ := rfl
  printSeconds _ _ := rfl
  number := numberOf bound
  numberNegated := numberOf_negated bound
  value := valueOf bound
  valueLiteral := valueOf_literal bound
  valuePrintf unit count value unquoted _ := valueOf_printf bound unit count value unquoted
  shift := shiftBy
  shiftWhole _ _ _ := shiftBy_whole
  shiftUnits _ _ _ _ _ _ isNumeral isUnit _ := shiftBy_units isNumeral isUnit
  evaluate := evaluateCall bound
  evaluateNow format now unquoted _ := by
    rw [evaluateCall, callParts_now unquoted]
    rfl
  evaluateShifted format modifier text now unquoted isValue _ := by
    rw [evaluateCall, callParts_shifted unquoted]
    simp only [Option.bind_eq_bind, Option.bind_some, isValue]

/-- The properties for a concrete formatter and engine, whose parameters are an hour. -/
theorem ordered_like_instants_civil :
    OrderedLikeInstants civil (engineOf fun _ => some 3600) :=
  ordered_like_instants civil (engineOf fun _ => some 3600)

example : Moves (engineOf fun _ => some 3600)
    (nowMinusScaled "$2".toList "1 second".toList) (-3600 * 1000) :=
  .minusScaled (by change numberOf _ ['$', '2'] = some 3600; rw [numberOf]; rfl) (by decide)
    (by decide) (.inr rfl)

end Concrete

end NookOs.Db.SqliteTime
