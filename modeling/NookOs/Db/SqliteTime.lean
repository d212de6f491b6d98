/-
Module: NookOs.Db.SqliteTime
Purpose: The text of a timestamp on the SQLite track, as the binder writes it, and that these
  texts are read back and ordered as the instants are.
Trusted boundary: what the formatter makes of a specifier and reads of it, as a parameter
Main exports: Instant, Instant.stamp, timestampFormat, nowSql, nowShiftedSql, render_lt, stamp_lt
-/
import NookOs.Lib.Calendar
import NookOs.Lib.Digits

namespace NookOs.Db.SqliteTime

open Lib.Calendar
open Lib.Digits

abbrev Text := List Char

section Instants

/-- A date and a time of day in UTC.  The fraction counts nanoseconds and passes one second
only in a leap second, which follows the last second of a minute. -/
@[ext] structure Instant where
  year : Int
  month : Nat
  day : Nat
  secs : Nat
  frac : Nat
  monthRange : 1 ≤ month ∧ month ≤ 12
  dayRange : 1 ≤ day ∧ day ≤ daysInMonth year month
  secsRange : secs < 86400
  fracRange : frac < 2000000000
  leap : 1000000000 ≤ frac → secs % 60 = 59

namespace Instant

def hour (instant : Instant) : Nat := instant.secs / 3600

def minute (instant : Instant) : Nat := instant.secs / 60 % 60

def second (instant : Instant) : Nat := instant.secs % 60

/-- What two instants are compared by, the first difference counting. -/
def key (instant : Instant) : List Int :=
  [instant.year, instant.month, instant.day, instant.secs, instant.frac]

instance : LT Instant := ⟨fun first second => first.key < second.key⟩

def date (instant : Instant) : Date where
  year := instant.year
  month := instant.month
  day := instant.day
  monthRange := instant.monthRange
  dayRange := instant.dayRange

/-- The milliseconds of an instant, a day having as many as any other. -/
def stamp (instant : Instant) : Int :=
  instant.date.number * 86400000 + instant.secs * 1000 + instant.frac / 1000000

/-- Rounded down to the millisecond. -/
def floor (instant : Instant) : Instant where
  year := instant.year
  month := instant.month
  day := instant.day
  secs := instant.secs
  frac := instant.frac / 1000000 * 1000000
  monthRange := instant.monthRange
  dayRange := instant.dayRange
  secsRange := instant.secsRange
  fracRange := by
    have range := instant.fracRange
    omega
  leap large := instant.leap (by omega)

def InYears (instant : Instant) : Prop := 0 ≤ instant.year ∧ instant.year ≤ 9999

/-- In milliseconds and in no leap second. -/
structure IsWhole (instant : Instant) : Prop where
  whole : instant.frac % 1000000 = 0
  noLeap : instant.frac < 1000000000

/-- An instant of the engine, whose years are of four digits. -/
structure IsMoment (instant : Instant) : Prop extends instant.IsWhole where
  inYears : instant.InYears

end Instant

end Instants

section Forms

def timestampFormat : Text := "%Y-%m-%d %H:%M:%f".toList

def chronoFormat : Text := "%Y-%m-%d %H:%M:%S%.3f".toList

def nowSql : Text := "strftime('".toList ++ timestampFormat ++ "','now')".toList

def nowShiftedSql (modifier : Text) : Text :=
  "strftime('".toList ++ timestampFormat ++ "','now', ".toList ++ modifier ++ ")".toList

end Forms

section Outside

/-- A format with its specifiers replaced. -/
def expand (print : Text → Text) : Text → Text
  | '%' :: '.' :: '3' :: 'f' :: rest => print ".3f".toList ++ expand print rest
  | '%' :: letter :: rest => print [letter] ++ expand print rest
  | char :: rest => char :: expand print rest
  | [] => []

/-- What a text has where a format has its specifiers. -/
def scan (read : Text → Text → Option (Nat × Text)) : Text → Text → Option (List (Text × Nat))
  | '%' :: '.' :: '3' :: 'f' :: rest, text =>
      (read ".3f".toList text).bind fun (value, left) =>
        (scan read rest left).map ((".3f".toList, value) :: ·)
  | '%' :: letter :: rest, text =>
      (read [letter] text).bind fun (value, left) =>
        (scan read rest left).map (([letter], value) :: ·)
  | char :: rest, first :: text => if char = first then scan read rest text else none
  | [], [] => some []
  | _ :: _, [] => none
  | [], _ :: _ => none

/-- The instant of some fields; a sixtieth second is a leap second. -/
def resolve (year month day hour minute second nanos : Nat) : Option Instant :=
  if valid : (1 ≤ month ∧ month ≤ 12) ∧ (1 ≤ day ∧ day ≤ daysInMonth year month) ∧
      hour < 24 ∧ minute < 60 ∧ second ≤ 60 ∧ nanos < 1000000000 then
    some
      { year := year
        month := month
        day := day
        secs := hour * 3600 + minute * 60 + min second 59
        frac := second / 60 * 1000000000 + nanos
        monthRange := valid.1
        dayRange := valid.2.1
        secsRange := by omega
        fracRange := by omega
        leap := by omega }
  else none

/-- What a text has next is no digit. -/
def NoDigit (text : Text) : Prop := ∀ char ∈ text.head?, char.isDigit = false

/-- The library that formats and reads a civil time, as far as its specifiers for these
forms go. -/
structure Formatter where
  print : Instant → Text → Text
  printYear : ∀ instant, instant.InYears → print instant ['Y'] = digits 4 instant.year.toNat
  printMonth : ∀ instant, print instant ['m'] = digits 2 instant.month
  printDay : ∀ instant, print instant ['d'] = digits 2 instant.day
  printHour : ∀ instant, print instant ['H'] = digits 2 instant.hour
  printMinute : ∀ instant, print instant ['M'] = digits 2 instant.minute
  printSecond : ∀ instant,
    print instant ['S'] = digits 2 (instant.second + instant.frac / 1000000000)
  printMillis : ∀ instant, print instant ".3f".toList =
    '.' :: digits 3 (instant.frac % 1000000000 / 1000000)
  read : Text → Text → Option (Nat × Text)
  readYear : ∀ number < 10000, ∀ rest, NoDigit rest →
    read ['Y'] (digits 4 number ++ rest) = some (number, rest)
  readTwo : ∀ letter ∈ ['m', 'd', 'H', 'M', 'S'], ∀ number < 100, ∀ rest, NoDigit rest →
    read [letter] (digits 2 number ++ rest) = some (number, rest)
  readMillis : ∀ number < 1000, ∀ rest, NoDigit rest →
    read ".3f".toList ('.' :: (digits 3 number ++ rest)) = some (number * 1000000, rest)

/-- The instant that a text says in a format. -/
def Formatter.parse (formatter : Formatter) (format text : Text) : Option Instant := do
  let found ← scan formatter.read format text
  resolve (← found.lookup ['Y']) (← found.lookup ['m']) (← found.lookup ['d'])
    (← found.lookup ['H']) (← found.lookup ['M']) (← found.lookup ['S'])
    (← found.lookup ".3f".toList)

def render (formatter : Formatter) (instant : Instant) : Text :=
  expand (formatter.print instant) chronoFormat

end Outside

/-! ### One form -/

section OneForm

/-- The widths of the fields and what stands between them. -/
def shape : List (Nat × Text) :=
  [(4, ['-']), (2, ['-']), (2, [' ']), (2, [':']), (2, [':']), (2, ['.']), (3, [])]

namespace Instant

/-- The fields of a timestamp. -/
def fields (instant : Instant) : List Nat :=
  [instant.year.toNat, instant.month, instant.day, instant.hour, instant.minute,
    instant.second + instant.frac / 1000000000, instant.frac % 1000000000 / 1000000]

variable {instant first second : Instant}

theorem second_le (instant : Instant) :
    instant.second + instant.frac / 1000000000 ≤ 60 := by
  have range := instant.fracRange
  have leap := instant.leap
  unfold second
  omega

/-- The fields are of their widths. -/
theorem fits (inYears : instant.InYears) : Fits shape instant.fields := by
  obtain ⟨notNegative, small⟩ := inYears
  have month := instant.monthRange
  have day := instant.dayRange
  have days : daysInMonth instant.year instant.month ≤ 31 := daysInMonth_le
  have secs := instant.secsRange
  have sixty := instant.second_le
  unfold Fits shape fields hour minute
  repeat' apply List.Forall₂.cons
  all_goals first | exact .nil | (dsimp only; omega)

/-- The time of day is ordered as its hours, minutes, seconds and milliseconds are, where a
leap second counts as the sixtieth. -/
theorem time_lt_iff (first second : Instant) :
    ([first.hour, first.minute, first.second + first.frac / 1000000000,
        first.frac % 1000000000 / 1000000] : List Nat) <
      [second.hour, second.minute, second.second + second.frac / 1000000000,
        second.frac % 1000000000 / 1000000] ↔
    first.secs < second.secs ∨ (first.secs = second.secs ∧
      first.frac / 1000000 < second.frac / 1000000) := by
  have leap := first.leap
  have otherLeap := second.leap
  have range := first.fracRange
  have otherRange := second.fracRange
  simp only [List.cons_lt_cons_iff, List.lt_irrefl, and_false, or_false, hour, minute,
    Instant.second]
  omega

/-- The fields are ordered as the instants in milliseconds are. -/
theorem fields_lt (firstIn : first.InYears) (secondIn : second.InYears) :
    first.fields < second.fields ↔ first.floor < second.floor := by
  obtain ⟨notNegative, -⟩ := firstIn
  obtain ⟨otherNotNegative, -⟩ := secondIn
  rw [fields, fields, List.cons_lt_cons_iff, List.cons_lt_cons_iff, List.cons_lt_cons_iff,
    time_lt_iff]
  change _ ↔ first.floor.key < second.floor.key
  simp only [key, floor, List.cons_lt_cons_iff, List.lt_irrefl, and_false, or_false]
  omega

/-- The sixtieth second is a leap second and no other. -/
theorem second_inj (first second : Instant) :
    first.second + first.frac / 1000000000 = second.second + second.frac / 1000000000 ↔
      first.second = second.second ∧ first.frac / 1000000000 = second.frac / 1000000000 := by
  have leap := first.leap
  have otherLeap := second.leap
  have range := first.fracRange
  have otherRange := second.fracRange
  unfold Instant.second
  omega

theorem clock_inj (first second : Instant) :
    (first.hour = second.hour ∧ first.minute = second.minute ∧
        first.second = second.second) ↔ first.secs = second.secs := by
  unfold hour minute Instant.second
  omega

theorem fields_inj (firstIn : first.InYears) (secondIn : second.InYears) :
    first.fields = second.fields ↔ first.floor = second.floor := by
  obtain ⟨notNegative, -⟩ := firstIn
  obtain ⟨otherNotNegative, -⟩ := secondIn
  have years : first.year.toNat = second.year.toNat ↔ first.year = second.year := by omega
  have fractions : (first.frac / 1000000000 = second.frac / 1000000000 ∧
      first.frac % 1000000000 / 1000000 = second.frac % 1000000000 / 1000000) ↔
        first.frac / 1000000 * 1000000 = second.frac / 1000000 * 1000000 := by omega
  simp only [Instant.ext_iff, fields, floor, List.cons.injEq, and_true, second_inj, years,
    ← fractions, ← clock_inj first second]
  constructor
  · rintro ⟨year, month, day, hour, minute, ⟨second, leap⟩, millis⟩
    exact ⟨year, month, day, ⟨hour, minute, second⟩, leap, millis⟩
  · rintro ⟨year, month, day, ⟨hour, minute, second⟩, leap, millis⟩
    exact ⟨year, month, day, hour, minute, ⟨second, leap⟩, millis⟩

theorem floor_eq_self (isWhole : instant.IsWhole) : instant.floor = instant := by
  have whole := isWhole.whole
  ext <;> simp only [floor]
  omega

theorem millis_lt (isWhole : instant.IsWhole) :
    instant.secs * 1000 + instant.frac / 1000000 < 86400000 := by
  have secs := instant.secsRange
  have noLeap := isWhole.noLeap
  omega

/-- Whole instants are ordered as their milliseconds are. -/
theorem stamp_lt (isWhole : first.IsWhole) (otherIsWhole : second.IsWhole) :
    first.stamp < second.stamp ↔ first < second := by
  have millis := millis_lt isWhole
  have otherMillis := millis_lt otherIsWhole
  obtain ⟨whole, noLeap⟩ := isWhole
  obtain ⟨otherWhole, otherNoLeap⟩ := otherIsWhole
  change _ ↔ first.key < second.key
  simp only [key, List.cons_lt_cons_iff, List.lt_irrefl, and_false, or_false]
  rcases Int.lt_trichotomy first.date.number second.date.number with earlier | same | later
  · have inOrder := Date.number_lt.mp earlier
    simp only [date] at inOrder
    refine iff_of_true ?_ (by omega)
    unfold stamp
    omega
  · have sameDate := Date.number_inj.mp same
    simp only [date, Date.mk.injEq] at sameDate
    obtain ⟨year, month, day⟩ := sameDate
    unfold stamp
    rw [same, year, month, day]
    omega
  · have inOrder := Date.number_lt.mp later
    simp only [date] at inOrder
    refine iff_of_false ?_ (by omega)
    unfold stamp
    omega

theorem stamp_inj (isWhole : first.IsWhole) (otherIsWhole : second.IsWhole) :
    first.stamp = second.stamp ↔ first = second := by
  constructor
  · intro same
    have millis := millis_lt isWhole
    have otherMillis := millis_lt otherIsWhole
    obtain ⟨whole, noLeap⟩ := isWhole
    obtain ⟨otherWhole, otherNoLeap⟩ := otherIsWhole
    unfold stamp at same
    have sameDate : first.date = second.date := Date.number_inj.mp (by omega)
    simp only [date, Date.mk.injEq] at sameDate
    obtain ⟨year, month, day⟩ := sameDate
    exact Instant.ext year month day (by omega) (by omega)
  · rintro rfl
    rfl

end Instant

section Rendering

variable (formatter : Formatter) {instant first second : Instant}

/-- A timestamp is its fields in columns. -/
theorem render_eq (inYears : instant.InYears) :
    render formatter instant = columns shape instant.fields := by
  change formatter.print instant ['Y'] ++ '-' :: (formatter.print instant ['m'] ++ '-' ::
    (formatter.print instant ['d'] ++ ' ' :: (formatter.print instant ['H'] ++ ':' ::
      (formatter.print instant ['M'] ++ ':' :: (formatter.print instant ['S'] ++
        (formatter.print instant ".3f".toList ++ [])))))) = _
  rw [formatter.printYear instant inYears, formatter.printMonth, formatter.printDay,
    formatter.printHour, formatter.printMinute, formatter.printSecond, formatter.printMillis]
  simp only [columns, shape, Instant.fields, List.cons_append, List.nil_append]

theorem length_render (inYears : instant.InYears) : (render formatter instant).length = 23 := by
  rw [render_eq formatter inYears, length_columns (Instant.fits inYears)]
  rfl

/-- The texts are ordered as the instants in milliseconds. -/
theorem render_lt (firstIn : first.InYears) (secondIn : second.InYears) :
    render formatter first < render formatter second ↔ first.floor < second.floor := by
  rw [render_eq formatter firstIn, render_eq formatter secondIn,
    columns_lt (Instant.fits firstIn) (Instant.fits secondIn),
    Instant.fields_lt firstIn secondIn]

theorem render_inj (firstIn : first.InYears) (secondIn : second.InYears) :
    render formatter first = render formatter second ↔ first.floor = second.floor := by
  rw [render_eq formatter firstIn, render_eq formatter secondIn,
    columns_inj (Instant.fits firstIn) (Instant.fits secondIn),
    Instant.fields_inj firstIn secondIn]

theorem scan_letter {read : Text → Text → Option (Nat × Text)} {letter : Char}
    {format text left : Text} {value : Nat} (isLetter : letter ≠ '.')
    (isRead : read [letter] text = some (value, left)) :
    scan read ('%' :: letter :: format) text =
      (scan read format left).map (([letter], value) :: ·) := by
  rw [scan, isRead, Option.bind_some]
  intro rest isDot
  exact absurd isDot isLetter

theorem scan_mark {read : Text → Text → Option (Nat × Text)} {mark : Char} {format text : Text}
    (isMark : mark ≠ '%') :
    scan read (mark :: format) (mark :: text) = scan read format text := by
  rw [scan, if_pos rfl]
  · rintro rest rfl
    exact absurd rfl isMark
  · rintro letter rest rfl
    exact absurd rfl isMark

/-- What is scanned of a timestamp are its fields. -/
theorem scan_render (inYears : instant.InYears) :
    scan formatter.read chronoFormat (render formatter instant) =
      some [(['Y'], instant.year.toNat), (['m'], instant.month), (['d'], instant.day),
        (['H'], instant.hour), (['M'], instant.minute),
        (['S'], instant.second + instant.frac / 1000000000),
        (".3f".toList, instant.frac % 1000000000 / 1000000 * 1000000)] := by
  have bounds := Instant.fits inYears
  simp only [Fits, shape, Instant.fields, List.forall₂_cons] at bounds
  obtain ⟨year, month, day, hour, minute, second, millis, -⟩ := bounds
  have apart (mark : Char) (text : Text) (noDigit : mark.isDigit = false) :
      NoDigit (mark :: text) := by
    rintro char ⟨⟩
    exact noDigit
  rw [render_eq formatter inYears]
  simp only [columns, shape, Instant.fields, List.cons_append, List.nil_append]
  change scan formatter.read ('%' :: 'Y' :: '-' :: '%' :: 'm' :: '-' :: '%' :: 'd' :: ' ' :: '%' ::
    'H' :: ':' :: '%' :: 'M' :: ':' :: '%' :: 'S' :: '%' :: '.' :: '3' :: 'f' :: []) _ = _
  rw [scan_letter (by decide) (formatter.readYear _ year _ (apart _ _ rfl)),
    scan_mark (by decide),
    scan_letter (by decide) (formatter.readTwo 'm' (by decide) _ month _ (apart _ _ rfl)),
    scan_mark (by decide),
    scan_letter (by decide) (formatter.readTwo 'd' (by decide) _ day _ (apart _ _ rfl)),
    scan_mark (by decide),
    scan_letter (by decide) (formatter.readTwo 'H' (by decide) _ hour _ (apart _ _ rfl)),
    scan_mark (by decide),
    scan_letter (by decide) (formatter.readTwo 'M' (by decide) _ minute _ (apart _ _ rfl)),
    scan_mark (by decide),
    scan_letter (by decide) (formatter.readTwo 'S' (by decide) _ second _ (apart _ _ rfl)),
    scan, formatter.readMillis _ millis [] (fun _ member => by cases member)]
  rfl

/-- A timestamp is read as its instant, rounded down to the millisecond. -/
theorem parse_render (inYears : instant.InYears) :
    formatter.parse chronoFormat (render formatter instant) = some instant.floor := by
  have month := instant.monthRange
  have day := instant.dayRange
  have secs := instant.secsRange
  have range := instant.fracRange
  have leap := instant.leap
  have isYear : ((instant.year.toNat : Nat) : Int) = instant.year := Int.toNat_of_nonneg inYears.1
  rw [Formatter.parse, scan_render formatter inYears]
  change resolve instant.year.toNat instant.month instant.day instant.hour instant.minute
    (instant.second + instant.frac / 1000000000)
    (instant.frac % 1000000000 / 1000000 * 1000000) = _
  rw [resolve, dif_pos]
  · congr 1
    ext
    · exact isYear
    · rfl
    · rfl
    · simp only [Instant.floor, Instant.hour, Instant.minute, Instant.second]
      omega
    · simp only [Instant.floor, Instant.second]
      omega
  · refine ⟨month, isYear.symm ▸ day, ?_⟩
    simp only [Instant.hour, Instant.minute, Instant.second]
    omega

end Rendering

section Concrete

/-- A formatter of just these specifiers. -/
def civil : Formatter where
  print instant := fun
    | ['Y'] => digits 4 instant.year.toNat
    | ['m'] => digits 2 instant.month
    | ['d'] => digits 2 instant.day
    | ['H'] => digits 2 instant.hour
    | ['M'] => digits 2 instant.minute
    | ['S'] => digits 2 (instant.second + instant.frac / 1000000000)
    | ['.', '3', 'f'] => '.' :: digits 3 (instant.frac % 1000000000 / 1000000)
    | _ => []
  printYear _ _ := rfl
  printMonth _ := rfl
  printDay _ := rfl
  printHour _ := rfl
  printMinute _ := rfl
  printSecond _ := rfl
  printMillis _ := rfl
  read
    | ['Y'], text => readDigits 4 0 text
    | ['.', '3', 'f'], '.' :: text =>
        (readDigits 3 0 text).map fun (millis, rest) => (millis * 1000000, rest)
    | [_], text => readDigits 2 0 text
    | _, _ => none
  readYear number small rest _ :=
    (readDigits_digits small).trans (by rw [Nat.zero_mul, Nat.zero_add])
  readTwo letter member number small rest _ := by
    have read : readDigits 2 0 (digits 2 number ++ rest) = some (number, rest) :=
      (readDigits_digits small).trans (by rw [Nat.zero_mul, Nat.zero_add])
    simp only [List.mem_cons, List.not_mem_nil, or_false] at member
    rcases member with rfl | rfl | rfl | rfl | rfl <;> exact read
  readMillis number small rest _ := by
    have read : readDigits 3 0 (digits 3 number ++ rest) = some (number, rest) :=
      (readDigits_digits small).trans (by rw [Nat.zero_mul, Nat.zero_add])
    exact congrArg (Option.map fun (millis, rest) => (millis * 1000000, rest)) read

end Concrete

end OneForm

end NookOs.Db.SqliteTime
