/-
Module: NookOs.Lib.Digits
Purpose: Decimal numerals of a fixed width and of any, texts made of columns of a fixed
  width, and that these are ordered as the lists of their numbers are.
Trusted boundary: none
Main exports: digits, readDigits, decimal, Numeral, readNumeral, columns, columns_lt, columns_inj
-/
import Mathlib.Algebra.GroupWithZero.Nat
import Mathlib.Order.Basic
import Mathlib.Data.Nat.Init
import Mathlib.Tactic.Common

namespace NookOs.Lib.Digits

section Numerals

/-- The last digits of a number, as many as the width says. -/
def digits : Nat → Nat → List Char
  | 0, _ => []
  | width + 1, number => digits width (number / 10) ++ [Nat.digitChar (number % 10)]

/-- A number of so many digits, read on from those before it. -/
def readDigits : Nat → Nat → List Char → Option (Nat × List Char)
  | 0, value, text => some (value, text)
  | _ + 1, _, [] => none
  | width + 1, value, char :: text =>
      if char.isDigit then readDigits width (value * 10 + (char.toNat - 48)) text else none

variable {width number other : Nat} {first second third fourth : List Char}

@[simp] theorem length_digits : (digits width number).length = width := by
  induction width generalizing number with
  | zero => rfl
  | succ width ih =>
      rw [digits, List.length_append, ih, List.length_singleton]

theorem digitChar_lt : ∀ number < 10, ∀ other < 10,
    (Nat.digitChar number < Nat.digitChar other ↔ number < other) := by decide

theorem digitChar_inj : ∀ number < 10, ∀ other < 10,
    (Nat.digitChar number = Nat.digitChar other ↔ number = other) := by decide

theorem digitChar_isDigit : ∀ number < 10, (Nat.digitChar number).isDigit = true ∧
    (Nat.digitChar number).toNat - 48 = number := by decide

/-- Texts of one length are compared before what follows them. -/
theorem append_lt_append_iff (sameLength : first.length = third.length) :
    first ++ second < third ++ fourth ↔ first < third ∨ (first = third ∧ second < fourth) := by
  induction first generalizing third with
  | nil =>
      cases third with
      | nil => simp
      | cons char third => cases sameLength
  | cons char first ih =>
      cases third with
      | nil => cases sameLength
      | cons other third =>
          have later := ih (Nat.succ.inj sameLength)
          rw [List.cons_append, List.cons_append, List.cons_lt_cons_iff, List.cons_lt_cons_iff,
            later, List.cons.injEq]
          tauto

theorem append_eq_append_iff (sameLength : first.length = third.length) :
    first ++ second = third ++ fourth ↔ first = third ∧ second = fourth :=
  ⟨fun same => List.append_inj same sameLength, fun ⟨same, sameRest⟩ => same ▸ sameRest ▸ rfl⟩

theorem digits_inj (bound : number < 10 ^ width) (otherBound : other < 10 ^ width) :
    digits width number = digits width other ↔ number = other := by
  induction width generalizing number other with
  | zero => exact iff_of_true rfl (by omega)
  | succ width ih =>
      rw [Nat.pow_succ] at bound otherBound
      rw [digits, digits, append_eq_append_iff (by simp), List.cons.injEq,
        ih (by omega) (by omega),
        digitChar_inj _ (Nat.mod_lt _ (by decide)) _ (Nat.mod_lt _ (by decide))]
      simp only [and_true]
      omega

/-- Numerals are ordered as their numbers. -/
theorem digits_lt (bound : number < 10 ^ width) (otherBound : other < 10 ^ width) :
    digits width number < digits width other ↔ number < other := by
  induction width generalizing number other with
  | zero =>
      rw [Nat.pow_zero] at bound otherBound
      refine iff_of_false (by simp [digits]) (by omega)
  | succ width ih =>
      rw [Nat.pow_succ] at bound otherBound
      rw [digits, digits, append_lt_append_iff (by simp),
        ih (by omega) (by omega), digits_inj (by omega) (by omega),
        List.cons_lt_cons_iff,
        digitChar_lt _ (Nat.mod_lt _ (by decide)) _ (Nat.mod_lt _ (by decide))]
      simp only [List.not_lt_nil, and_false, or_false]
      omega

theorem readDigits_append {value more : Nat} :
    readDigits (width + more) value first =
      (readDigits width value first).bind fun (read, rest) => readDigits more read rest := by
  induction width generalizing value first with
  | zero => simp [readDigits]
  | succ width ih =>
      cases first with
      | nil => simp [Nat.succ_add, readDigits]
      | cons char text =>
          rw [Nat.succ_add, readDigits, readDigits]
          split
          · exact ih
          · rfl

/-- A numeral is read as its number. -/
theorem readDigits_digits {value : Nat} (bound : number < 10 ^ width) :
    readDigits width value (digits width number ++ second) =
      some (value * 10 ^ width + number, second) := by
  induction width generalizing number second with
  | zero =>
      rw [Nat.pow_zero] at bound
      simp [digits, readDigits, Nat.lt_one_iff.mp bound]
  | succ width ih =>
      rw [Nat.pow_succ] at bound
      obtain ⟨isDigit, itsValue⟩ := digitChar_isDigit (number % 10) (Nat.mod_lt _ (by decide))
      rw [digits, List.append_assoc, readDigits_append, ih (by omega)]
      simp only [Option.bind_some, List.cons_append, List.nil_append, readDigits, isDigit,
        if_true, itsValue, Nat.pow_succ]
      congr 2
      have parts := Nat.div_add_mod number 10
      rw [Nat.add_mul, Nat.mul_assoc]
      omega

end Numerals

/-! ### Numbers of any length -/

section Decimals

/-- A number in decimal, with a sign where it is negative. -/
def decimal : Int → List Char
  | .ofNat number => Nat.toDigits 10 number
  | .negSucc number => '-' :: Nat.toDigits 10 (number + 1)

/-- The texts that are a number: its decimal, or its digits behind a sign. -/
inductive Numeral : List Char → Int → Prop
  | plain (number : Int) : Numeral (decimal number) number
  | plus (number : Nat) : Numeral ('+' :: Nat.toDigits 10 number) number
  | minus (number : Nat) : Numeral ('-' :: Nat.toDigits 10 number) (-number)

/-- Read a number of digits alone. -/
def readUnsigned (text : List Char) : Option Int :=
  if text ≠ [] ∧ text.all Char.isDigit then some (Nat.ofDigitChars 10 text 0) else none

/-- Read a decimal number, which may be signed. -/
def readNumeral : List Char → Option Int
  | '-' :: text => (readUnsigned text).map Neg.neg
  | '+' :: text => readUnsigned text
  | text => readUnsigned text

variable {text : List Char} {number : Int}

theorem toDigits_all (number : Nat) : (Nat.toDigits 10 number).all Char.isDigit = true :=
  List.all_eq_true.mpr fun _ => Nat.isDigit_of_mem_toDigits (by decide) (by decide)

theorem readUnsigned_toDigits (number : Nat) :
    readUnsigned (Nat.toDigits 10 number) = some (number : Int) := by
  rw [readUnsigned, if_pos ⟨Nat.toDigits_ne_nil, toDigits_all number⟩,
    Nat.ofDigitChars_ten_toDigits]

/-- What begins with a digit has no sign. -/
theorem readNumeral_toDigits (number : Nat) :
    readNumeral (Nat.toDigits 10 number) = some (number : Int) := by
  have digits := toDigits_all number
  unfold readNumeral
  split
  case h_1 rest isText =>
    rw [isText, List.all_cons] at digits
    exact absurd digits (by simp)
  case h_2 rest isText =>
    rw [isText, List.all_cons] at digits
    exact absurd digits (by simp)
  case h_3 => exact readUnsigned_toDigits number

/-- A numeral is read as its number. -/
theorem readNumeral_numeral (numeral : Numeral text number) :
    readNumeral text = some number := by
  cases numeral with
  | plain number =>
      cases number with
      | ofNat number => exact readNumeral_toDigits number
      | negSucc number => rw [decimal, readNumeral, readUnsigned_toDigits]; rfl
  | plus number => exact readUnsigned_toDigits number
  | minus number => rw [readNumeral, readUnsigned_toDigits]; rfl

/-- There is no blank in a numeral. -/
theorem space_notMem_numeral (numeral : Numeral text number) : ' ' ∉ text := by
  have digits (number : Nat) : ' ' ∉ Nat.toDigits 10 number := fun member =>
    absurd (List.all_eq_true.mp (toDigits_all number) ' ' member) (by decide)
  cases numeral with
  | plain number =>
      cases number with
      | ofNat number => exact digits number
      | negSucc number => simp [decimal, digits]
  | plus | minus => simp [digits]

end Decimals

/-! ### Columns -/

section Columns

/-- Numerals of given widths, each with a mark behind it. -/
def columns : List (Nat × List Char) → List Nat → List Char
  | (width, mark) :: shape, number :: numbers =>
      digits width number ++ (mark ++ columns shape numbers)
  | _, _ => []

/-- The numbers fit the widths, one each. -/
def Fits (shape : List (Nat × List Char)) (numbers : List Nat) : Prop :=
  List.Forall₂ (fun column number => number < 10 ^ column.1) shape numbers

variable {shape : List (Nat × List Char)} {numbers others : List Nat}

theorem length_columns (fits : Fits shape numbers) :
    (columns shape numbers).length =
      (shape.map fun (width, mark) => width + mark.length).sum := by
  induction fits with
  | nil => rfl
  | cons _ _ ih =>
      rw [columns, List.length_append, length_digits, List.length_append, ih,
        List.map_cons, List.sum_cons, Nat.add_assoc]

theorem columns_inj (fits : Fits shape numbers) (othersFit : Fits shape others) :
    columns shape numbers = columns shape others ↔ numbers = others := by
  induction fits generalizing others with
  | nil =>
      cases othersFit
      exact iff_of_true rfl rfl
  | cons bound _ ih =>
      cases othersFit with
      | cons otherBound othersFit =>
          rw [columns, columns, append_eq_append_iff (by simp), digits_inj bound otherBound,
            List.append_right_inj, ih othersFit, List.cons.injEq]

/-- Columns of one shape are ordered as their numbers. -/
theorem columns_lt (fits : Fits shape numbers) (othersFit : Fits shape others) :
    columns shape numbers < columns shape others ↔ numbers < others := by
  induction fits generalizing others with
  | nil =>
      cases othersFit
      exact iff_of_false (List.lt_irrefl _) (List.lt_irrefl _)
  | cons bound _ ih =>
      cases othersFit with
      | cons otherBound othersFit =>
          rw [columns, columns, append_lt_append_iff (by simp), digits_lt bound otherBound,
            digits_inj bound otherBound, append_lt_append_iff rfl, List.cons_lt_cons_iff,
            ih othersFit]
          simp only [List.lt_irrefl, false_or, true_and]

end Columns

end NookOs.Lib.Digits
