/-
Module: NookOs.Lib.Utf8
Purpose: Bytes read as UTF-8, strictly and with replacement characters, and the bytes of an
  ASCII text.
Trusted boundary: none
Main exports: decode, fromUtf8, fromUtf8Lossy, ascii, fromUtf8_ascii, fromUtf8Lossy_ascii
-/
import Mathlib.Tactic.Common
import Mathlib.Data.List.Basic

namespace NookOs.Lib.Utf8

/-- A character that is not yet complete: the bytes that are owed, the range that the next one
must be in, and the value so far. -/
structure Pending where
  owed : Nat := 0
  low : UInt8 := 0x80
  high : UInt8 := 0xBF
  value : Nat := 0

/-- A byte between two characters. -/
def start (byte : UInt8) : List (Option Char) × Pending :=
  let lead := byte.toNat
  if lead < 0x80 then ([some (Char.ofNat lead)], {})
  else if 0xC2 ≤ lead ∧ lead ≤ 0xDF then ([], { owed := 1, value := lead - 0xC0 })
  else if 0xE0 ≤ lead ∧ lead ≤ 0xEF then
    ([], { owed := 2, value := lead - 0xE0
           low := if lead = 0xE0 then 0xA0 else 0x80
           high := if lead = 0xED then 0x9F else 0xBF })
  else if 0xF0 ≤ lead ∧ lead ≤ 0xF4 then
    ([], { owed := 3, value := lead - 0xF0
           low := if lead = 0xF0 then 0x90 else 0x80
           high := if lead = 0xF4 then 0x8F else 0xBF })
  else ([none], {})

/-- The characters of a text, with `none` for each longest stretch that begins one and is
none. -/
def decode : Pending → List UInt8 → List (Option Char)
  | pending, [] => if pending.owed = 0 then [] else [none]
  | pending, byte :: bytes =>
      if pending.owed = 0 then (start byte).1 ++ decode (start byte).2 bytes
      else if pending.low ≤ byte ∧ byte ≤ pending.high then
        let value := pending.value * 64 + (byte.toNat - 0x80)
        if pending.owed = 1 then some (Char.ofNat value) :: decode {} bytes
        else decode { owed := pending.owed - 1, value } bytes
      else none :: ((start byte).1 ++ decode (start byte).2 bytes)

def fromUtf8 (bytes : List UInt8) : Option (List Char) := (decode {} bytes).mapM id

def fromUtf8Lossy (bytes : List UInt8) : List Char :=
  (decode {} bytes).map (·.getD (Char.ofNat 0xFFFD))

/-- The bytes of a text of ASCII characters. -/
def ascii (text : List Char) : List UInt8 := text.map fun char => char.toNat.toUInt8

def IsAscii (text : List Char) : Prop := ∀ char ∈ text, char.toNat < 128

section Ascii

variable {text : List Char} {char : Char}

theorem toNat_toUInt8 (isAscii : char.toNat < 128) : char.toNat.toUInt8.toNat = char.toNat := by
  rw [Nat.toUInt8, UInt8.toNat_ofNat', Nat.mod_eq_of_lt (by omega)]

theorem decode_ascii (isAscii : IsAscii text) : decode {} (ascii text) = text.map some := by
  induction text with
  | nil => rfl
  | cons char text ih =>
      have first : char.toNat < 128 := isAscii char List.mem_cons_self
      have begins : start char.toNat.toUInt8 = ([some char], {}) := by
        rw [start, toNat_toUInt8 first, if_pos first, Char.ofNat_toNat]
      have rest := ih fun other member => isAscii other (.tail char member)
      rw [ascii, List.map_cons, decode, if_pos rfl, begins]
      exact congrArg (some char :: ·) rest

theorem fromUtf8_ascii (isAscii : IsAscii text) : fromUtf8 (ascii text) = some text := by
  rw [fromUtf8, decode_ascii isAscii]
  induction text with
  | nil => rfl
  | cons char text ih =>
      have rest := ih fun other member => isAscii other (.tail char member)
      rw [List.map_cons, List.mapM_cons, rest]
      rfl

theorem fromUtf8Lossy_ascii (isAscii : IsAscii text) : fromUtf8Lossy (ascii text) = text := by
  rw [fromUtf8Lossy, decode_ascii isAscii, List.map_map]
  exact List.map_id text

end Ascii

end NookOs.Lib.Utf8
