import Mathlib.Data.List.Basic
import Mathlib.Data.String.Basic

/-! # Bytes and numbers as texts

Bytes as lowercase hexadecimal, two digits a byte: `decodeHex` reads exactly what `encodeHex` writes.
Numbers below `2 ^ 64` as decimal: `parseU64` reads what `toString` writes, and more. -/

namespace ArkForge.Lib.Numerals

/-! ### Hexadecimal -/

/-- A number below sixteen as a digit. -/
def hexDigit (n : UInt8) : Char :=
  if n < 10 then Char.ofNat (48 + n.toNat) else Char.ofNat (87 + n.toNat)

def byteDigits (byte : UInt8) : List Char :=
  [hexDigit (byte >>> (4 : UInt8)), hexDigit (byte &&& (0x0f : UInt8))]

def encodeHex (bytes : List UInt8) : String := String.ofList (bytes.flatMap byteDigits)

def nibble (c : Char) : Option UInt8 :=
  if 48 ≤ c.toNat ∧ c.toNat ≤ 57 then some (UInt8.ofNat (c.toNat - 48))
  else if 97 ≤ c.toNat ∧ c.toNat ≤ 102 then some (UInt8.ofNat (c.toNat - 87))
  else none

/-- Reads two digits at a time; nothing may be left over. -/
def decodeDigits : List Char → Option (List UInt8)
  | [] => some []
  | [_] => none
  | high :: low :: rest => do
    let high ← nibble high
    let low ← nibble low
    let rest ← decodeDigits rest
    return (high <<< 4 ||| low) :: rest

def decodeHex (text : String) : Option (List UInt8) := decodeDigits text.toList

/-! ### Decimal -/

/-- Leaves out a plus sign. -/
def unsignedDigits : List Char → List Char
  | '+' :: digits => digits
  | digits => digits

/-- A decimal number that fits in 64 bits. -/
def parseU64 (text : String) : Option ℕ :=
  let digits := unsignedDigits text.toList
  if digits ≠ [] ∧ digits.all Char.isDigit ∧ Nat.ofDigitChars 10 digits 0 < 2 ^ 64 then
    some (Nat.ofDigitChars 10 digits 0)
  else none

/-- A number in decimal, with zeros in front of it up to the width. -/
def zeroPadded (width n : ℕ) : String :=
  String.ofList (List.replicate (width - (Nat.toDigits 10 n).length) '0' ++ Nat.toDigits 10 n)

theorem zeroPadded_injective (width : ℕ) : Function.Injective (zeroPadded width) := by
  have hzeros : ∀ k (digits : List Char),
      Nat.ofDigitChars 10 (List.replicate k '0' ++ digits) 0 = Nat.ofDigitChars 10 digits 0 := by
    intro k digits
    induction k with
    | zero => rfl
    | succ k ih => exact ih
  have hvalue : ∀ n, Nat.ofDigitChars 10 (zeroPadded width n).toList 0 = n := fun n => by
    rw [zeroPadded, String.toList_ofList, hzeros]
    exact Nat.ofDigitChars_toDigits (by decide) (by decide)
  intro m n h
  rw [← hvalue m, h, hvalue n]

end ArkForge.Lib.Numerals
