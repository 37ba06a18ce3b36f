/-!
# Digits

The values of rows of digits, and the digits of numbers, in bases up to sixteen.
-/

set_option autoImplicit false

namespace RiscvBoot.Text

/-- The value of a hexadecimal digit of either case. -/
def hexValue? (c : Char) : Option Nat :=
  if c.isDigit then some (c.toNat - '0'.toNat)
  else if 'a' ≤ c ∧ c ≤ 'f' then some (c.toNat - 'a'.toNat + 10)
  else if 'A' ≤ c ∧ c ≤ 'F' then some (c.toNat - 'A'.toNat + 10)
  else none

def hexNumber? (digits : List Char) : Option Nat :=
  digits.foldlM (fun n c => (hexValue? c).map (16 * n + ·)) 0

/-- The digits of a number in base sixteen, filled with zeros to `width`. -/
def hexDigits (upper : Bool) (width n : Nat) : List Char :=
  let ds := Nat.toDigits 16 n
  List.replicate (width - ds.length) '0' ++ if upper then ds.map Char.toUpper else ds

/-- The value of a row of digits in some base, most significant first. -/
def valueInBase (base : Nat) (digits : List Char) : Nat :=
  digits.foldl (fun n c => base * n + (hexValue? c).getD 0) 0

def decimalValue (digits : List Char) : Nat := valueInBase 10 digits

end RiscvBoot.Text
