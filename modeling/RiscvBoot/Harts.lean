import RiscvBoot.Text.Digits

/-!
# Hart counts

A hart count is a text that is handed to the emulator as it stands. Reading it as a number only
checks it: an optional `+`, then ASCII digits, with a value from 1 to 2³² - 1.
-/

set_option autoImplicit false

namespace RiscvBoot

/-- The number of harts of the emulated machine, as it was written. -/
structure Harts where
  text : String
  deriving DecidableEq, Repr

namespace Harts

/-- Four harts unless something else is asked for. -/
def fallback : Harts := ⟨"4"⟩

instance : Inhabited Harts := ⟨fallback⟩

/-- The text that was given, or the fallback. -/
def orFallback (text : Option String) : Harts := text.elim fallback Harts.mk

/-- The digits of a count: its text without one leading `+`. -/
def digits (h : Harts) : List Char :=
  match h.text.toList with
  | '+' :: rest => rest
  | cs => cs

/-- The count as a number, if the text spells one from 1 to 2³² - 1. -/
def number? (h : Harts) : Option Nat :=
  let n := Text.decimalValue h.digits
  if h.digits ≠ [] ∧ h.digits.all Char.isDigit ∧ 1 ≤ n ∧ n < UInt32.size then some n else none

/-- The text spells a positive 32-bit number. -/
def isNumber (h : Harts) : Bool := h.number?.isSome

end Harts

end RiscvBoot
