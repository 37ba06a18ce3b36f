/-!
# Characters written as 16-bit units

An escape names a 16-bit unit, and a character beyond the first plane takes a high and a low
unit in a row. `characters?` puts the units together and refuses half a pair.
-/

set_option autoImplicit false

namespace RiscvBoot.Text

/-- A character as it stands, or one 16-bit unit given by its number. -/
inductive Unit16 where
  | plain (c : Char)
  | unit (n : Nat)
  deriving DecidableEq, Repr

def isHighSurrogate (n : Nat) : Bool := 0xD800 ≤ n && n < 0xDC00

def isLowSurrogate (n : Nat) : Bool := 0xDC00 ≤ n && n < 0xE000

/-- The character that a high and a low unit stand for. -/
def ofSurrogates (high low : Nat) : Char :=
  Char.ofNat (0x10000 + (high - 0xD800) * 0x400 + (low - 0xDC00))

/-- The text that the units spell; half of a surrogate pair spells none. -/
def characters? : List Unit16 → Option (List Char)
  | [] => some []
  | .plain c :: rest => (characters? rest).map (c :: ·)
  | .unit n :: rest =>
    if isHighSurrogate n then
      match rest with
      | .unit k :: rest' =>
        if isLowSurrogate k then (characters? rest').map (ofSurrogates n k :: ·) else none
      | _ => none
    else if isLowSurrogate n then none
    else (characters? rest).map (Char.ofNat n :: ·)

end RiscvBoot.Text
