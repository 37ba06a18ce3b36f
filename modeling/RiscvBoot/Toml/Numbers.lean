import RiscvBoot.Tree
import RiscvBoot.Text.Digits
import RiscvBoot.Toml.Fault

/-!
# TOML numbers

Integers have 64 bits and a sign and may be written in four bases. A floating-point number is
only checked, for its form and for being within the range of a double; the negative side has no
bound. A reader finds nothing where its form does not begin. Once the form has begun, whatever
breaks it off is a fault: an underscore, a point or the mark of an exponent needs a digit after
it, and a number has to be in range.
-/

set_option autoImplicit false

namespace RiscvBoot.Toml

/-- What a reader finds: a value and the text after it, or nothing of its form. -/
abbrev Found (α : Type) := Option (α × List Char)

/-- The part of a text that was read, given what is left of it. -/
def consumed (cs after : List Char) : String := String.ofList (cs.take (cs.length - after.length))

/-- More digits of a number of some kind. An underscore has to be followed by one. -/
def moreDigits (kind : String) (isDigit : Char → Bool) :
    List Char → Except Fault (List Char × List Char)
  | [] => .ok ([], [])
  | ['_'] => .error ⟨[], s!"invalid {kind}\nexpected digit"⟩
  | '_' :: c :: rest =>
    if isDigit c then (moreDigits kind isDigit rest).map fun r => (c :: r.1, r.2)
    else .error ⟨c :: rest, s!"invalid {kind}\nexpected digit"⟩
  | c :: rest =>
    if isDigit c then (moreDigits kind isDigit rest).map fun r => (c :: r.1, r.2)
    else .ok ([], c :: rest)

/-- Digits that have to stand here, with single underscores between them. -/
def readDigits (kind : String) (isDigit : Char → Bool) (cs : List Char) :
    Except Fault (List Char × List Char) :=
  let fault : Fault := ⟨cs, s!"invalid {kind}\nexpected digit"⟩
  match cs with
  | c :: rest =>
    if isDigit c then (moreDigits kind isDigit rest).map fun r => (c :: r.1, r.2)
    else .error fault
  | [] => .error fault

def readSign : List Char → Bool × List Char
  | '+' :: rest => (false, rest)
  | '-' :: rest => (true, rest)
  | cs => (false, cs)

/-- The digits of a whole number: a leading zero stands alone. -/
def readWhole? (cs : List Char) : Except Fault (Found (List Char)) :=
  match cs with
  | '0' :: rest => .ok (some (['0'], rest))
  | c :: _ =>
    if c.isDigit then (readDigits "integer" Char.isDigit cs).map some
    else .ok none
  | [] => .ok none

/-- The integers that fit into 64 bits with a sign. -/
def fitsInt64 (n : Int) : Bool := Int64.minValue.toInt ≤ n && n ≤ Int64.maxValue.toInt

/-- An integer that has been read up to `after`. -/
def integerInRange (n : Int) (after : List Char) : Except Fault (Found Tree) :=
  if fitsInt64 n then .ok (some (.integer n, after))
  else
    let excess := if n < 0 then "small" else "large"
    .error ⟨after, s!"number too {excess} to fit in target type"⟩

/-- A number in base sixteen, eight or two, after its `0x`, `0o` or `0b`. -/
def readInBase (base : Nat) (kind : String) (cs : List Char) : Except Fault (Found Tree) := do
  let (ds, after) ← readDigits kind (fun c => (Text.hexValue? c).any (· < base)) cs
  integerInRange (Text.valueInBase base ds) after

/-- An integer. Only a number in base ten may have a sign. -/
def readInteger (cs : List Char) : Except Fault (Found Tree) :=
  match cs with
  | '0' :: 'x' :: rest => readInBase 16 "hexadecimal integer" rest
  | '0' :: 'o' :: rest => readInBase 8 "octal integer" rest
  | '0' :: 'b' :: rest => readInBase 2 "binary integer" rest
  | _ => do
    let (negative, unsigned) := readSign cs
    match ← readWhole? unsigned with
    | none => return none
    | some (ds, after) =>
      let n : Int := Text.valueInBase 10 ds
      integerInRange (if negative then -n else n) after

/-- The least number that is rounded to infinity as a double, 2¹⁰²⁴ - 2⁹⁷⁰. -/
def doubleBound : Nat := Nat.pow 2 1024 - Nat.pow 2 970

/-- `m · 10^e` is rounded to infinity as a double. The two outer tests only keep the powers
small. -/
def overflowsDouble (m : Nat) (e : Int) : Bool :=
  let size : Int := (Nat.toDigits 10 m).length
  if m = 0 then false
  else if 400 < size + e then true
  else if size + e < 300 then false
  else if 0 ≤ e then doubleBound ≤ m * Nat.pow 10 e.toNat
  else doubleBound * Nat.pow 10 (-e).toNat ≤ m

def floatKind : String := "floating-point number"

/-- The digits of a fraction. A number without one is a float only if it has an exponent. -/
def readFraction? (cs : List Char) : Except Fault (Found (List Char)) :=
  match cs with
  | '.' :: rest => (readDigits floatKind Char.isDigit rest).map some
  | 'e' :: _ | 'E' :: _ => .ok (some ([], cs))
  | _ => .ok none

/-- An exponent with its mark, or zero when there is none. -/
def readExponent (cs : List Char) : Except Fault (Int × List Char) :=
  match cs with
  | 'e' :: rest | 'E' :: rest => do
    let (negative, unsigned) := readSign rest
    let (ds, after) ← readDigits floatKind Char.isDigit unsigned
    let n : Int := Text.valueInBase 10 ds
    return (if negative then -n else n, after)
  | _ => .ok (0, cs)

def readDecimalFloat (cs : List Char) : Except Fault (Found Tree) := do
  let (negative, unsigned) := readSign cs
  match ← readWhole? unsigned with
  | none => return none
  | some (whole, rest) =>
    match ← readFraction? rest with
    | none => return none
    | some (fraction, rest) =>
      let (exponent, after) ← readExponent rest
      let m := Text.valueInBase 10 (whole ++ fraction)
      if ¬negative ∧ overflowsDouble m (exponent - fraction.length) then
        throw ⟨after, s!"invalid {floatKind}"⟩
      return some (.real (consumed cs after), after)

/-- Infinity or not-a-number, with an optional sign. -/
def readSpecialFloat (cs : List Char) : Found Tree :=
  match (readSign cs).2 with
  | 'i' :: 'n' :: 'f' :: after => some (.real (consumed cs after), after)
  | 'n' :: 'a' :: 'n' :: after => some (.real (consumed cs after), after)
  | _ => none

end RiscvBoot.Toml
