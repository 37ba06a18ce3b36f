import RiscvBoot.Tree
import RiscvBoot.Text.Digits
import RiscvBoot.Text.Surrogates

/-!
# Reading JSON

`Json.read?` reads one JSON value with blanks around it and nothing else. Strings are checked
for their escapes only; whether the units they spell are a Unicode text is kept in the tree as
`Tree.illFormed`, because a reader of settings may skip a value that it does not want.
-/

set_option autoImplicit false

namespace RiscvBoot.Json

def isBlank (c : Char) : Bool := c = ' ' || c = '\n' || c = '\r' || c = '\t'

def skipBlanks (cs : List Char) : List Char := cs.dropWhile isBlank

/-- The character that a one-letter escape stands for. -/
def simpleEscape? : Char → Option Char
  | '"' => some '"'
  | '\\' => some '\\'
  | '/' => some '/'
  | 'b' => some '\x08'
  | 'f' => some '\x0c'
  | 'n' => some '\n'
  | 'r' => some '\r'
  | 't' => some '\t'
  | _ => none

/-- The units of a string after its opening quote, and the text after its closing quote. -/
def readUnits : List Char → Option (List Text.Unit16 × List Char)
  | [] => none
  | '"' :: rest => some ([], rest)
  | '\\' :: 'u' :: a :: b :: c :: d :: rest => do
    let n ← Text.hexNumber? [a, b, c, d]
    let (us, after) ← readUnits rest
    return (.unit n :: us, after)
  | '\\' :: c :: rest => do
    let e ← simpleEscape? c
    let (us, after) ← readUnits rest
    return (.plain e :: us, after)
  | c :: rest =>
    if c.toNat < 0x20 then none
    else do
      let (us, after) ← readUnits rest
      return (.plain c :: us, after)

/-- A string after its opening quote; `none` inside stands for half of a surrogate pair. -/
def readString (cs : List Char) : Option (Option String × List Char) := do
  let (us, after) ← readUnits cs
  return ((Text.characters? us).map String.ofList, after)

/-- A nonempty row of digits and the text after it. -/
def readDigits (cs : List Char) : Option (List Char × List Char) :=
  match cs.takeWhile Char.isDigit with
  | [] => none
  | ds => some (ds, cs.dropWhile Char.isDigit)

/-- The digits before the point: a zero alone, or a row that starts with another digit. -/
def readWhole (cs : List Char) : Option (List Char × List Char) := do
  let (ds, after) ← readDigits cs
  guard (ds = ['0'] ∨ ds.head? ≠ some '0')
  return (ds, after)

/-- An optional fraction, kept as it is written. -/
def readFraction (cs : List Char) : Option (List Char × List Char) :=
  match cs with
  | '.' :: rest => do
    let (ds, after) ← readDigits rest
    return ('.' :: ds, after)
  | _ => some ([], cs)

/-- An optional exponent, kept as it is written. -/
def readExponent (cs : List Char) : Option (List Char × List Char) :=
  match cs with
  | c :: rest =>
    if c = 'e' ∨ c = 'E' then
      let (sign, rest') := match rest with
        | '+' :: r => (['+'], r)
        | '-' :: r => (['-'], r)
        | r => ([], r)
      do
        let (ds, after) ← readDigits rest'
        return (c :: sign ++ ds, after)
    else some ([], cs)
  | [] => some ([], [])

/-- A number. A minus zero is not an integer. -/
def readNumber (cs : List Char) : Option (Tree × List Char) :=
  let (negative, unsigned) := match cs with
    | '-' :: rest => (true, rest)
    | _ => (false, cs)
  do
    let (whole, afterWhole) ← readWhole unsigned
    let (fraction, afterFraction) ← readFraction afterWhole
    let (exponent, after) ← readExponent afterFraction
    let n := Text.decimalValue whole
    if fraction = [] ∧ exponent = [] ∧ ¬(negative ∧ n = 0) then
      return (.integer (if negative then -(n : Int) else n), after)
    else
      let sign := if negative then ['-'] else []
      return (.real (String.ofList (sign ++ whole ++ fraction ++ exponent)), after)

/-- The text after a word that has to stand here. -/
def expect (word cs : List Char) : Option (List Char) :=
  if word.isPrefixOf cs then some (cs.drop word.length) else none

/-- The record with these entries, unless one of its names is ill-formed. -/
def recordOf (entries : List (Option String × Tree)) : Tree :=
  match entries.mapM fun e => e.1.map (·, e.2) with
  | some es => .record es
  | none => .illFormed

mutual

/-- A value at the start of the text; the fuel bounds how many values and items are read. -/
def readValue : Nat → List Char → Option (Tree × List Char)
  | 0, _ => none
  | fuel + 1, cs =>
    match cs with
    | '"' :: rest => do
      let (s, after) ← readString rest
      return (s.elim .illFormed .text, after)
    | '[' :: rest =>
      match skipBlanks rest with
      | ']' :: after => some (.list [], after)
      | inner => do
        let (items, after) ← readItems fuel inner
        return (.list items, after)
    | '\x7b' :: rest =>
      match skipBlanks rest with
      | '\x7d' :: after => some (.record [], after)
      | inner => do
        let (entries, after) ← readEntries fuel inner
        return (recordOf entries, after)
    | 'n' :: rest => do return (.null, ← expect ['u', 'l', 'l'] rest)
    | 't' :: rest => do return (.boolean true, ← expect ['r', 'u', 'e'] rest)
    | 'f' :: rest => do return (.boolean false, ← expect ['a', 'l', 's', 'e'] rest)
    | _ => readNumber cs

/-- The items of a list that has at least one, up to and with the closing bracket. -/
def readItems : Nat → List Char → Option (List Tree × List Char)
  | 0, _ => none
  | fuel + 1, cs => do
    let (item, rest) ← readValue fuel cs
    match skipBlanks rest with
    | ',' :: rest' =>
      let (items, after) ← readItems fuel (skipBlanks rest')
      return (item :: items, after)
    | ']' :: after => return ([item], after)
    | _ => none

/-- The entries of a record that has at least one, up to and with the closing brace. -/
def readEntries : Nat → List Char → Option (List (Option String × Tree) × List Char)
  | 0, _ => none
  | fuel + 1, cs =>
    match cs with
    | '"' :: rest => do
      let (name, rest) ← readString rest
      match skipBlanks rest with
      | ':' :: rest =>
        let (value, rest) ← readValue fuel (skipBlanks rest)
        match skipBlanks rest with
        | ',' :: rest =>
          let (entries, after) ← readEntries fuel (skipBlanks rest)
          return ((name, value) :: entries, after)
        | '\x7d' :: after => return ([(name, value)], after)
        | _ => none
      | _ => none
    | _ => none

end

/-- One value with blanks around it. Every value and item takes at least one character, so twice
the length of the text is enough fuel. -/
def read? (text : String) : Option Tree := do
  let cs := text.toList
  let (value, rest) ← readValue (2 * cs.length + 2) (skipBlanks cs)
  guard (skipBlanks rest = [])
  return value

end RiscvBoot.Json
