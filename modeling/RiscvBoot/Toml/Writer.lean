import RiscvBoot.Toml.Numbers
import RiscvBoot.Toml.Strings

/-!
# Writing TOML

Every text gets the plainest string style that can hold it: basic without any escape, literal,
then the long forms of the two, and a basic form with escapes when nothing else is possible. A
record is written as its own keys followed by one section for each entry that is a record
itself; nulls are left out, and a list of two or more items takes a line for each.
-/

set_option autoImplicit false

namespace RiscvBoot.Toml

/-- The length of the longest row of one character; `here` is the length of the row before. -/
def longestRow (x : Char) (here : Nat) : List Char → Nat
  | [] => here
  | c :: cs => if c = x then longestRow x (here + 1) cs else max here (longestRow x 0 cs)

/-- A character that only an escape can write: a control character but tab and line feed. -/
def needsCode (c : Char) : Bool :=
  (c.toNat < 0x20 && c ≠ '\t' && c ≠ '\n') || c = '\x7f'

inductive Style where
  | basic
  | literal
  | longBasic
  | longLiteral
  deriving DecidableEq, Repr

/-- The plainest style that can hold a text. -/
def Style.of (cs : List Char) : Style :=
  let coded := cs.any needsCode
  let backslash := cs.contains '\\'
  let lines := cs.contains '\n'
  let double := longestRow '"' 0 cs
  let single := longestRow '\'' 0 cs
  if ¬coded ∧ ¬backslash ∧ ¬lines ∧ double = 0 then .basic
  else if ¬coded ∧ ¬lines ∧ single = 0 then .literal
  else if ¬coded ∧ ¬backslash ∧ double ≤ 2 then .longBasic
  else if ¬coded ∧ single ≤ 2 then .longLiteral
  else if lines then .longBasic
  else .basic

/-- A character of a basic string that is no quote. A long string keeps its line feeds. -/
def escape (long : Bool) (c : Char) : List Char :=
  if c = '\x08' then ['\\', 'b']
  else if c = '\t' then ['\\', 't']
  else if c = '\n' then (if long then ['\n'] else ['\\', 'n'])
  else if c = '\x0c' then ['\\', 'f']
  else if c = '\r' then ['\\', 'r']
  else if c = '\\' then ['\\', '\\']
  else if needsCode c then '\\' :: 'u' :: Text.hexDigits true 4 c.toNat
  else [c]

/-- The text of a basic string. A quote is escaped when it would make a row longer than a long
string (two) or a one-line string (none) may hold. -/
def escaped (long : Bool) (row : Nat) : List Char → List Char
  | [] => []
  | c :: cs =>
    if c = '"' then
      if long ∧ row < 2 then '"' :: escaped long (row + 1) cs
      else '\\' :: '"' :: escaped long 0 cs
    else escape long c ++ escaped long 0 cs

/-- A text in a given style. A long string with line breaks starts on a line of its own. -/
def styled (style : Style) (cs : List Char) : List Char :=
  let start := if cs.contains '\n' then ['\n'] else []
  let double := ['"', '"', '"']
  let single := ['\'', '\'', '\'']
  match style with
  | .basic => '"' :: escaped false 0 cs ++ ['"']
  | .literal => '\'' :: cs ++ ['\'']
  | .longBasic => double ++ start ++ escaped true 0 cs ++ double
  | .longLiteral => single ++ start ++ cs ++ single

def quoted (s : String) : List Char := styled (.of s.toList) s.toList

/-- A scalar. Integers beyond 64 bits with a sign cannot be written, nor can null. -/
def scalar? : Tree → Option (List Char)
  | .text s => some (quoted s)
  | .dateTime literal => some literal.toList
  | .boolean true => some "true".toList
  | .boolean false => some "false".toList
  | .integer n => if fitsInt64 n then some (toString n).toList else none
  | _ => none

/-- A list: up to one item on the line of its key, more of them on lines of their own. -/
def list (items : List (List Char)) : List Char :=
  match items with
  | [] => ['[', ']']
  | [item] => '[' :: item ++ [']']
  | _ => '[' :: items.flatMap (fun item => "\n    ".toList ++ item ++ [',']) ++ ['\n', ']']

def value? : Tree → Option (List Char)
  | .list items => (items.mapM scalar?).map list
  | t => scalar? t

def isBareKey (cs : List Char) : Bool := cs ≠ [] && cs.all isBareKeyChar

def key (name : String) : List Char :=
  if isBareKey name.toList then name.toList else quoted name

/-- A key on one line: in its bare form where that is possible, else as a basic string. -/
def lineKey (name : String) : List Char :=
  if isBareKey name.toList then name.toList else styled .basic name.toList

/-- The lines of the entries that are neither null nor records. -/
def ownLines : List (String × Tree) → Option (List Char)
  | [] => some []
  | (_, .null) :: es => ownLines es
  | (_, .record _) :: es => ownLines es
  | (name, t) :: es => do
    let v ← value? t
    let rest ← ownLines es
    return key name ++ " = ".toList ++ v ++ '\n' :: rest

/-- One section for each entry that is a record of values. -/
def sectionLines : List (String × Tree) → Option (List Char)
  | [] => some []
  | (name, .record inner) :: es =>
    if inner.any fun e => e.2 matches .record _ then none
    else do
      let own ← ownLines inner
      let rest ← sectionLines es
      return '\n' :: '[' :: key name ++ ']' :: '\n' :: own ++ rest
  | _ :: es => sectionLines es

def write? : Tree → Option String
  | .record entries => do
    return String.ofList ((← ownLines entries) ++ (← sectionLines entries))
  | _ => none

end RiscvBoot.Toml
