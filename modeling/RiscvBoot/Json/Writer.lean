import RiscvBoot.Tree
import RiscvBoot.Text.Digits

/-!
# Writing JSON

The compact form has no blanks. The pretty form puts every item and entry on a line of its own,
moved right by two spaces for each level, and writes an empty list or record without a line
break. Strings escape the quote, the backslash and the control characters below U+0020, and
nothing else.
-/

set_option autoImplicit false

namespace RiscvBoot.Json

def escape (c : Char) : List Char :=
  if c = '"' then ['\\', '"']
  else if c = '\\' then ['\\', '\\']
  else if c = '\x08' then ['\\', 'b']
  else if c = '\x0c' then ['\\', 'f']
  else if c = '\n' then ['\\', 'n']
  else if c = '\r' then ['\\', 'r']
  else if c = '\t' then ['\\', 't']
  else if c.toNat < 0x20 then '\\' :: 'u' :: Text.hexDigits false 4 c.toNat
  else [c]

def quoted (s : String) : List Char := '"' :: s.toList.flatMap escape ++ ['"']

def separated (sep : List Char) : List (List Char) → List Char
  | [] => []
  | [item] => item
  | item :: items => item ++ sep ++ separated sep items

/-- A scalar. A date-time is written as a string; a mark for ill-formed text has no spelling and is
written as null. -/
def scalar : Tree → List Char
  | .boolean true => "true".toList
  | .boolean false => "false".toList
  | .integer n => (toString n).toList
  | .real literal => literal.toList
  | .text s => quoted s
  | .dateTime literal => quoted literal
  | _ => "null".toList

mutual

def compactChars : Tree → List Char
  | .list items => '[' :: separated [','] (compactItems items) ++ [']']
  | .record entries => '\x7b' :: separated [','] (compactEntries entries) ++ ['\x7d']
  | t => scalar t

def compactItems : List Tree → List (List Char)
  | [] => []
  | t :: ts => compactChars t :: compactItems ts

def compactEntries : List (String × Tree) → List (List Char)
  | [] => []
  | (name, t) :: es => (quoted name ++ ':' :: compactChars t) :: compactEntries es

end

def lineBreak (level : Nat) : List Char := '\n' :: List.replicate (2 * level) ' '

/-- Items on lines of their own between an opening and a closing bracket. -/
def block (level : Nat) (opening closing : Char) (items : List (List Char)) : List Char :=
  if items = [] then [opening, closing]
  else
    opening :: lineBreak (level + 1) ++ separated (',' :: lineBreak (level + 1)) items ++
      lineBreak level ++ [closing]

mutual

/-- The form with one item or entry on a line. -/
def prettyChars (level : Nat) : Tree → List Char
  | .list items => block level '[' ']' (prettyItems (level + 1) items)
  | .record entries => block level '\x7b' '\x7d' (prettyEntries (level + 1) entries)
  | t => scalar t

def prettyItems (level : Nat) : List Tree → List (List Char)
  | [] => []
  | t :: ts => prettyChars level t :: prettyItems level ts

def prettyEntries (level : Nat) : List (String × Tree) → List (List Char)
  | [] => []
  | (name, t) :: es => (quoted name ++ ": ".toList ++ prettyChars level t) :: prettyEntries level es

end

def compact (t : Tree) : String := String.ofList (compactChars t)

def pretty (t : Tree) : String := String.ofList (prettyChars 0 t)

end RiscvBoot.Json
