/-!
# Plain data

The tree that both text formats are read into and written from. It keeps what settings can hold
and forgets how it was spelled: a number that is not an integer and a date-time keep only their
literals, and a text that cannot be a Unicode string is marked and not kept.
-/

set_option autoImplicit false

namespace RiscvBoot

inductive Tree where
  | null
  | boolean (value : Bool)
  | integer (value : Int)
  /-- A number that is not an integer, as it was written. -/
  | real (literal : String)
  | text (value : String)
  /-- A date, a time of day or both, as it was written. -/
  | dateTime (literal : String)
  | list (items : List Tree)
  /-- Named entries in the order of the source; a name may occur twice. -/
  | record (entries : List (String × Tree))
  /-- A text with half of a surrogate pair, or a record with such a name. -/
  | illFormed
  deriving Repr, Inhabited

namespace Tree

def get? (name : String) : Tree → Option Tree
  | .record entries => entries.lookup name
  | _ => none

def text? : Tree → Option String
  | .text s => some s
  | _ => none

/-- A text, or null when there is none. -/
def ofText? : Option String → Tree
  | some s => .text s
  | none => .null

def ofTexts (items : List String) : Tree := .list (items.map .text)

end Tree

end RiscvBoot
