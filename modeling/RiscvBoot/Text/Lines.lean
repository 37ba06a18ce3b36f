/-!
# Lines and pieces of text

Cutting text at a separator and putting it together again, over lists of characters. Main
statement: joining the pieces of a text gives the text back (`join_pieces`).
-/

set_option autoImplicit false

namespace RiscvBoot.Text

/-- The pieces of a text between the occurrences of `sep`; there is always at least one. -/
def pieces (sep : Char) : List Char → List (List Char)
  | [] => [[]]
  | c :: cs =>
    if c = sep then [] :: pieces sep cs
    else
      match pieces sep cs with
      | [] => [[c]]
      | p :: ps => (c :: p) :: ps

/-- Pieces put together with `sep` between them. -/
def join (sep : Char) : List (List Char) → List Char
  | [] => []
  | [p] => p
  | p :: ps => p ++ sep :: join sep ps

theorem pieces_ne_nil (sep : Char) (cs : List Char) : pieces sep cs ≠ [] := by
  cases cs with
  | nil => simp [pieces]
  | cons c cs =>
    simp only [pieces]
    split
    · simp
    · split <;> simp

theorem join_pieces (sep : Char) (cs : List Char) : join sep (pieces sep cs) = cs := by
  induction cs with
  | nil => rfl
  | cons c cs ih =>
    simp only [pieces]
    split
    · rename_i h
      cases hp : pieces sep cs with
      | nil => exact absurd hp (pieces_ne_nil sep cs)
      | cons p ps => simp [join, ← hp, ih, h]
    · cases hp : pieces sep cs with
      | nil => exact absurd hp (pieces_ne_nil sep cs)
      | cons p ps =>
        rw [hp] at ih
        cases ps with
        | nil => simpa [join] using ih
        | cons q qs => simpa [join] using ih

def unwords (words : List String) : String := " ".intercalate words

/-- An option followed by its value, if there is a value. -/
def option (flag : String) : Option String → List String
  | some value => [flag, value]
  | none => []

/-- An indented line with a label, if there is a value. -/
def labelled (label : String) : Option String → String
  | some value => s!"  {label} {value}\n"
  | none => ""

/-- A chain of messages in one line, outermost first. -/
def chained (messages : List String) : String := ": ".intercalate messages

/-- The first line of a text without its line end (`\n` or `\r\n`), if the text has a line. -/
def firstLine? (text : String) : Option String :=
  match text.toList with
  | [] => none
  | cs =>
    let line := cs.takeWhile (· ≠ '\n')
    let ended := line.length < cs.length
    if ended ∧ line.getLast? = some '\r' then some (String.ofList line.dropLast)
    else some (String.ofList line)

/-- Every line after the first is moved right by four spaces. -/
def hangingIndent (text : String) : String :=
  String.ofList (text.toList.flatMap fun c => if c = '\n' then "\n    ".toList else [c])

def padRight (width : Nat) (text : String) : String :=
  text ++ String.ofList (List.replicate (width - text.length) ' ')

end RiscvBoot.Text
