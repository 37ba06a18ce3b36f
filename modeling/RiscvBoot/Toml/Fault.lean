import RiscvBoot.Text.Lines

/-!
# Where a text stops being TOML

A fault is a place in a text and what is wrong there. The place is kept as the text that follows
it, so a reader needs no position of its own, and `Fault.report` finds the line when the fault is
shown. Main statement: a report shows the line of the text that it names
(`shownLine_mem_pieces`).
-/

set_option autoImplicit false

namespace RiscvBoot.Toml

/-- What is wrong at the place that `rest` follows. -/
structure Fault where
  rest : List Char
  message : String
  deriving DecidableEq, Repr

namespace Fault

/-- The text before a place; the end of a text counts as its last character. -/
def before (cs rest : List Char) : List Char :=
  cs.take (min (cs.length - rest.length) (cs.length - 1))

def lineIndex (cs rest : List Char) : Nat := (before cs rest).count '\n'

def shownLine (cs rest : List Char) : List Char :=
  (Text.pieces '\n' cs)[lineIndex cs rest]?.getD []

/-- The number of characters that stand before a place on its line. -/
def column (cs rest : List Char) : Nat :=
  ((before cs rest).reverse.takeWhile (· ≠ '\n')).length +
    (cs.length - rest.length - (before cs rest).length)

/-- The fault with the line it is on and a mark below the place. -/
def report (text : String) (f : Fault) : String :=
  let cs := text.toList
  let line := toString (lineIndex cs f.rest + 1)
  let column := column cs f.rest
  let margin := String.ofList (List.replicate (line.length + 1) ' ')
  let mark := String.ofList (List.replicate (column + 1) ' ')
  s!"TOML parse error at line {line}, column {column + 1}\n" ++
  s!"{margin}|\n" ++
  s!"{line} | {String.ofList (shownLine cs f.rest)}\n" ++
  s!"{margin}|{mark}^\n" ++
  s!"{f.message}\n"

theorem length_pieces (sep : Char) (cs : List Char) :
    (Text.pieces sep cs).length = cs.count sep + 1 := by
  induction cs with
  | nil => rfl
  | cons c cs ih =>
    by_cases h : c = sep
    · simp [Text.pieces, h, ih]
    · simp only [Text.pieces, if_neg h, List.count_cons_of_ne h]
      cases hp : Text.pieces sep cs with
      | nil => exact absurd hp (Text.pieces_ne_nil sep cs)
      | cons p ps => simpa [hp] using ih

theorem shownLine_mem_pieces (cs rest : List Char) :
    shownLine cs rest ∈ Text.pieces '\n' cs := by
  have h : lineIndex cs rest < (Text.pieces '\n' cs).length := by
    rw [length_pieces]
    exact Nat.lt_succ_of_le ((List.take_sublist _ _).count_le _)
  simp [shownLine, List.getElem?_eq_getElem h]

end Fault

/-- The text after a character that has to stand here. -/
def expect (c : Char) (cs : List Char) (message : String) : Except Fault (List Char) :=
  match cs with
  | d :: rest => if c = d then .ok rest else .error ⟨cs, message⟩
  | [] => .error ⟨[], message⟩

end RiscvBoot.Toml
