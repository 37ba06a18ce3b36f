/-!
# The pattern of an emulator's command line

Stale emulators are looked for by an extended regular expression over whole command lines. It
matches a line whose first word is the emulator, bare or with a path before it, and leaves alone
a line that only mentions the emulator further on.
-/

set_option autoImplicit false

namespace RiscvBoot.Sweeper

/-- The characters that mean something in an extended regular expression. -/
def specialChars : List Char := "\\.^$|?*+()[]\x7b\x7d".toList

/-- Text in which every special character stands for itself. -/
def escape (name : List Char) : List Char :=
  name.flatMap fun c => if c ∈ specialChars then ['\\', c] else [c]

/-- The pattern of the command lines that run `name`. -/
def patternFor (name : String) : String :=
  String.ofList ("^([^ ]*/)?".toList ++ escape name.toList ++ "( |$)".toList)

end RiscvBoot.Sweeper
