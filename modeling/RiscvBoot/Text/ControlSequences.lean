/-!
# Control sequences in text

Some characters are instructions to a terminal: single control characters, and sequences that
start with an escape character (ECMA-48). `Text.withoutControls` keeps what is left for a reader
who has no terminal: the graphic characters and the layout. Main statement: plain text is kept as
it is (`keptFrom_plain`).
-/

set_option autoImplicit false

namespace RiscvBoot.Text

/-- What the text read so far has led into. -/
inductive ControlState where
  | plain
  /-- An escape character. -/
  | escape
  /-- An escape character with intermediate characters. -/
  | escapeIntermediate
  /-- A control sequence, which ends at a final character. -/
  | sequence
  /-- A device control string of which nothing has been read. -/
  | device
  /-- The parameters of a device control string. -/
  | deviceParameters
  /-- The intermediate characters of a device control string. -/
  | deviceIntermediate
  /-- The body of a string. -/
  | string
  /-- An operating system command. -/
  | command
  deriving DecidableEq, Repr

def isBetween (low high : Nat) (c : Char) : Bool := low ≤ c.toNat && c.toNat ≤ high

def isLayout (c : Char) : Bool := c = '\t' || c = '\n' || c = '\x0c' || c = '\r'

/-- A character with a shape of its own, or a blank. -/
def isGraphic (c : Char) : Bool := 0x20 ≤ c.toNat && c.toNat ≠ 0x7F

/-- The one-byte string terminator occurs in the encoded form of a character. -/
def holdsTerminator (c : Char) : Bool := (String.utf8EncodeChar c).contains 0x9C

namespace ControlState

/-- The state after a character. An escape character starts anew from any state, and a cancelling
character returns to plain text from any. -/
def next (s : ControlState) (c : Char) : ControlState :=
  if c = '\x1b' then .escape
  else if c = '\x18' ∨ c = '\x1a' then .plain
  else
    match s with
    | .plain => .plain
    | .escape =>
      if c = '[' then .sequence
      else if c = ']' then .command
      else if c = 'P' then .device
      else if c = 'X' ∨ c = '^' ∨ c = '_' then .string
      else if isBetween 0x20 0x2F c then .escapeIntermediate
      else if isBetween 0x30 0x7E c then .plain
      else .escape
    | .escapeIntermediate => if isBetween 0x30 0x7E c then .plain else .escapeIntermediate
    | .sequence => if isBetween 0x40 0x7E c then .plain else .sequence
    | .device =>
      if isBetween 0x20 0x2F c then .deviceIntermediate
      else if isBetween 0x30 0x3F c then .deviceParameters
      else if isBetween 0x40 0x7E c then .string
      else .device
    | .deviceParameters =>
      if isBetween 0x20 0x2F c then .deviceIntermediate
      else if isBetween 0x3C 0x7E c then .string
      else .deviceParameters
    | .deviceIntermediate => if isBetween 0x30 0x7E c then .string else .deviceIntermediate
    | .string => if holdsTerminator c then .plain else .string
    | .command => if c = '\x07' then .plain else .command

/-- A character is kept in this state. Layout takes effect even inside a sequence, but not inside
a string. -/
def keeps (s : ControlState) (c : Char) : Bool :=
  match s with
  | .plain => isGraphic c || isLayout c
  | .escape | .escapeIntermediate | .sequence => isLayout c
  | _ => false

end ControlState

/-- The kept characters of a text. When layout interrupts a sequence, the text after it is read as
plain text up to the next control character, where the sequence goes on, unless a character
outside ASCII has ended it; `interrupted` tells that this is the case. -/
def keptFrom (s : ControlState) (interrupted : Bool) : List Char → List Char
  | [] => []
  | c :: cs =>
    if (if interrupted then ControlState.plain else s).keeps c then
      c :: keptFrom (if c.toNat < 0x80 then s else .plain) true cs
    else keptFrom (s.next c) false cs

/-- Plain text is kept as it is. -/
theorem keptFrom_plain {cs : List Char} (h : ∀ c ∈ cs, ControlState.plain.keeps c = true)
    (interrupted : Bool) : keptFrom .plain interrupted cs = cs := by
  induction cs generalizing interrupted with
  | nil => rfl
  | cons c cs ih =>
    have hc := h c List.mem_cons_self
    have hcs := fun d hd => h d (List.mem_cons_of_mem c hd)
    simp [keptFrom, hc, ih hcs]

/-- A text without control characters and control sequences, but with its layout. -/
def withoutControls (text : String) : String :=
  String.ofList (keptFrom .plain false text.toList)

end RiscvBoot.Text
