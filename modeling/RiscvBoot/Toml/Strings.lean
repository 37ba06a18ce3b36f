import RiscvBoot.Text.Digits
import RiscvBoot.Toml.Fault

/-!
# TOML strings

The four string styles, each read from the text after its opening quotes. A basic string has
escapes, a literal string has none; the long form of each may hold line breaks and up to two
quotes in a row, also right before its closing quotes. Every reader returns the text and what
follows the closing quotes, or the place of the first character that cannot stand there. A
character that makes no escape is at fault only once it has been read.
-/

set_option autoImplicit false

namespace RiscvBoot.Toml

def isBareKeyChar (c : Char) : Bool := c.isAlphanum || c = '_' || c = '-'

def isBlank (c : Char) : Bool := c = ' ' || c = '\t'

def skipBlanks (cs : List Char) : List Char := cs.dropWhile isBlank

/-- A character that may stand in a comment or a string as it is: no control character but tab. -/
def isPlain (c : Char) : Bool := c = '\t' || (0x20 ≤ c.toNat && c ≠ '\x7f')

/-- The text after a line break, if one stands here. -/
def newline? : List Char → Option (List Char)
  | '\n' :: rest => some rest
  | '\r' :: '\n' :: rest => some rest
  | _ => none

def dropNewline (cs : List Char) : List Char := (newline? cs).getD cs

/-- The character with this number; halves of surrogate pairs are not characters. -/
def charOfNumber? (n : Nat) : Option Char := if n.isValidChar then some (Char.ofNat n) else none

/-- The character that an escape stands for, read after its backslash. -/
def escape? : List Char → Option (Char × List Char)
  | 'b' :: rest => some ('\x08', rest)
  | 't' :: rest => some ('\t', rest)
  | 'n' :: rest => some ('\n', rest)
  | 'f' :: rest => some ('\x0c', rest)
  | 'r' :: rest => some ('\r', rest)
  | '"' :: rest => some ('"', rest)
  | '\\' :: rest => some ('\\', rest)
  | 'u' :: rest => coded 4 rest
  | 'U' :: rest => coded 8 rest
  | _ => none
where
  /-- A character given by exactly this many hexadecimal digits. -/
  coded (width : Nat) (rest : List Char) : Option (Char × List Char) :=
    if (rest.take width).length = width then do
      let c ← charOfNumber? (← Text.hexNumber? (rest.take width))
      return (c, rest.drop width)
    else none

theorem escape?_length {cs rest : List Char} {c : Char} (h : escape? cs = some (c, rest)) :
    rest.length < cs.length := by
  unfold escape? at h
  split at h
  all_goals first
    | (simp only [Option.some.injEq, Prod.mk.injEq] at h
       obtain ⟨_, rfl⟩ := h
       simp)
    | (simp only [escape?.coded] at h
       split at h
       · simp only [Option.bind_eq_bind, Option.bind_eq_some_iff, Option.pure_def,
           Option.some.injEq, Prod.mk.injEq] at h
         obtain ⟨_, _, _, _, _, rfl⟩ := h
         simp only [List.length_drop, List.length_cons]
         omega
       · simp at h)
    | simp at h

/-- The fault of a backslash that starts no escape, given the text after it. -/
def badEscape (rest : List Char) : Fault := ⟨rest.drop 1, "invalid escape sequence"⟩

/-- A one-line string with escapes. -/
def readBasic : List Char → Except Fault (List Char × List Char)
  | [] => .error ⟨[], "invalid basic string"⟩
  | '"' :: rest => .ok ([], rest)
  | '\\' :: rest =>
    match _h : escape? rest with
    | some (c, after) => (readBasic after).map fun r => (c :: r.1, r.2)
    | none => .error (badEscape rest)
  | c :: rest =>
    if isPlain c then (readBasic rest).map fun r => (c :: r.1, r.2)
    else .error ⟨c :: rest, "invalid basic string"⟩
termination_by cs => cs.length
decreasing_by
  · have := escape?_length _h
    simp only [List.length_cons]
    omega
  · simp

def readLiteral (cs : List Char) : Except Fault (List Char × List Char) :=
  let text := cs.takeWhile fun c => isPlain c && c ≠ '\''
  match cs.dropWhile fun c => isPlain c && c ≠ '\'' with
  | '\'' :: rest => .ok (text, rest)
  | rest => .error ⟨rest, "invalid literal string"⟩

/-- Blanks and line breaks skipped after a backslash at the end of a line. -/
def skipBlankLines : List Char → List Char
  | ' ' :: rest => skipBlankLines rest
  | '\t' :: rest => skipBlankLines rest
  | '\n' :: rest => skipBlankLines rest
  | '\r' :: '\n' :: rest => skipBlankLines rest
  | cs => cs

theorem length_skipBlankLines_le (cs : List Char) :
    (skipBlankLines cs).length ≤ cs.length := by
  fun_induction skipBlankLines cs <;> grind

theorem length_skipBlanks_le (cs : List Char) : (skipBlanks cs).length ≤ cs.length :=
  (List.dropWhile_sublist _).length_le

theorem newline?_length {cs rest : List Char} (h : newline? cs = some rest) :
    rest.length < cs.length := by
  unfold newline? at h
  split at h
  all_goals first
    | (simp only [Option.some.injEq] at h
       subst h
       simp only [List.length_cons]
       omega)
    | simp at h

/-- The text after a backslash, blanks and a line break, with the blanks that follow skipped. -/
def continued? (cs : List Char) : Option (List Char) :=
  (newline? (skipBlanks cs)).map skipBlankLines

theorem continued?_length {cs rest : List Char} (h : continued? cs = some rest) :
    rest.length < cs.length := by
  simp only [continued?, Option.map_eq_some_iff] at h
  obtain ⟨r, hr, rfl⟩ := h
  have h1 := newline?_length hr
  have h2 := length_skipBlanks_le cs
  have h3 := length_skipBlankLines_le r
  omega

/-- What a row of `n` quotes means inside a long string: so many quotes of text, and how many
are used up, with or without closing the string. -/
inductive QuoteRun where
  | text (n : Nat)
  | closing (kept used : Nat)

/-- Up to two quotes are text; three close the string, after at most two more of text. -/
def QuoteRun.ofLength (n : Nat) : QuoteRun :=
  if n < 3 then .text n else .closing (min (n - 3) 2) (min n 5)

/-- A long string with escapes, after its opening quotes and the line break after them. -/
def readLongBasic : List Char → Except Fault (List Char × List Char)
  | [] => .error ⟨[], "invalid multiline basic string"⟩
  | '"' :: rest =>
    let row := ('"' :: rest).takeWhile (· = '"')
    match QuoteRun.ofLength row.length with
    | .closing kept used => .ok (List.replicate kept '"', ('"' :: rest).drop used)
    | .text _ => (readLongBasic rest).map fun r => ('"' :: r.1, r.2)
  | '\\' :: rest =>
    match _h : continued? rest with
    | some after => readLongBasic after
    | none =>
      match _h : escape? rest with
      | some (c, after) => (readLongBasic after).map fun r => (c :: r.1, r.2)
      | none => .error (badEscape rest)
  | '\n' :: rest => (readLongBasic rest).map fun r => ('\n' :: r.1, r.2)
  | '\r' :: '\n' :: rest => (readLongBasic rest).map fun r => ('\n' :: r.1, r.2)
  | c :: rest =>
    if isPlain c then (readLongBasic rest).map fun r => (c :: r.1, r.2)
    else .error ⟨c :: rest, "invalid multiline basic string"⟩
termination_by cs => cs.length
decreasing_by
  all_goals simp only [List.length_cons]
  · omega
  · have := continued?_length _h
    omega
  · have := escape?_length _h
    omega
  all_goals omega

/-- A long string without escapes, after its opening quotes and the line break after them. -/
def readLongLiteral : List Char → Except Fault (List Char × List Char)
  | [] => .error ⟨[], "invalid multiline literal string"⟩
  | '\'' :: rest =>
    let row := ('\'' :: rest).takeWhile (· = '\'')
    match QuoteRun.ofLength row.length with
    | .closing kept used => .ok (List.replicate kept '\'', ('\'' :: rest).drop used)
    | .text _ => (readLongLiteral rest).map fun r => ('\'' :: r.1, r.2)
  | '\n' :: rest => (readLongLiteral rest).map fun r => ('\n' :: r.1, r.2)
  | '\r' :: '\n' :: rest => (readLongLiteral rest).map fun r => ('\n' :: r.1, r.2)
  | c :: rest =>
    if isPlain c then (readLongLiteral rest).map fun r => (c :: r.1, r.2)
    else .error ⟨c :: rest, "invalid multiline literal string"⟩

def readString (cs : List Char) : Except Fault (List Char × List Char) :=
  match cs with
  | '"' :: '"' :: '"' :: rest => readLongBasic (dropNewline rest)
  | '"' :: rest => readBasic rest
  | '\'' :: '\'' :: '\'' :: rest => readLongLiteral (dropNewline rest)
  | '\'' :: rest => readLiteral rest
  | _ => .error ⟨cs, "invalid string"⟩

end RiscvBoot.Toml
