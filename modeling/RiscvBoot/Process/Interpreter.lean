import RiscvBoot.Path

/-!
# Files that another program runs

A file that starts with `#!` is not run itself: its first line names the program that runs it and
may give that program one argument. Only the first 256 bytes are looked at, and a shorter file
counts as filled with zeros. Main statements: a line gives no program exactly if there is nothing
but blanks in it (`ofLine?_eq_none_iff`), and what it gives is short (`utf8ByteSize_lt_window`).
-/

set_option autoImplicit false

namespace RiscvBoot

/-- The program that runs a file, and the argument it is given before the name of the file. -/
structure Interpreter where
  program : String
  argument : Option String
  deriving DecidableEq, Repr

namespace Interpreter

/-- Where the program is. Without a name it is the working directory. -/
def path (i : Interpreter) : Path := ⟨if i.program = "" then "." else i.program⟩

def window : Nat := 256

def head (content : ByteArray) : List UInt8 :=
  let bytes := (content.extract 0 window).data.toList
  bytes ++ List.replicate (window - bytes.length) 0

def isBlank (b : UInt8) : Bool := b = ' '.toUInt8 || b = '\t'.toUInt8

def isZero (b : UInt8) : Bool := b = 0

def isLineFeed (b : UInt8) : Bool := b = '\n'.toUInt8

/-- The line after its mark `#!`. A line that goes on after the bytes looked at is taken without
its end, but not if the name of the program may go on. -/
def line? (content : ByteArray) : Option (List UInt8) :=
  match head content with
  | first :: second :: body =>
    let line := body.takeWhile fun b => !isZero b && !isLineFeed b
    if first ≠ '#'.toUInt8 ∨ second ≠ '!'.toUInt8 then none
    else if (body.drop line.length).head?.any isLineFeed then some line
    else if (body.dropWhile isBlank).any fun b => isBlank b || isZero b then some body.dropLast
    else none
  | _ => none

/-- The text that bytes stand for; bytes that are no text are the name of nothing. -/
def textOf (bytes : List UInt8) : String := (String.fromUTF8? ⟨bytes.toArray⟩).getD "\ufffd"

def trimmed (line : List UInt8) : List UInt8 :=
  (line.reverse.dropWhile isBlank).reverse.dropWhile isBlank

theorem dropWhile_isBlank_eq_nil_iff (line : List UInt8) :
    line.dropWhile isBlank = [] ↔ ∀ b ∈ line, isBlank b = true := by
  induction line with
  | nil => simp
  | cons b line ih => by_cases h : isBlank b = true <;> simp [h, ih]

theorem trimmed_eq_nil_iff (line : List UInt8) :
    trimmed line = [] ↔ ∀ b ∈ line, isBlank b = true := by
  rw [trimmed, dropWhile_isBlank_eq_nil_iff]
  constructor
  · intro h b hb
    rw [← List.mem_reverse, ← List.takeWhile_append_dropWhile (p := isBlank) (l := line.reverse),
      List.mem_append] at hb
    rcases hb with hb | hb
    · exact List.all_eq_true.1 List.all_takeWhile b hb
    · exact h b (List.mem_reverse.2 hb)
  · intro h b hb
    exact h b (List.mem_reverse.1 ((List.dropWhile_sublist _).mem (List.mem_reverse.1 hb)))

/-- The program and the argument that a line gives. The name ends at a blank, the argument is all
the rest, and both end at a zero. -/
def ofLine? (line : List UInt8) : Option Interpreter :=
  match trimmed line with
  | [] => none
  | words =>
    let name := words.takeWhile fun b => !isBlank b && !isZero b
    let rest := words.drop name.length
    some {
      program := textOf name
      argument :=
        if rest.head?.any isBlank then
          some (textOf ((rest.dropWhile isBlank).takeWhile fun b => !isZero b))
        else none }

theorem ofLine?_eq_none_iff (line : List UInt8) :
    ofLine? line = none ↔ ∀ b ∈ line, isBlank b = true := by
  rw [← trimmed_eq_nil_iff]
  unfold ofLine?
  split <;> simp_all

/-- The program that has to run a file with this content, if it is such a file. -/
def ofContent? (content : ByteArray) : Option Interpreter := (line? content).bind ofLine?

/-! ## How long the words are -/

theorem length_head (content : ByteArray) : (head content).length = window := by
  have hbytes : (content.extract 0 window).data.toList.length ≤ window := by
    rw [Array.length_toList, ByteArray.size_data, ByteArray.size_extract]
    omega
  unfold head
  rw [List.length_append, List.length_replicate]
  omega

theorem length_of_line? {content : ByteArray} {line : List UInt8}
    (h : line? content = some line) : line.length < window := by
  have hlength := length_head content
  unfold line? at h
  split at h
  · rename_i first second body hhead
    rw [hhead] at hlength
    have hbody : body.length < window := by simp only [List.length_cons] at hlength; omega
    dsimp only at h
    split at h
    · cases h
    · split at h
      · obtain rfl := Option.some.inj h
        exact Nat.lt_of_le_of_lt (List.takeWhile_sublist _).length_le hbody
      · split at h
        · obtain rfl := Option.some.inj h
          exact Nat.lt_of_le_of_lt (List.dropLast_sublist _).length_le hbody
        · cases h
  · cases h

theorem utf8ByteSize_textOf_lt {bytes : List UInt8} (h : bytes.length < window) :
    (textOf bytes).utf8ByteSize < window := by
  unfold textOf
  cases htext : String.fromUTF8? ⟨bytes.toArray⟩ with
  | none => decide
  | some text =>
    unfold String.fromUTF8? at htext
    split at htext
    · obtain rfl := Option.some.inj htext
      exact h
    · cases htext

theorem length_trimmed_le (line : List UInt8) : (trimmed line).length ≤ line.length := by
  have hfirst : ((line.reverse.dropWhile isBlank).reverse.dropWhile isBlank).length ≤ _ :=
    (List.dropWhile_sublist isBlank).length_le
  have hsecond : (line.reverse.dropWhile isBlank).length ≤ _ :=
    (List.dropWhile_sublist isBlank).length_le
  rw [List.length_reverse] at hfirst hsecond
  exact Nat.le_trans hfirst hsecond

theorem utf8ByteSize_of_ofLine? {line : List UInt8} {i : Interpreter} (h : ofLine? line = some i)
    (hshort : line.length < window) :
    i.program.utf8ByteSize < window ∧ ∀ a ∈ i.argument, a.utf8ByteSize < window := by
  have hword {word : List UInt8} (hpart : word.Sublist (trimmed line)) :
      (textOf word).utf8ByteSize < window :=
    utf8ByteSize_textOf_lt (Nat.lt_of_le_of_lt
      (Nat.le_trans hpart.length_le (length_trimmed_le line)) hshort)
  unfold ofLine? at h
  split at h
  · cases h
  · obtain rfl := Option.some.inj h
    refine ⟨hword (List.takeWhile_sublist _), ?_⟩
    intro a ha
    dsimp only at ha
    split at ha
    · obtain rfl := Option.some.inj ha
      apply hword
      exact (List.takeWhile_sublist _).trans
        ((List.dropWhile_sublist _).trans (List.drop_sublist _ _))
    · cases ha

theorem utf8ByteSize_lt_window {content : ByteArray} {i : Interpreter}
    (h : ofContent? content = some i) : i.path.text.utf8ByteSize < window ∧
      i.program.utf8ByteSize < window ∧ ∀ a ∈ i.argument, a.utf8ByteSize < window := by
  obtain ⟨line, hline, hi⟩ := Option.bind_eq_some_iff.1 h
  obtain ⟨hprogram, hargument⟩ := utf8ByteSize_of_ofLine? hi (length_of_line? hline)
  refine ⟨?_, hprogram, hargument⟩
  unfold path
  dsimp only
  split
  · decide
  · exact hprogram

end Interpreter

end RiscvBoot
