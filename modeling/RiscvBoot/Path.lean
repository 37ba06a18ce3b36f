import RiscvBoot.Text.Lines

/-!
# Path texts

A path is the text it was written as. Joining only concatenates, and nothing is normalised; the
component view (`Path.components`) forgets doubled slashes, trailing slashes and inner `.`, and
is what two paths are compared by when they are asked to mean the same place. `Path.parent?`
removes the last component, and `Path.ancestors` repeats that until nothing is left to remove.
Nothing here looks at a file system, so `..` is a name like any other.
-/

set_option autoImplicit false

namespace RiscvBoot

structure Path where
  text : String
  deriving DecidableEq, Repr, Inhabited

namespace Path

inductive Component where
  | root
  | current
  | parent
  | name (text : String)
  deriving DecidableEq, Repr

def chars (p : Path) : List Char := p.text.toList

def ofChars (cs : List Char) : Path := ⟨String.ofList cs⟩

/-- A path is absolute when it starts with a slash. -/
def isAbsolute (p : Path) : Bool := p.chars.head? = some '/'

/-- `q` seen from `p`: an absolute `q` replaces `p`, and otherwise one slash is put between them
unless `p` is empty or already ends in one. -/
def join (p q : Path) : Path :=
  if q.isAbsolute then q
  else if p.chars.getLast?.all (· = '/') then ⟨p.text ++ q.text⟩
  else ⟨p.text ++ "/" ++ q.text⟩

/-- The leading slash, or the leading `.` of a relative path, and the text after it. -/
def split (p : Path) : List Char × List Char :=
  match p.chars with
  | '/' :: rest => (['/'], rest)
  | ['.'] => (['.'], [])
  | '.' :: '/' :: rest => (['.'], '/' :: rest)
  | cs => ([], cs)

/-- The component that a piece between slashes stands for. -/
def Component.ofPiece? (piece : List Char) : Option Component :=
  match piece with
  | [] => none
  | ['.'] => none
  | ['.', '.'] => some .parent
  | cs => some (.name (String.ofList cs))

/-- The steps of a path. A `.` counts only at the start of a relative path. -/
def components (p : Path) : List Component :=
  let (lead, body) := p.split
  let start := match lead with
    | ['/'] => [.root]
    | ['.'] => [.current]
    | _ => []
  start ++ (Text.pieces '/' body).filterMap Component.ofPiece?

/-- Two spellings of the same sequence of steps. -/
def sameAs (p q : Path) : Bool := p.components = q.components

/-- Text read backwards, without the slashes and `.` pieces it ends in. -/
def dropBlankTail : List Char → List Char
  | '/' :: rest => dropBlankTail rest
  | '.' :: '/' :: rest => dropBlankTail rest
  | ['.'] => []
  | cs => cs

theorem length_dropBlankTail_le (cs : List Char) : (dropBlankTail cs).length ≤ cs.length := by
  fun_induction dropBlankTail cs with
  | case1 rest ih => simp only [List.length_cons]; omega
  | case2 rest ih => simp only [List.length_cons]; omega
  | case3 => simp
  | case4 cs => simp

/-- The path without its last component; a path that is only a root, or empty, has no parent. -/
def parent? (p : Path) : Option Path :=
  let (lead, body) := p.split
  match dropBlankTail body.reverse with
  | [] => if lead = ['.'] then some ⟨""⟩ else none
  | c :: rest =>
    some (ofChars (lead ++
      (dropBlankTail (((c :: rest).dropWhile (· ≠ '/')).drop 1)).reverse))

/-- The path without the slashes that follow its last step. -/
def withoutEndSlashes (p : Path) : Path :=
  match (p.chars.reverse.dropWhile (· = '/')).reverse with
  | [] => ofChars (p.chars.take 1)
  | cs => ofChars cs

theorem split_append (p : Path) : p.split.1 ++ p.split.2 = p.chars := by
  unfold split
  split <;> simp_all

theorem length_parent_lt {p q : Path} (h : p.parent? = some q) :
    q.chars.length < p.chars.length := by
  have hlen : p.split.1.length + p.split.2.length = p.chars.length := by
    rw [← List.length_append, split_append]
  unfold parent? at h
  split at h
  rename_i lead body hsplit
  rw [hsplit] at hlen
  simp only at hlen
  split at h
  · split at h
    · rename_i hl
      simp only [Option.some.injEq] at h
      subst h hl
      simp [chars] at hlen ⊢
      omega
    · simp at h
  · rename_i c rest hdrop
    simp only [Option.some.injEq] at h
    subst h
    have h1 := length_dropBlankTail_le body.reverse
    have h2 := length_dropBlankTail_le (((c :: rest).dropWhile (· ≠ '/')).drop 1)
    have h3 : ((c :: rest).dropWhile (· ≠ '/')).length ≤ (c :: rest).length :=
      (List.dropWhile_sublist _).length_le
    rw [hdrop] at h1
    simp only [ofChars, chars, String.toList_ofList, List.length_append, List.length_reverse,
      List.length_drop, List.length_cons] at h1 h2 h3 hlen ⊢
    omega

/-- The path itself, its parent, the parent's parent, and so on, nearest first. -/
def ancestors (p : Path) : List Path :=
  p :: match _h : p.parent? with
    | none => []
    | some q => ancestors q
termination_by p.chars.length
decreasing_by exact length_parent_lt _h

end Path

end RiscvBoot
