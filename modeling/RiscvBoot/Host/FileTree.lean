import RiscvBoot.Path
import RiscvBoot.Process.Failure

/-!
# File trees

A tree of directories and files, kept as a list of the places that exist. `FileTree.locate`
follows a path through the tree: every step needs a directory to stand in, `..` goes to the
directory above, only the last name may be missing, and names and paths have a greatest length.

Trees are simpler than those of a system in three ways: there are no links in them, everything in
them may be read and written, and a write is done as a whole or not at all.
-/

set_option autoImplicit false

namespace RiscvBoot

/-- A place in a tree, as the names that lead to it from the root. -/
abbrev Location := List String

def Location.toPath (here : Location) : Path :=
  ⟨"/" ++ "/".intercalate here⟩

inductive Entry where
  | directory
  | file (content : ByteArray) (executable : Bool)
  deriving Inhabited

def Entry.isFile : Entry → Bool
  | .file _ _ => true
  | .directory => false

/-- The places of a tree but for its root, each at most once. -/
structure FileTree where
  entries : List (Location × Entry) := []
  deriving Inhabited

namespace FileTree

/-- What is at a place; the root is always a directory. -/
def get? (t : FileTree) (here : Location) : Option Entry :=
  if here = [] then some .directory else t.entries.lookup here

def put (t : FileTree) (here : Location) (e : Entry) : FileTree :=
  ⟨(here, e) :: t.entries.filter (·.1 ≠ here)⟩

theorem get?_put_self {t : FileTree} {here : Location} (h : here ≠ []) (e : Entry) :
    (t.put here e).get? here = some e := by
  simp [get?, put, h]

theorem lookup_filter_ne {α : Type} {here there : Location} (h : there ≠ here)
    (es : List (Location × α)) :
    (es.filter (·.1 ≠ here)).lookup there = es.lookup there := by
  induction es with
  | nil => rfl
  | cons x es ih =>
    obtain ⟨place, entry⟩ := x
    by_cases hx : place = here
    · have hne : (there == place) = false := by simpa [hx] using h
      rw [List.filter_cons_of_neg (by simpa using hx), ih, List.lookup_cons, hne]
    · rw [List.filter_cons_of_pos (by simpa using hx), List.lookup_cons, List.lookup_cons, ih]

theorem get?_put_of_ne {t : FileTree} {here there : Location} (h : there ≠ here) (e : Entry) :
    (t.put here e).get? there = t.get? there := by
  have hne : (there == here) = false := by simpa using h
  simp only [get?, put, List.lookup_cons, hne, lookup_filter_ne h]

def remove (t : FileTree) (here : Location) : FileTree :=
  ⟨t.entries.filter fun e => ¬here.isPrefixOf e.1⟩

/-- The tree with the directories that lead to a place and the place itself. -/
def makeDirectories (t : FileTree) (here : Location) : FileTree :=
  (List.range here.length).foldl (fun t n =>
    let above := here.take (n + 1)
    if (t.get? above).isSome then t else t.put above .directory) t

/-- The tree with an entry at a place and the directories that lead to it. -/
def plant (t : FileTree) (here : Location) (e : Entry) : FileTree :=
  (t.makeDirectories here.dropLast).put here e

/-- One step from a directory. -/
def step (here : Location) (piece : String) : Location :=
  if piece = "" ∨ piece = "." then here
  else if piece = ".." then here.dropLast
  else here ++ [piece]

def nameLimit : Nat := 255

/-- The number of bytes that a path has to stay below. -/
def pathLimit : Nat := 4096

/-- Follow pieces of a path from a place. -/
def walk (t : FileTree) (here : Location) : List String → Except SystemError Location
  | [] => .ok here
  | piece :: rest =>
    match t.get? here with
    | none => .error .notFound
    | some (.file _ _) => .error .notADirectory
    | some .directory =>
      if nameLimit < piece.utf8ByteSize then .error .nameTooLong
      else t.walk (step here piece) rest

/-- The place that a path names, seen from a working directory. -/
def locate (t : FileTree) (workDir : Location) (p : Path) : Except SystemError Location :=
  if p.chars.contains '\x00' then .error .nulInName
  else if p.text = "" then .error .notFound
  else if pathLimit ≤ p.text.utf8ByteSize then .error .nameTooLong
  else
    let pieces := (Text.pieces '/' p.chars).map String.ofList
    if p.isAbsolute then t.walk [] pieces else t.walk workDir pieces

def isDirectory (t : FileTree) (workDir : Location) (p : Path) : Bool :=
  match t.locate workDir p with
  | .ok here => (t.get? here).any (! ·.isFile)
  | .error _ => false

/-- The tree with a new directory at a path; the directory above it has to be there. -/
def makeDirectory (t : FileTree) (workDir : Location) (p : Path) :
    Except SystemError FileTree := do
  let here ← t.locate workDir p.withoutEndSlashes
  if (t.get? here).isSome then throw .alreadyThere
  return t.put here .directory

/-- The tree with a directory at a path, made with the directories above it where they are
missing. A directory that is there already is as good as a new one. -/
def ensureDirectory (t : FileTree) (workDir : Location) (p : Path) :
    Except SystemError FileTree :=
  if p.text = "" then .ok t
  else
    match t.makeDirectory workDir p with
    | .ok t => .ok t
    | .error .notFound =>
      match _h : p.parent? with
      | none => .error (.other "failed to create whole tree")
      | some above => do
        let t ← t.ensureDirectory workDir above
        unlessThere t (t.makeDirectory workDir p)
    | .error e => unlessThere t (.error e)
termination_by p.chars.length
decreasing_by exact Path.length_parent_lt _h
where
  /-- A result that does not matter when the directory is there. -/
  unlessThere (t : FileTree) : Except SystemError FileTree → Except SystemError FileTree
    | .error e => if t.isDirectory workDir p then .ok t else .error e
    | made => made

/-- The tree without the file or directory at a path. -/
def removeAt (t : FileTree) (workDir : Location) (p : Path) : Except SystemError FileTree := do
  let here ← t.locate workDir p
  match t.get? here with
  | some _ => return t.remove here
  | none => throw .notFound

end FileTree

/-- A tree as it is seen from a working directory. -/
structure FileView where
  tree : FileTree := {}
  workDir : Location := []

namespace FileView

def entry (v : FileView) (p : Path) : Except SystemError Entry := do
  let here ← v.tree.locate v.workDir p
  match v.tree.get? here with
  | some e => return e
  | none => throw .notFound

def isOccupied (v : FileView) (p : Path) : Bool :=
  match v.entry p with
  | .ok _ => true
  | .error _ => false

def isFile (v : FileView) (p : Path) : Bool :=
  match v.entry p with
  | .ok e => e.isFile
  | .error _ => false

def readText (v : FileView) (p : Path) : Except SystemError String := do
  match ← v.entry p with
  | .directory => throw .isADirectory
  | .file content _ =>
    match String.fromUTF8? content with
    | some text => return text
    | none => throw .notText

/-- The tree with some bytes as the file at a path, whose directory has to be there. -/
def writeBytes (v : FileView) (p : Path) (content : ByteArray) : Except SystemError FileTree := do
  let here ← v.tree.locate v.workDir p.withoutEndSlashes
  if p.chars.getLast? = some '/' then throw .isADirectory
  match v.tree.get? here with
  | some .directory => throw .isADirectory
  | some (.file _ executable) => return v.tree.put here (.file content executable)
  | none => return v.tree.put here (.file content false)

def writeText (v : FileView) (p : Path) (text : String) : Except SystemError FileTree :=
  v.writeBytes p text.toUTF8

/-- The tree with some bytes as the file at a path, made with the directories above it. -/
def plantBytes (v : FileView) (p : Path) (content : ByteArray) : Except SystemError FileTree := do
  let tree ← match p.parent? with
    | some above => v.tree.ensureDirectory v.workDir above
    | none => pure v.tree
  { v with tree }.writeBytes p content

end FileView

end RiscvBoot
