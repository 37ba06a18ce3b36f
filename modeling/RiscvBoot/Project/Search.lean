import RiscvBoot.Host.FileTree
import RiscvBoot.Manifest.Schema
import RiscvBoot.Toml.Reader

/-!
# Finding a project

The manifest of a directory is the nearest one above it: the directory itself is looked at first,
then its parent, and so on. The nearest manifest counts even if it cannot be read, and a
directory with its name is passed over.
-/

set_option autoImplicit false

namespace RiscvBoot

inductive LoadError where
  | unreadable (path : Path) (source : SystemError)
  /-- A text that is not what it should be, with what is said about it. -/
  | malformed (path : Path) (report : String)
  deriving DecidableEq, Repr

namespace LoadError

/-- What was being done when the error came up. -/
def context : LoadError → String
  | .unreadable path _ => s!"reading {path.text}"
  | .malformed path _ => s!"parsing {path.text}"

/-- The messages of an error and of the errors behind it, outermost first. -/
def causes : LoadError → List String
  | e@(.unreadable _ source) => [e.context, source.message]
  | e@(.malformed _ report) => [e.context, report]

end LoadError

/-- The content of a settings file, given by what `use` makes of the data in it. -/
def FileView.load {α : Type} (v : FileView) (use : Tree → Except String α) (p : Path) :
    Except LoadError α :=
  match v.readText p with
  | .error source => .error (.unreadable p source)
  | .ok text =>
    match Toml.read text with
    | .error fault => .error (.malformed p (fault.report text))
    | .ok t => (use t).mapError fun complaint => .malformed p s!"TOML parse error\n{complaint}\n"

namespace Manifest

/-- The manifest that data stand for, or what is wrong with them. -/
def ofTree (t : Tree) : Except String Manifest :=
  match Schema.manifest? .toml t with
  | some m => .ok m
  | none => .error (Schema.complaint t)

def ofText? (text : String) : Option Manifest := do
  Schema.manifest? .toml (← (Toml.read text).toOption)

def load (v : FileView) (p : Path) : Except LoadError Manifest := v.load ofTree p

/-- The manifest of the first directory that has one, and that directory. -/
def findIn (v : FileView) : List Path → Except LoadError (Option (Manifest × Path))
  | [] => .ok none
  | dir :: dirs =>
    if v.isFile (dir.join fileName) then do
      return some (← load v (dir.join fileName), dir)
    else findIn v dirs

def find (v : FileView) (start : Path) : Except LoadError (Option (Manifest × Path)) :=
  findIn v start.ancestors

end Manifest

/-- The file that names the package of a crate. -/
def packageFile : Path := ⟨"Cargo.toml"⟩

/-- The data of a file whose tables may hold anything. -/
def openTables (t : Tree) : Except String Tree :=
  match Toml.withOpenTables? t with
  | some t => .ok t
  | none => .error "invalid datetime"

/-- The package name of the crate in a directory, if it is a crate with a name. -/
def packageName? (v : FileView) (dir : Path) : Except LoadError (Option String) :=
  if v.isFile (dir.join packageFile) then do
    let t ← v.load openTables (dir.join packageFile)
    return do (← (← t.get? "package").get? "name").text?
  else .ok none

end RiscvBoot
