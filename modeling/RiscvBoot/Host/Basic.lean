import RiscvBoot.Host.FileTree
import RiscvBoot.Process.Interpreter
import RiscvBoot.Sweep.Basic

/-!
# The host

A host is a tree of files seen from a working directory, programs that behave as their scripts
say, a clock, and a record of what has happened: messages, printed text, programs that were
started and attempts to start one. Starting a program (`Host.start`) looks for it where the system
would, has a file that names a program in its first line run by that program, and refuses for the
reasons the system has.

A script says what a program prints and how it ends, and nothing else: it is assumed that no
program changes the tree. So what is found and what is a file is the same before a program has run
and after it, and an image that a build would make is in the tree from the start.
-/

set_option autoImplicit false

namespace RiscvBoot

/-- How a program behaves: what it prints, and how its runs end, one after the other. The last
end repeats, and without any a run ends well. No run changes the tree. -/
structure Script where
  output : String := ""
  endings : List WaitStatus := []
  deriving DecidableEq, Repr, Inhabited

namespace Script

def ending (s : Script) : WaitStatus := s.endings.headD .success

def advance (s : Script) : Script :=
  match s.endings with
  | _ :: e :: rest => { s with endings := e :: rest }
  | _ => s

end Script

/-- A program with its arguments, and the directory it runs in if that is another one. -/
structure Invocation where
  program : String
  args : List String := []
  dir : Option Path := none
  deriving DecidableEq, Repr

namespace Invocation

/-- A zero character occurs where the system cannot take one. -/
def hasNul (i : Invocation) : Bool :=
  (i.program :: (i.args ++ (i.dir.map Path.text).toList)).any fun s => s.toList.contains '\x00'

end Invocation

structure Call where
  program : String
  workDir : Location
  args : List String
  deriving DecidableEq, Repr

/-- A program that was asked for, and how it ended or why it was not started. -/
structure Attempt where
  invocation : Invocation
  result : Except SystemError WaitStatus

inductive Event where
  | logged (record : Log.Record)
  | printed (text : String)
  | started (call : Call)
  /-- The end of an attempt; the start of its program, if it has one, comes before. -/
  | tried (attempt : Attempt)

/-- The state of the surroundings. -/
structure Host extends FileView where
  /-- The directories in which programs are looked for by name. -/
  searchPath : List Path := []
  /-- The behaviour of the programs; a file without one can only name a program. -/
  scripts : List (Location × Script) := []
  clock : Instant := ⟨0⟩
  /-- How many bytes a program can be started with. The variables of the environment, which all
  programs get, are taken off already. -/
  argumentRoom : Nat := 2097152
  /-- What has happened, first things first. -/
  events : List Event := []
  deriving Inhabited

/-- The directories of a search path, which are written with colons between them. One that is too
long counts as empty, and as the last one it does not count at all. -/
def searchDirectories (text : String) : List Path :=
  let dirs := (Text.pieces ':' text.toList).map String.ofList
  let fits (dir : String) : Bool := dir.utf8ByteSize < FileTree.pathLimit
  let before := dirs.dropLast.map fun dir => if fits dir then dir else ""
  (before ++ (dirs.drop before.length).filter fits).map Path.mk

/-- A file of a search directory; the empty text stands for the working directory. -/
def inSearchDirectory (dir : Path) (name : String) : Path :=
  ⟨if dir.text = "" then name else dir.text ++ "/" ++ name⟩

abbrev HostM := StateM Host

/-- A program that can be started: where it is, what it is given, and where it runs. -/
structure Startable where
  program : Location
  args : List String
  dir : Location
  deriving DecidableEq, Repr

def Startable.call (s : Startable) : Call := ⟨s.program.getLastD "", s.dir, s.args⟩

/-- The number of bytes that an argument has to stay below. -/
def argumentLimit : Nat := 131072

/-- The bytes that words take when a program is started with them. Each of them ends with a zero. -/
def wordBytes : List String → Nat
  | [] => 0
  | word :: words => word.utf8ByteSize + 1 + wordBytes words

theorem wordBytes_nil : wordBytes [] = 0 := rfl

theorem wordBytes_cons (word : String) (words : List String) :
    wordBytes (word :: words) = word.utf8ByteSize + 1 + wordBytes words := rfl

theorem wordBytes_append (words words' : List String) :
    wordBytes (words ++ words') = wordBytes words + wordBytes words' := by
  induction words with
  | nil => simp [wordBytes_nil]
  | cons word words ih => rw [List.cons_append, wordBytes_cons, wordBytes_cons, ih]; omega

theorem wordBytes_replicate (n : Nat) (word : String) :
    wordBytes (List.replicate n word) = n * (word.utf8ByteSize + 1) := by
  induction n with
  | zero => simp [wordBytes_nil]
  | succ n ih => rw [List.replicate_succ, wordBytes_cons, ih, Nat.succ_mul]; omega

/-- No word is too long, and all together they find room. -/
def wordsFit (space : Nat) (words : List String) : Bool :=
  (words.all fun s => s.utf8ByteSize < argumentLimit) && wordBytes words ≤ space

theorem wordsFit_iff {space : Nat} {words : List String} : wordsFit space words = true ↔
    (∀ word ∈ words, word.utf8ByteSize < argumentLimit) ∧ wordBytes words ≤ space := by
  simp [wordsFit]

/-- How many files the system looks at on the way to a program. What carries out the script of a
program is the last of them. -/
def interpreterLimit : Nat := 6

/-- A program that cannot be used for this reason is not looked for in further directories. -/
def SystemError.endsSearch : SystemError → Bool
  | .notFound | .notADirectory | .permissionDenied => false
  | _ => true

namespace FileView

/-- The file at a path, if it may be run: its place and its content. -/
def executable (v : FileView) (p : Path) : Except SystemError (Location × ByteArray) := do
  let here ← v.tree.locate v.workDir p
  match v.tree.get? here with
  | some (.file content true) => return (here, content)
  | some _ => throw .permissionDenied
  | none => throw .notFound

/-- What is started when the file at a path is run by a name. A file that names a program in its
first line is given to that program, before its own arguments and instead of its own name; `room`
is how many more files may be looked at, and `space` how many bytes the words may take. -/
def startable (v : FileView) (isProgram : Location → Bool) (space : Nat) :
    Nat → Path → String → List String → Except SystemError Startable
  | room, p, name, args => do
    let (here, content) ← v.executable p
    if !wordsFit space (name :: args) then throw .argumentTooLong
    match room with
    | 0 => throw .tooManyInterpreters
    | room + 1 =>
      if isProgram here then
        if room = 0 then throw .tooManyInterpreters
        return ⟨here, args, v.workDir⟩
      match Interpreter.ofContent? content with
      | none => throw .notAProgram
      | some i =>
        let args := i.argument.toList ++ p.text :: args
        -- The new words are put in place before their program is looked for.
        if !wordsFit space (i.program :: args) then throw .argumentTooLong
        v.startable isProgram space room i.path i.program args

end FileView

/-- What is started when a program is given by its name alone: the first directory that has it
counts. When none has it, a place where it may not be run is the reason, else the last directory
says why. -/
def searchIn (startable : Path → Except SystemError Startable) (name : String) :
    List Path → SystemError → Except SystemError Startable
  | [], fault => throw fault
  | dir :: dirs, fault =>
    match startable (inSearchDirectory dir name) with
    | .ok s => return s
    | .error e =>
      if e.endsSearch then throw e
      else searchIn startable name dirs (if fault = .permissionDenied then fault else e)

namespace Host

def record (e : Event) : HostM Unit := modify fun h => { h with events := h.events ++ [e] }

instance : Log.Writer HostM where
  write r := record (.logged r)

def print (text : String) : HostM Unit := record (.printed text)

def childDir (h : Host) (i : Invocation) : Except SystemError Location :=
  match i.dir with
  | none => .ok h.workDir
  | some dir => do
    let here ← h.tree.locate h.workDir dir
    match h.tree.get? here with
    | some .directory => return here
    | some (.file _ _) => throw .notADirectory
    | none => throw .notFound

/-- The room for the words of a program that is started by a path. Beside them stand the path and,
for each word, a pointer to it. -/
def wordSpace (h : Host) (p : Path) (args : List String) : Nat :=
  h.argumentRoom - (8 * (args.length + 1) + wordBytes [p.text])

/-- What is started when a program is run. A name with a slash is a path seen from the directory
that the program runs in; any other name is looked for in the search path. -/
def find (h : Host) (i : Invocation) : Except SystemError Startable := do
  if i.hasNul then throw .nulInData
  let v : FileView := { h.toFileView with workDir := ← h.childDir i }
  let isProgram (here : Location) : Bool := (h.scripts.lookup here).isSome
  let startable (p : Path) :=
    v.startable isProgram (h.wordSpace p i.args) interpreterLimit p i.program i.args
  if i.program = "" then throw .notFound
  else if i.program.toList.contains '/' then startable ⟨i.program⟩
  else searchIn startable i.program h.searchPath .notFound

/-- A run that is over: how it ended and what it printed. -/
structure Finished where
  status : WaitStatus
  output : String
  deriving DecidableEq, Repr

/-- Start a program and wait for its end. What it prints is not shown yet. -/
def start (i : Invocation) : HostM (Except SystemError Finished) := do
  let h ← get
  match h.find i with
  | .error e =>
    record (.tried ⟨i, .error e⟩)
    return .error e
  | .ok s =>
    record (.started s.call)
    let script := (h.scripts.lookup s.program).getD {}
    modify fun h =>
      { h with scripts := (s.program, script.advance) :: h.scripts.filter (·.1 ≠ s.program) }
    record (.tried ⟨i, .ok script.ending⟩)
    return .ok ⟨script.ending, script.output⟩

def runShown (i : Invocation) : HostM (Except SystemError WaitStatus) := do
  match ← start i with
  | .error e => return .error e
  | .ok finished =>
    print finished.output
    return .ok finished.status

/-- Pauses take exactly as long as they should, and nothing else takes time. -/
instance : ProcessControl HostM where
  runQuietly program args := do
    match ← start { program, args } with
    | .error e => return .error e
    | .ok finished => return .ok finished.status
  now := return (← get).clock
  pause d := modify fun h => { h with clock := h.clock + d }

end Host

end RiscvBoot
