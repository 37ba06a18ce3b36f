import RiscvBoot.Choice

/-!
# Reading the command line

Options may stand before or after the name of the command, which makes two levels. At each level
an option that takes a value may be given once, and the value may be attached with `=` or follow
as the next argument. An option that still waits for its value is settled only when another
option, the first argument after `--` or the end of the level makes it necessary, so an unknown
option is reported before a missing value.
-/

set_option autoImplicit false

namespace RiscvBoot

inductive CommandName where
  | build
  | kill
  | run
  | config
  | doctor
  | init
  deriving DecidableEq, Repr

namespace CommandName

def all : List CommandName := [.build, .kill, .run, .config, .doctor, .init]

def name : CommandName → String
  | .build => "build"
  | .kill => "kill-qemu"
  | .run => "run"
  | .config => "config"
  | .doctor => "doctor"
  | .init => "init"

def ofName? (text : String) : Option CommandName := all.find? (·.name = text)

end CommandName

namespace CommandLine

inductive ValueOption where
  | arch
  | harts
  | format
  deriving DecidableEq, Repr

namespace ValueOption

def name : ValueOption → String
  | .arch => "arch"
  | .harts => "harts"
  | .format => "format"

/-- The option with the name of its value. -/
def usage : ValueOption → String
  | .arch => "--arch <ARCH>"
  | .harts => "--harts <HARTS>"
  | .format => "--format <FORMAT>"

/-- The options of a level: the root has no format, and of the commands only one has. -/
def ofLevel : Option CommandName → List ValueOption
  | some .config => [.arch, .harts, .format]
  | _ => [.arch, .harts]

end ValueOption

inductive Stop where
  | help
  | version
  /-- The arguments make no sense. -/
  | usage
  | missingValue (option : ValueOption)
  deriving DecidableEq, Repr

structure Given where
  arch : Option String := none
  harts : Option String := none
  format : Option String := none
  strict : Bool := false
  verbosity : Nat := 0
  trailing : List String := []
  deriving DecidableEq, Repr, Inhabited

namespace Given

def value? (g : Given) : ValueOption → Option String
  | .arch => g.arch
  | .harts => g.harts
  | .format => g.format

def setValue (g : Given) (text : String) : ValueOption → Given
  | .arch => { g with arch := some text }
  | .harts => { g with harts := some text }
  | .format => { g with format := some text }

/-- Take a value for an option that has none yet. -/
def take (g : Given) (o : ValueOption) (text : String) : Except Stop Given :=
  if (g.value? o).isSome then .error .usage else .ok (g.setValue text o)

end Given

/-- A level that is being read: what it was given, and the last option with its value, if that
has come. -/
structure Level where
  given : Given := {}
  pending : Option (ValueOption × Option String) := none
  deriving DecidableEq, Repr, Inhabited

namespace Level

def settle (l : Level) : Except Stop Given :=
  match l.pending with
  | none => .ok l.given
  | some (o, none) => .error (.missingValue o)
  | some (o, some text) => l.given.take o text

/-- The last option still waits for its value. -/
def awaits (l : Level) : Option ValueOption :=
  match l.pending with
  | some (o, none) => some o
  | _ => none

end Level

/-- What an argument is by its form. -/
inductive Shape where
  | plain
  | separator
  /-- A long option with the value attached to it. -/
  | long (name : String) (value : Option String)
  /-- One or more short options in a row. -/
  | short (letters : List Char)
  deriving DecidableEq, Repr

/-- The text before the first `=`, and the text after it if there is one. -/
def splitValue (cs : List Char) : String × Option String :=
  let name := cs.takeWhile (· ≠ '=')
  match cs.drop name.length with
  | [] => (String.ofList name, none)
  | _ :: value => (String.ofList name, some (String.ofList value))

def Shape.of (arg : String) : Shape :=
  match arg.toList with
  | ['-', '-'] => .separator
  | '-' :: '-' :: cs =>
    let (name, value) := splitValue cs
    .long name value
  | '-' :: c :: cs => .short (c :: cs)
  | _ => .plain

/-- Take a flag of a level by its long name. -/
def takeFlag (level : Option CommandName) (name : String) (l : Level) : Except Stop Level :=
  match name with
  | "strict" => do
    let g ← l.settle
    if g.strict then throw .usage else return ⟨{ g with strict := true }, none⟩
  | "verbose" => do
    let g ← l.settle
    return ⟨{ g with verbosity := g.verbosity + 1 }, none⟩
  | "help" => do
    let _ ← l.settle
    throw .help
  | "version" =>
    if level.isSome then throw .usage
    else do
      let _ ← l.settle
      throw .version
  | _ => throw .usage

def takeLong (level : Option CommandName) (name : String) (value : Option String) (l : Level) :
    Except Stop Level :=
  match (ValueOption.ofLevel level).find? (·.name = name), value with
  | some o, none => do return ⟨← l.settle, some (o, none)⟩
  | some o, some text => do return ⟨← (← l.settle).take o text, none⟩
  | none, none => takeFlag level name l
  | none, some _ => throw .usage

def takeShort (level : Option CommandName) (l : Level) (letter : Char) : Except Stop Level :=
  match letter with
  | 'v' => takeFlag level "verbose" l
  | 'h' => takeFlag level "help" l
  | 'V' => takeFlag level "version" l
  | _ => throw .usage

/-- The arguments after `--`, which only one command takes. -/
def takeTrailing (level : Option CommandName) (l : Level) (args : List String) :
    Except Stop Given :=
  if args = [] then l.settle
  else if level = some .run then do return { (← l.settle) with trailing := args }
  else throw .usage

def readCommand (command : CommandName) : Level → List String → Except Stop Given
  | l, [] => l.settle
  | l, arg :: rest =>
    match Shape.of arg with
    | .plain =>
      match l.awaits with
      | some o => readCommand command { l with pending := some (o, some arg) } rest
      | none => throw .usage
    | .separator => takeTrailing (some command) l rest
    | .long name value => do readCommand command (← takeLong (some command) name value l) rest
    | .short letters => do
      readCommand command (← letters.foldlM (takeShort (some command)) l) rest

/-- What comes of asking for help by the command for it: it takes the name of one command. -/
def helpOn : List String → Stop
  | [] => .help
  | [name] => if name = "help" ∨ (CommandName.ofName? name).isSome then .help else .usage
  | _ => .usage

/-- Read the arguments before the name of the command, and then those of the command. -/
def readRoot : Level → List String → Except Stop (Given × CommandName × Given)
  | l, [] => do
    let _ ← l.settle
    throw .usage
  | l, arg :: rest =>
    match Shape.of arg with
    | .plain =>
      match l.awaits with
      | some o => readRoot { l with pending := some (o, some arg) } rest
      | none =>
        if arg = "help" then throw (helpOn rest)
        else
          match CommandName.ofName? arg with
          | some command => do
            let inner ← readCommand command {} rest
            return (← l.settle, command, inner)
          | none => throw .usage
    | .separator => do
      let _ ← takeTrailing none l rest
      throw .usage
    | .long name value => do readRoot (← takeLong none name value l) rest
    | .short letters => do readRoot (← letters.foldlM (takeShort none) l) rest

structure Environment where
  arch : Option String := none
  harts : Option String := none
  targetDir : Option String := none
  /-- Which records of the log are shown, whatever the verbosity. -/
  logFilter : Option String := none
  /-- Whether the log has colours: `always`, `never`, or what the two variables below say. -/
  logStyle : Option String := none
  /-- No colours, unless this is empty. -/
  noColor : Option String := none
  /-- Colours although nobody watches, unless this is empty. -/
  forceColor : Option String := none
  deriving DecidableEq, Repr, Inhabited

/-- A command with everything that was given to it. -/
structure Arguments where
  command : CommandName
  choice : Choice
  strict : Bool
  verbosity : Nat
  format : Option String
  emulatorArgs : List String
  deriving DecidableEq, Repr

/-- Put the two levels and the environment together. The level of the command goes before the
other one, and both go before the environment. -/
def merge (env : Environment) (root : Given) (command : CommandName) (inner : Given) :
    Arguments where
  command := command
  choice := Choice.ofLayers
    [⟨inner.arch, inner.harts⟩, ⟨root.arch, root.harts⟩, ⟨env.arch, env.harts⟩]
  strict := inner.strict || root.strict
  verbosity := if inner.verbosity = 0 then root.verbosity else inner.verbosity
  format := inner.format
  emulatorArgs := inner.trailing

def read (env : Environment) (args : List String) : Except Stop Arguments := do
  let (root, command, inner) ← readRoot {} args
  return merge env root command inner

end CommandLine

end RiscvBoot
