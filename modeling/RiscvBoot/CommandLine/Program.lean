import RiscvBoot.Command.Basic
import RiscvBoot.CommandLine.Arguments
import RiscvBoot.Text.ControlSequences
import RiscvBoot.Text.WhiteSpace

/-!
# The program

A command line is read and its command is run on a host. What was printed becomes the standard
output. The records of the log that are urgent enough become the error output, with the error that
ended the command as its last line.
-/

set_option autoImplicit false

namespace RiscvBoot.CommandLine

structure Outcome where
  code : Int
  out : String
  err : String
  deriving DecidableEq, Repr

def helpText : String :=
  "Build and boot a RISC-V kernel under QEMU\n\n" ++
  "Usage: hartctl [OPTIONS] <COMMAND>\n\n" ++
  "Commands:\n" ++
  "  build      Build the kernel for the selected architecture\n" ++
  "  kill-qemu  Stop running emulator instances for the selected architecture\n" ++
  "  run        Stop stale emulators, build, and boot the kernel\n" ++
  "  config     Show the resolved configuration\n" ++
  "  doctor     Check toolchain and emulator availability\n" ++
  "  init       Write a template hartctl.toml in the current directory\n" ++
  "  help       Print this message\n\n" ++
  "Options:\n" ++
  "      --arch <ARCH>    Architecture family (rv32, rv64) [env: ARCH]\n" ++
  "      --harts <HARTS>  Number of harts for the emulated machine [env: HARTS]\n" ++
  "      --strict         Reject unknown architectures and malformed hart counts\n" ++
  "  -v, --verbose        Increase log verbosity (-v debug, -vv trace)\n" ++
  "  -h, --help           Print help\n" ++
  "  -V, --version        Print version\n"

def usageText : String :=
  "Usage: hartctl [OPTIONS] <COMMAND>\n\nFor more information, try '--help'.\n"

/-- The control sequence that starts a style of a terminal, given by its number. -/
def style (number : Nat) : String := s!"\x1b[{number}m"

def bold : String := style 1

def red : String := style 31

def green : String := style 32

def yellow : String := style 33

def blue : String := style 34

def cyan : String := style 36

def gray : String := style 90

/-- Text in a style, with the plain style restored after it. -/
def styled (start text : String) : String := start ++ text ++ style 0

/-- Colours are wanted although nobody watches. -/
def Environment.forcesColors (env : Environment) : Bool :=
  env.noColor.getD "" = "" && env.forceColor.getD "" ≠ ""

/-- What is said when an option has no value. -/
def missingValueText (colors : Bool) (o : ValueOption) : String :=
  let paint (start text : String) := if colors then styled start text else text
  paint (bold ++ red) "error:" ++ " a value is required for '" ++ paint yellow o.usage ++
    "' but none was supplied\n\n" ++
    "For more information, try '" ++ paint bold "--help" ++ "'.\n"

/-- What the caller sees if no command is run. -/
def Stop.outcome (env : Environment) : Stop → Outcome
  | .help => ⟨0, helpText, ""⟩
  | .version => ⟨0, s!"hartctl {Checkup.version}\n", ""⟩
  | .usage => ⟨2, "", usageText⟩
  | .missingValue o => ⟨2, "", missingValueText env.forcesColors o⟩

/-- The least urgent rank that a filter shows. An empty filter shows errors only, and a word that
is no level shows nothing. -/
def filterRank (filter : String) : Nat :=
  match (Text.trimmed filter).toLower with
  | "" => Log.Level.error.rank
  | "error" => Log.Level.error.rank
  | "warn" => Log.Level.warn.rank
  | "info" => Log.Level.info.rank
  | "debug" => Log.Level.debug.rank
  | "trace" => Log.Level.trace.rank
  | _ => 0

/-- The least urgent rank that is shown. -/
def shownRank (filter : Option String) (verbosity : Nat) : Nat :=
  match filter, verbosity with
  | some text, _ => filterRank text
  | none, 0 => Log.Level.info.rank
  | none, 1 => Log.Level.debug.rank
  | none, _ => Log.Level.trace.rank

def Environment.colorsLog (env : Environment) : Bool :=
  match env.logStyle with
  | some "always" => true
  | some "never" => false
  | _ => env.forcesColors

def levelStyle : Log.Level → String
  | .error => bold ++ red
  | .warn => yellow
  | .info => green
  | .debug => blue
  | .trace => cyan

/-- A record as it is shown. Without colours nothing in it may act on a terminal; when a control
string in it is not closed, the string takes the end of the line with it. -/
def recordLine (colors : Bool) (r : Log.Record) : String :=
  let level := Text.padRight 5 r.level.name
  let text := Text.hangingIndent r.text ++ "\n"
  if colors then
    let bracket := styled gray
    bracket "[" ++ styled (levelStyle r.level) level ++ bracket "]" ++ " " ++ text
  else Text.withoutControls (s!"[{level}] " ++ text)

def printedText (events : List Event) : String :=
  String.join (events.filterMap fun
    | .printed text => some text
    | _ => none)

def loggedText (colors : Bool) (rank : Nat) (events : List Event) : String :=
  String.join (events.filterMap fun
    | .logged r => if r.level.rank ≤ rank then some (recordLine colors r) else none
    | _ => none)

/-- What a command line and the environment ask for. -/
def Arguments.request (a : Arguments) (env : Environment) : Request :=
  ⟨a.choice, a.strict, env.targetDir.map Path.mk⟩

/-- Run the command of a command line in a directory. The result is the exit code. -/
def perform (cwd : Path) (env : Environment) (a : Arguments) :
    HostM (Except CommandError Int) := do
  let withSetup := Command.withSetup cwd (a.request env)
  let succeed (work : HostM (Except CommandError Unit)) := do
    return (← work).map fun () => 0
  match a.command with
  | .build => withSetup fun s => succeed (Command.build s)
  | .config => withSetup fun s => succeed (Command.config s a.format)
  | .run => withSetup fun s => Command.run s a.emulatorArgs
  | .init => succeed (Command.init cwd)
  | .doctor =>
    Checkup.report cwd
    return .ok 0
  | .kill =>
    Command.kill (← Command.openSweepOrder cwd a.choice a.strict)
    return .ok 0

def errorLine : Except CommandError Int → String
  | .ok _ => ""
  | .error e => s!"error: {e.message}\n"

/-- Run the program in the working directory of a host, unless its arguments stop it. -/
def run (env : Environment) (args : List String) : HostM (Except Stop Outcome) := do
  match read env args with
  | .error stop => return .error stop
  | .ok a =>
    let before := (← get).events.length
    let result ← perform (← get).workDir.toPath env a
    let events := (← get).events.drop before
    return .ok {
      code := result.toOption.getD 1
      out := printedText events
      err :=
        loggedText env.colorsLog (shownRank env.logFilter a.verbosity) events ++
          errorLine result }

end RiscvBoot.CommandLine
