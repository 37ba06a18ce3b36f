import RiscvBoot.Report.Configuration
import RiscvBoot.Report.Checkup
import RiscvBoot.Host.Steps
import RiscvBoot.Project.SweepOrder

/-!
# The commands

What each command does on a host. A command that needs a setup resolves it first and reports
what is doubtful about it; the command that stops emulators needs less and never fails.
-/

set_option autoImplicit false

namespace RiscvBoot.Command

/-- The setup of a request, with its warnings in the log. -/
def openSetup (cwd : Path) (request : Request) : HostM (Except CommandError Setup) := do
  let v := (← get).toFileView
  (Setup.doubts v cwd request).forM fun d =>
    Host.record (.logged ⟨.warn, .choice, d.message⟩)
  return (Setup.resolve v cwd request).mapError .setup

def withSetup (cwd : Path) (request : Request) (use : Setup → HostM (Except CommandError Int)) :
    HostM (Except CommandError Int) := do
  match ← openSetup cwd request with
  | .error e => return .error e
  | .ok s => use s

/-- Whom to stop, with the warnings in the log. -/
def openSweepOrder (cwd : Path) (given : Choice) (strict : Bool) : HostM SweepOrder := do
  let v := (← get).toFileView
  (SweepOrder.warnings v cwd given strict).forM fun r => Host.record (.logged r)
  return SweepOrder.resolve v cwd given strict

def runner (s : Setup) : Runner HostM := ⟨Host.steps s.sweeper s.builder, s.sweepPolicy⟩

/-- Write the manifest that a new project starts from. One that is there is left alone. -/
def init (dir : Path) : HostM (Except CommandError Unit) := do
  let path := dir.join Manifest.fileName
  let v := (← get).toFileView
  if v.isOccupied path then return .error (.alreadyExists path)
  match v.writeText path Manifest.template with
  | .error source => return .error (.unwritable path source)
  | .ok tree =>
    modify fun h => { h with tree }
    Host.print s!"Created {path.text}\n"
    return .ok ()

def config (s : Setup) (format : Option String) : HostM (Except CommandError Unit) := do
  match s.render format with
  | .error e => return .error e
  | .ok text =>
    Host.print text
    return .ok ()

def build (s : Setup) : HostM (Except CommandError Unit) := do
  Host.print s!"Target: {s.target.buildTarget}\n"
  match ← (runner s).build s.target with
  | .error e => return .error (.building e)
  | .ok () =>
    Host.print s!"Image:  {s.image.text}\n"
    return .ok ()

/-- Stop stale emulators, build the kernel and boot it. The result is the emulator's exit code. -/
def run (s : Setup) (emulatorArgs : List String) : HostM (Except CommandError Int) := do
  match ← (runner s).run (s.plan emulatorArgs) with
  | .error e => return .error (.running e)
  | .ok report =>
    Host.record (.logged ⟨.debug, .command, s!"run finished\n{report.describe}"⟩)
    return .ok report.exit.exitCode

/-- Stop stale emulators and say what came of it. -/
def kill (t : SweepOrder) : HostM Unit := do
  let status ← sweepAnyway t.sweeper.sweep t.target
  Host.print (status.sentence t.target.emulator)

end RiscvBoot.Command
