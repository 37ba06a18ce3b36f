import RiscvBoot.Host.Basic
import RiscvBoot.Project.Search

/-!
# Checking the tools

Which of the tools can be started and what they say about their version, and which project the
directory belongs to. A tool that can be started counts as found however it ends.
-/

set_option autoImplicit false

namespace RiscvBoot.Checkup

def version : String := "0.1.0"

/-- What is said about a tool that was asked for its version. -/
def toolLine (name : String) : Except SystemError Host.Finished → String
  | .ok finished =>
    s!"  {name}: " ++ (Text.firstLine? finished.output).getD "(unknown version)" ++ "\n"
  | .error _ => s!"  {name}: not found\n"

/-- Ask a tool for its version. -/
def checkTool (name : String) : HostM Unit := do
  Host.print (toolLine name (← Host.start ⟨name, ["--version"], none⟩))

def archLine (a : Isa) : String :=
  s!"  {Text.padRight 5 a.name} {Text.padRight 30 a.buildTarget} {a.emulator}\n"

def projectLines : Except LoadError (Option (Manifest × Path)) → String
  | .ok (some (m, dir)) =>
    s!"  {Manifest.fileName.text}: found at {dir.text}\n" ++
      Text.labelled "Default arch: " m.defaults.arch ++
      Text.labelled "Kernel binary:" m.kernel.binary
  | .ok none => s!"  {Manifest.fileName.text}: not found\n"
  | .error e => s!"  {Manifest.fileName.text}: error: {Text.chained e.causes}\n"

def report (dir : Path) : HostM Unit := do
  Host.print s!"=== hartctl doctor ===\n\nhartctl version: {version}\n\n--- Build ---\n"
  checkTool "cargo"
  checkTool "rustc"
  Host.print "\n--- Emulators ---\n"
  Isa.all.forM fun a => checkTool a.emulator
  Host.print "\n--- Process Control ---\n"
  checkTool "pkill"
  checkTool "pgrep"
  Host.print "\n--- Targets ---\n"
  Isa.all.forM fun a => Host.print (archLine a)
  Host.print "\n--- Project Status ---\n"
  Host.print (projectLines (Manifest.find (← get).toFileView dir))

end RiscvBoot.Checkup
