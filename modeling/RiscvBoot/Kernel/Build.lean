import RiscvBoot.Path
import RiscvBoot.Text.Lines

/-!
# The command that builds the kernel

A `BuildCommand` is the build program with the directory it runs in and the settings that become
its arguments. Settings are replaced one at a time, and the last value of each counts.
-/

set_option autoImplicit false

namespace RiscvBoot

structure BuildCommand where
  dir : Path
  program : String := "cargo"
  targetDir : Option Path := none
  package : Option String := none
  binary : Option String := none
  extraArgs : List String := []
  deriving DecidableEq, Repr

namespace BuildCommand

inductive Setting where
  | program (name : String)
  | targetDir (dir : Path)
  | package (name : Option String)
  | binary (name : Option String)
  | extraArgs (args : List String)
  deriving DecidableEq, Repr

def set (b : BuildCommand) : Setting → BuildCommand
  | .program name => { b with program := name }
  | .targetDir dir => { b with targetDir := some dir }
  | .package name => { b with package := name }
  | .binary name => { b with binary := name }
  | .extraArgs args => { b with extraArgs := args }

def setAll (b : BuildCommand) (settings : List Setting) : BuildCommand := settings.foldl set b

def args (b : BuildCommand) (buildTarget : String) : List String :=
  ["build", "--target", buildTarget] ++
    Text.option "--target-dir" (b.targetDir.map Path.text) ++
    Text.option "--package" b.package ++
    Text.option "--bin" b.binary ++
    b.extraArgs

def describe (b : BuildCommand) (buildTarget : String) : String :=
  s!"{b.program} {Text.unwords (b.args buildTarget)} (in {b.dir.text})"

end BuildCommand

end RiscvBoot
