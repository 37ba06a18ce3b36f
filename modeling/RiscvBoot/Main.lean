import RiscvBoot.CommandLine.Program

/-!
# The command line program

The files that a command may read are collected into a tree, the command is run on it, and what
was printed and written is carried out. The host that is built here has no programs, so the
commands that need one report that it is missing.
-/

set_option autoImplicit false

namespace RiscvBoot.Main

/-- The place that an absolute path names. -/
def locationOf (p : Path) : Location :=
  p.components.filterMap fun
    | .name text => some text
    | _ => none

/-- The tree with the file at a path, if there is one. -/
def collect (t : FileTree) (p : Path) : IO FileTree := do
  match ← (IO.FS.readBinFile p.text).toBaseIO with
  | .ok content => return t.plant (locationOf p) (.file content false)
  | .error _ => return t

/-- The settings files at and above a directory. -/
def candidates (cwd : Path) : List Path :=
  cwd.ancestors.flatMap fun dir => [dir.join Manifest.fileName, dir.join packageFile]

/-- The tree of the files that matter in a directory. -/
def collectAll (cwd : Path) : IO FileTree := do
  let here := (FileTree.mk []).makeDirectories (locationOf cwd)
  let tree ← (candidates cwd).foldlM collect here
  match Project.find ⟨tree, locationOf cwd⟩ cwd with
  | .error _ => return tree
  | .ok p => collect tree ((p.manifest.kernelDir p.dir).join packageFile)

def carryOut (before after : FileTree) : IO Unit :=
  after.entries.forM fun e =>
    match e.2, before.get? e.1 with
    | .file content _, none => IO.FS.writeBinFile e.1.toPath.text content
    | _, _ => pure ()

def environment : IO CommandLine.Environment := do
  return {
    arch := ← IO.getEnv "ARCH"
    harts := ← IO.getEnv "HARTS"
    targetDir := ← IO.getEnv "CARGO_TARGET_DIR"
    logFilter := ← IO.getEnv "RUST_LOG"
    logStyle := ← IO.getEnv "RUST_LOG_STYLE"
    noColor := ← IO.getEnv "NO_COLOR"
    forceColor := ← IO.getEnv "CLICOLOR_FORCE" }

def run (args : List String) : IO UInt32 := do
  let cwd : Path := ⟨(← IO.getEnv "PWD").getD "/"⟩
  let tree ← collectAll cwd
  let env ← environment
  let (result, host) := (CommandLine.run env args).run { tree, workDir := locationOf cwd }
  let outcome := match result with
    | .ok outcome => outcome
    | .error stop => stop.outcome env
  carryOut tree host.tree
  IO.print outcome.out
  IO.eprint outcome.err
  return UInt32.ofNat (outcome.code % 256).toNat

end RiscvBoot.Main

def main (args : List String) : IO UInt32 := RiscvBoot.Main.run args
