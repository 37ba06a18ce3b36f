import RiscvBoot.Kernel.Build
import RiscvBoot.Boot.Plan
import RiscvBoot.Project.Settings
import RiscvBoot.Sweep.Basic

/-!
# Setups

A `Setup` is what a project and a request resolve to, and all that building and booting need:
the target, the directory of the kernel crate, where the image is, and the settings of the
machine. Resolving can fail in three ways, one for each constructor of `SetupError`. What is
doubtful about the choice is reported even if resolving fails later on.
-/

set_option autoImplicit false

namespace RiscvBoot

inductive SetupError where
  | load (inner : LoadError)
  | choice (inner : Rejection)
  /-- Nothing names the kernel's executable; the path is where its package would be named. -/
  | noBinary (path : Path)
  deriving DecidableEq, Repr

/-- The messages of an error and of the errors behind it, outermost first. -/
def SetupError.causes : SetupError → List String
  | .load inner => inner.causes
  | .choice inner => ["resolving run configuration", inner.message]
  | .noBinary path =>
    [s!"cannot determine the kernel binary name: no [package] in {path.text}; " ++
      s!"set `binary` under [kernel] in {Manifest.fileName.text}"]

/-- Everything that a command needs to know. -/
structure Setup where
  manifestPath : Option Path
  kernelDir : Path
  target : Target
  policy : Strictness
  layout : Layout
  tuning : Tuning
  sweepPolicy : SweepPolicy
  settleTimeout : Duration
  package : Option String
  /-- The executable, if the manifest names it. -/
  binary : Option String
  buildArgs : List String
  deriving DecidableEq, Repr

/-- The name of the kernel's executable: the manifest's, or that of the package. -/
def Manifest.binaryName (m : Manifest) (v : FileView) (kernelDir : Path) :
    Except SetupError String :=
  match m.kernel.binary with
  | some name => .ok name
  | none =>
    match packageName? v kernelDir with
    | .error e => .error (.load e)
    | .ok (some name) => .ok name
    | .ok none => .error (.noBinary (kernelDir.join packageFile))

namespace Setup

def ofProject (v : FileView) (cwd : Path) (p : Project) (request : Request) :
    Except SetupError Setup := do
  let m := p.manifest
  let policy := m.policyFor request.strict
  let target ← ((m.choiceFor request.choice).resolve policy).mapError .choice
  let kernelDir := m.kernelDir p.dir
  let binary ← m.binaryName v kernelDir
  return {
    manifestPath := p.manifestPath
    kernelDir
    target
    policy
    layout := ⟨m.targetDir cwd kernelDir request.targetDir, binary⟩
    tuning := m.emulator
    sweepPolicy := m.sweeper.onError
    settleTimeout := m.settleTimeout
    package := m.kernel.package
    binary := m.kernel.binary
    buildArgs := m.kernel.buildArgs }

/-- The setup that a request resolves to in a directory. -/
def resolve (v : FileView) (cwd : Path) (request : Request) : Except SetupError Setup := do
  let p ← (Project.find v cwd).mapError .load
  ofProject v cwd p request

/-- What is doubtful about a request in a directory. -/
def doubts (v : FileView) (cwd : Path) (request : Request) : List Doubt :=
  match Project.find v cwd with
  | .error _ => []
  | .ok p =>
    (p.manifest.choiceFor request.choice).doubts (p.manifest.policyFor request.strict)

def image (s : Setup) : Path := s.layout.image s.target.buildTarget

/-- What is run, with more arguments for the emulator. -/
def plan (s : Setup) (extraArgs : List String) : BootPlan :=
  .ofLayout s.target s.layout { s.tuning with extraArgs := s.tuning.extraArgs ++ extraArgs }

def builder (s : Setup) : BuildCommand :=
  BuildCommand.setAll { dir := s.kernelDir }
    [.targetDir s.layout.targetDir, .package s.package, .binary s.binary,
      .extraArgs s.buildArgs]

def sweeper (s : Setup) : Sweeper := { settleTimeout := s.settleTimeout }

end Setup

end RiscvBoot
