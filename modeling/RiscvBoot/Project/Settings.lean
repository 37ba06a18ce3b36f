import RiscvBoot.Duration
import RiscvBoot.Project.Search

/-!
# The settings in force

A `Project` is the nearest manifest with its directory, or the default settings in the working
directory if there is none. A `Request` is what flags and environment ask for. The functions on
`Manifest` say what becomes of a request under the settings of a manifest.
-/

set_option autoImplicit false

namespace RiscvBoot

/-- What flags and environment ask for. -/
structure Request where
  choice : Choice := {}
  strict : Bool := false
  /-- Where the build is told to write, whatever the manifest says. -/
  targetDir : Option Path := none
  deriving DecidableEq, Repr, Inhabited

/-- The settings in force, and the directory that they are relative to. -/
structure Project where
  manifest : Manifest
  manifestPath : Option Path
  dir : Path
  deriving DecidableEq, Repr

namespace Project

/-- The project of a directory with this nearest manifest. -/
def ofFound (cwd : Path) : Option (Manifest × Path) → Project
  | some (manifest, dir) => ⟨manifest, some (dir.join Manifest.fileName), dir⟩
  | none => ⟨{}, none, cwd⟩

/-- The project that a directory belongs to. -/
def find (v : FileView) (cwd : Path) : Except LoadError Project :=
  (Manifest.find v cwd).map (ofFound cwd)

end Project

namespace Manifest

/-- What a request asks for with the manifest's defaults below it. -/
def choiceFor (m : Manifest) (given : Choice) : Choice := given.or m.defaultChoice

/-- A request or the manifest may each make the policy strict. -/
def policyFor (m : Manifest) (strict : Bool) : Strictness := .ofFlag (strict || m.defaults.strict)

/-- How long emulators get to end. -/
def settleTimeout (m : Manifest) : Duration :=
  (m.sweeper.settleTimeoutMs.map fun ms => Duration.ofMillis ms.toNat).getD .usualSettleTime

/-- The directory of the kernel crate. A setting that means the project's own directory leaves
that directory as it is written. -/
def kernelDir (m : Manifest) (projectDir : Path) : Path :=
  match m.kernel.dir with
  | some dir => if dir.sameAs ⟨"."⟩ then projectDir else projectDir.join dir
  | none => projectDir

/-- The directory that the build writes to. One that the request names is relative to the
working directory, one that the manifest names to the kernel crate. -/
def targetDir (m : Manifest) (cwd kernelDir : Path) (given : Option Path) : Path :=
  match given with
  | some dir => cwd.join dir
  | none => kernelDir.join (m.kernel.targetDir.getD ⟨"target"⟩)

end Manifest

end RiscvBoot
