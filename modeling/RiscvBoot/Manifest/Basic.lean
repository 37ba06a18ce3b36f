import RiscvBoot.Path
import RiscvBoot.Choice

/-!
# The project manifest

The settings of a project, in four sections that may all be missing. This module holds the
values only; how they are read and written is in `RiscvBoot.Manifest.Schema`.
-/

set_option autoImplicit false

namespace RiscvBoot

/-- What a run does when stopping stale emulators fails. -/
inductive SweepPolicy where
  /-- Warn and go on with the build. -/
  | keepGoing
  | abort
  deriving DecidableEq, Repr

namespace SweepPolicy

instance : Inhabited SweepPolicy := ⟨.keepGoing⟩

def name : SweepPolicy → String
  | .keepGoing => "continue"
  | .abort => "abort"

def title : SweepPolicy → String
  | .keepGoing => "Continue"
  | .abort => "Abort"

def all : List SweepPolicy := [.keepGoing, .abort]

end SweepPolicy

/-- The parts of the emulated machine that a project may tune. -/
structure Tuning where
  memory : Option String := none
  bios : Option String := none
  extraArgs : List String := []
  deriving DecidableEq, Repr, Inhabited

/-- A hart count in a manifest: `harts = 2` or `harts = "2"`. -/
inductive HartsSetting where
  | number (n : UInt64)
  | text (s : String)
  deriving DecidableEq, Repr

def HartsSetting.toText : HartsSetting → String
  | .number n => toString n.toNat
  | .text s => s

/-- Where the kernel crate is and how it is built. -/
structure KernelSettings where
  binary : Option String := none
  package : Option String := none
  dir : Option Path := none
  targetDir : Option Path := none
  buildArgs : List String := []
  deriving DecidableEq, Repr, Inhabited

/-- What holds when neither a flag nor the environment says otherwise. -/
structure DefaultSettings where
  arch : Option String := none
  harts : Option HartsSetting := none
  strict : Bool := false
  deriving DecidableEq, Repr, Inhabited

structure SweepSettings where
  onError : SweepPolicy := .keepGoing
  settleTimeoutMs : Option UInt64 := none
  deriving DecidableEq, Repr, Inhabited

structure Manifest where
  kernel : KernelSettings := {}
  defaults : DefaultSettings := {}
  emulator : Tuning := {}
  sweeper : SweepSettings := {}
  deriving DecidableEq, Repr, Inhabited

namespace Manifest

def fileName : Path := ⟨"hartctl.toml"⟩

def defaultChoice (m : Manifest) : Choice :=
  ⟨m.defaults.arch, m.defaults.harts.map HartsSetting.toText⟩

/-- What a new project starts from. Every setting in it is the default. -/
def template : String :=
  "[kernel]\n" ++
  "# binary = \"kernel\"        # defaults to the [package] name in Cargo.toml\n" ++
  "# package = \"kernel\"\n" ++
  "dir = \".\"\n" ++
  "target-dir = \"target\"\n" ++
  "\n" ++
  "[defaults]\n" ++
  "arch = \"rv64\"\n" ++
  "harts = 4\n" ++
  "strict = false\n" ++
  "\n" ++
  "[emulator]\n" ++
  "# memory = \"128M\"\n" ++
  "# bios = \"default\"\n" ++
  "extra-args = []\n" ++
  "\n" ++
  "[reaper]\n" ++
  "on-error = \"continue\"\n" ++
  "settle-timeout-ms = 2000\n"

end Manifest

end RiscvBoot
