import RiscvBoot.Path
import RiscvBoot.Sweep.Basic

/-!
# Why a run ends early

The errors of the three steps. An error that comes from another one names it in its own message,
and the chain of causes has it once more.
-/

set_option autoImplicit false

namespace RiscvBoot

/-- Why a run ends without a report. -/
inductive BootError where
  | sweep (inner : SweepError)
  | toolchain (program : String) (source : SystemError)
  | buildFailed (buildTarget : String) (code : Option Int)
  | missingArtifact (path : Path)
  | emulatorNotFound (program : String)
  /-- The emulator is there but could not be started. -/
  | launch (program : String) (source : SystemError)
  deriving DecidableEq, Repr

namespace BootError

def message : BootError → String
  | .sweep inner => s!"stale emulator cleanup failed: {inner.message}"
  | .toolchain program source =>
    s!"failed to run build toolchain '{program}': {source.message}"
  | .buildFailed buildTarget code =>
    s!"kernel build for {buildTarget} failed ({describeEnd code})"
  | .missingArtifact path => s!"kernel image not found at {path.text}"
  | .emulatorNotFound program => s!"emulator '{program}' not found in PATH"
  | .launch program source => s!"failed to launch emulator '{program}': {source.message}"

/-- The messages of an error and of the errors behind it, outermost first. -/
def causes : BootError → List String
  | e@(.sweep inner) => e.message :: inner.causes
  | e@(.toolchain _ source) => [e.message, source.message]
  | e@(.launch _ source) => [e.message, source.message]
  | e => [e.message]

end BootError

end RiscvBoot
