import RiscvBoot.Boot.Error
import RiscvBoot.Project.Setup

/-!
# Why a command fails

The errors of the commands, each with the chain of messages that the operator sees.
-/

set_option autoImplicit false

namespace RiscvBoot

inductive CommandError where
  | setup (inner : SetupError)
  | building (inner : BootError)
  | running (inner : BootError)
  /-- A number of the settings is too large for the format it is to be shown in. -/
  | outOfRange
  | unknownFormat (name : String)
  | alreadyExists (path : Path)
  | unwritable (path : Path) (source : SystemError)
  deriving DecidableEq, Repr

namespace CommandError

/-- The messages of an error and of the errors behind it, outermost first. -/
def causes : CommandError → List String
  | .setup inner => inner.causes
  | .building inner => "building kernel" :: inner.causes
  | .running inner => "running kernel" :: inner.causes
  | .outOfRange =>
    ["serializing configuration as TOML", "out-of-range value for u64 type"]
  | .unknownFormat name => [s!"unknown format: '{name}'. Choose: human, toml, json"]
  | .alreadyExists path => [s!"{path.text} already exists"]
  | .unwritable path source => [s!"writing {path.text}", source.message]

def message (e : CommandError) : String := Text.chained e.causes

end CommandError

end RiscvBoot
