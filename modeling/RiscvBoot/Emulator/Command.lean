import RiscvBoot.Harts
import RiscvBoot.Path
import RiscvBoot.Process.Status
import RiscvBoot.Text.Lines

/-!
# Starting the emulator

An `EmulatorCommand` says which emulator is started on which kernel, and `EmulatorCommand.args` is
the argument list that says so. A `GuestExit` is how the emulator ended.
-/

set_option autoImplicit false

namespace RiscvBoot

/-- Everything that is needed to start an emulator. -/
structure EmulatorCommand where
  emulator : String
  machine : String
  harts : Harts
  graphics : Bool
  serial : String
  memory : Option String := none
  bios : Option String := none
  kernel : Path
  extraArgs : List String := []
  deriving DecidableEq, Repr

namespace EmulatorCommand

def args (c : EmulatorCommand) : List String :=
  ["-machine", c.machine, "-smp", c.harts.text] ++
    (if c.graphics then [] else ["-nographic"]) ++
    ["-serial", c.serial] ++
    Text.option "-m" c.memory ++
    Text.option "-bios" c.bios ++
    ["-kernel", c.kernel.text] ++
    c.extraArgs

/-- The emulator and its arguments with one space between them, for the log. -/
def asLine (c : EmulatorCommand) : String := Text.unwords (c.emulator :: c.args)

end EmulatorCommand

/-- How the emulator ended; no code means that it ended in a way that has none. -/
structure GuestExit where
  code : Option Int
  deriving DecidableEq, Repr

namespace GuestExit

def isSuccess (e : GuestExit) : Bool := e.code = some 0

def exitCode (e : GuestExit) : Int := e.code.getD 1

/-- A process that a signal ended counts as one that exited with 128 more than the signal. -/
def ofStatus (s : WaitStatus) : GuestExit :=
  match s.signal? with
  | some signal => ⟨some (128 + signal)⟩
  | none => ⟨s.code?.map Int.ofNat⟩

end GuestExit

end RiscvBoot
