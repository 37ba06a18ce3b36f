import RiscvBoot.Kernel.Layout
import RiscvBoot.Emulator.Command
import RiscvBoot.Manifest.Basic
import RiscvBoot.Choice

/-!
# What is run

A `BootPlan` joins a resolved target, the image that the build leaves and the tunable settings of
the machine. The machine type, the serial line and the absence of a display are fixed.
-/

set_option autoImplicit false

namespace RiscvBoot

def machineType : String := "virt"

/-- The serial line of the guest shares the terminal with the emulator's monitor. -/
def serialBackend : String := "mon:stdio"

structure BootPlan where
  target : Target
  image : Path
  tuning : Tuning := {}
  deriving DecidableEq, Repr

namespace BootPlan

/-- The plan whose image is where the build for its target leaves it. -/
def ofLayout (target : Target) (layout : Layout) (tuning : Tuning) : BootPlan :=
  ⟨target, layout.image target.buildTarget, tuning⟩

def command (p : BootPlan) : EmulatorCommand where
  emulator := p.target.emulator
  machine := machineType
  harts := p.target.harts
  graphics := false
  serial := serialBackend
  memory := p.tuning.memory
  bios := p.tuning.bios
  kernel := p.image
  extraArgs := p.tuning.extraArgs

end BootPlan

end RiscvBoot
