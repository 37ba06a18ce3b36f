import RiscvBoot.Kernel.Build
import RiscvBoot.Host.Basic
import RiscvBoot.Boot.Basic

/-!
# The steps of a run on a host

Building and booting by programs of the host. The emulator is started only if there is an image,
and the build counts as failed unless its program ended well.
-/

set_option autoImplicit false

namespace RiscvBoot

def BuildCommand.run (b : BuildCommand) (buildTarget : String) :
    HostM (Except BootError Unit) := do
  Log.info s!"building kernel for {buildTarget}"
  Log.debug (b.describe buildTarget)
  match ← Host.runShown ⟨b.program, b.args buildTarget, some b.dir⟩ with
  | .error source => return .error (.toolchain b.program source)
  | .ok status =>
    if status.isSuccess then return .ok ()
    else return .error (.buildFailed buildTarget (status.code?.map Int.ofNat))

def EmulatorCommand.run (c : EmulatorCommand) : HostM (Except BootError GuestExit) := do
  if ¬(← get).isFile c.kernel then return .error (.missingArtifact c.kernel)
  Log.info s!"launching {c.emulator} ({c.harts.text} harts, machine {c.machine})"
  Log.debug c.asLine
  match ← Host.runShown ⟨c.emulator, c.args, none⟩ with
  | .error .notFound => return .error (.emulatorNotFound c.emulator)
  | .error source => return .error (.launch c.emulator source)
  | .ok status =>
    let exit := GuestExit.ofStatus status
    Log.info s!"{c.emulator} exited with code {exit.exitCode}"
    return .ok exit

def Host.steps (sweeper : Sweeper) (builder : BuildCommand) : Steps HostM where
  sweep name := sweeper.sweep name
  build buildTarget := builder.run buildTarget
  launch command := command.run

end RiscvBoot
