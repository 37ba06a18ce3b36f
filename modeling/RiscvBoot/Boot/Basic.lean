import RiscvBoot.Boot.Error
import RiscvBoot.Boot.Plan

/-!
# Stop, build, boot

A run stops stale emulators, builds the kernel and boots it, in this order, and the first error
that counts ends it. Whether an error of the first step counts is up to the runner's policy;
an error that does not is logged and kept in the report. The three steps are parameters, so the
same order holds on a host and on a script.
-/

set_option autoImplicit false

namespace RiscvBoot

/-- The first step: end every process that runs the emulator of a name. -/
abbrev SweepStep (m : Type → Type) := String → m (Except SweepError Swept)

structure Steps (m : Type → Type) where
  sweep : SweepStep m
  build : String → m (Except BootError Unit)
  launch : EmulatorCommand → m (Except BootError GuestExit)

/-- The result of the first step after the policy has been applied. -/
inductive SweepStatus where
  | terminated
  | notFound
  /-- The step failed, and the run goes on. -/
  | ignored (reason : String)
  deriving DecidableEq, Repr

namespace SweepStatus

def name : SweepStatus → String
  | .terminated => "Terminated"
  | .notFound => "NotFound"
  | .ignored _ => "Ignored"

def describe : SweepStatus → String
  | .terminated => "stale emulator terminated"
  | .notFound => "no stale emulator"
  | .ignored reason => s!"cleanup failed ({reason})"

def sentence (emulator : String) : SweepStatus → String
  | .terminated => s!"Stopped running {emulator}\n"
  | .notFound => s!"No running {emulator}\n"
  | .ignored reason => s!"Could not stop {emulator}: {reason}\n"

end SweepStatus

structure BootReport where
  sweep : SweepStatus
  buildTarget : String
  image : Path
  exit : GuestExit
  deriving DecidableEq, Repr

namespace BootReport

def describe (r : BootReport) : String :=
  s!"Reap:   {r.sweep.describe}\n" ++
  s!"Build:  {r.buildTarget}\n" ++
  s!"Image:  {r.image.text}\n" ++
  s!"Exit:   {r.exit.exitCode}\n"

end BootReport

section Run

variable {m : Type → Type} [Monad m] [Log.Writer m]

/-- The first step under a policy. -/
def sweepUnder (sweep : SweepStep m) (emulator : String) (policy : SweepPolicy) :
    m (Except BootError SweepStatus) := do
  Log.info s!"stopping stale {emulator} instances"
  match ← sweep emulator, policy with
  | .ok .terminated, _ =>
    Log.info s!"terminated running {emulator}"
    return .ok .terminated
  | .ok .notFound, _ => return .ok .notFound
  | .error e, .keepGoing =>
    Log.warn s!"{e.message}; continuing"
    return .ok (.ignored e.message)
  | .error e, .abort => return .error (.sweep e)

/-- The first step by itself. It goes on whatever happens, so it always has a status. -/
def sweepAnyway (sweep : SweepStep m) (target : Target) : m SweepStatus := do
  match ← sweepUnder sweep target.emulator .keepGoing with
  | .ok status => return status
  | .error e => return .ignored e.message

/-- Three steps and a policy for the first of them. -/
structure Runner (m : Type → Type) where
  steps : Steps m
  policy : SweepPolicy := .keepGoing

namespace Runner

/-- Stop stale emulators, whatever the policy. -/
def sweep (r : Runner m) (target : Target) : m SweepStatus :=
  sweepAnyway r.steps.sweep target

def build (r : Runner m) (target : Target) : m (Except BootError Unit) :=
  r.steps.build target.buildTarget

def run (r : Runner m) (plan : BootPlan) : m (Except BootError BootReport) := do
  match ← sweepUnder r.steps.sweep plan.target.emulator r.policy with
  | .error e => return .error e
  | .ok sweep =>
    match ← r.steps.build plan.target.buildTarget with
    | .error e => return .error e
    | .ok () =>
      match ← r.steps.launch plan.command with
      | .error e => return .error e
      | .ok exit => return .ok ⟨sweep, plan.target.buildTarget, plan.image, exit⟩

end Runner

end Run

end RiscvBoot
