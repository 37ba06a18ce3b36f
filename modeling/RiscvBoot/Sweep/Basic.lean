import RiscvBoot.Duration
import RiscvBoot.Log
import RiscvBoot.Process.Failure
import RiscvBoot.Process.Status
import RiscvBoot.Sweep.Pattern

/-!
# Stopping stale emulators

A `Sweeper` asks a kill program to end every process that matches a pattern, and then a probe
program whether any is left. After a request that reached something it probes again and again,
with a pause between two probes, until nothing matches or the settle time is over; after a request
that reached nothing it probes once, because the kill program ends the same way whether nothing
matched or nothing could be signalled.

Programs, clock and pauses come from `ProcessControl`, so the same text works on a host and on a
script. `Sweeper.sweep?` takes a bound on the number of probes and gives nothing when the bound is
too small; `Sweeper.probeLimit` is large enough wherever a pause takes as long as it should.
-/

set_option autoImplicit false

namespace RiscvBoot

/-- What a sweeper needs from its surroundings. -/
class ProcessControl (m : Type → Type) where
  /-- Run a program to its end without showing what it prints. -/
  runQuietly : (program : String) → (args : List String) → m (Except SystemError WaitStatus)
  now : m Instant
  /-- Wait for at least this long. -/
  pause : Duration → m Unit

inductive Swept where
  /-- At least one process was signalled, and none is left. -/
  | terminated
  /-- No process was running. -/
  | notFound
  deriving DecidableEq, Repr

inductive SweepError where
  | spawn (program : String) (source : SystemError)
  | failed (program : String) (code : Option Int)
  | notSignalled (name : String)
  | stillRunning (name : String) (waited : Duration)
  deriving DecidableEq, Repr

namespace SweepError

def message : SweepError → String
  | .spawn program source => s!"failed to run {program}: {source.message}"
  | .failed program code => s!"{program} failed ({describeEnd code})"
  | .notSignalled name => s!"{name} is running but could not be signalled"
  | .stillRunning name waited =>
    s!"{name} still running {waited.millis} ms after termination was requested"

/-- The messages of an error and of the errors behind it, outermost first. -/
def causes : SweepError → List String
  | e@(.spawn _ source) => [e.message, source.message]
  | e => [e.message]

end SweepError

structure Sweeper where
  killer : String := "pkill"
  prober : String := "pgrep"
  settleTimeout : Duration := .usualSettleTime
  deriving DecidableEq, Repr, Inhabited

namespace Sweeper

def probePause : Duration := .ofMillis 50

section Run

variable {m : Type → Type} [Monad m] [ProcessControl m]

/-- One probe. Only a probe that ends well says that something matches. -/
def anyLeft (s : Sweeper) (pattern : String) : m (Except SweepError Bool) := do
  match ← ProcessControl.runQuietly s.prober ["-f", pattern] with
  | .error source => return .error (.spawn s.prober source)
  | .ok status => return .ok status.isSuccess

/-- Probe until nothing matches or the settle time is over since `start`, at most `fuel` times. -/
def awaitExit (s : Sweeper) (name pattern : String) (start : Instant) :
    Nat → m (Option (Except SweepError Swept))
  | 0 => return none
  | fuel + 1 => do
    match ← s.anyLeft pattern with
    | .error e => return some (.error e)
    | .ok false => return some (.ok .terminated)
    | .ok true =>
      let waited := (← ProcessControl.now).since start
      if s.settleTimeout ≤ waited then
        return some (.error (.stillRunning name waited))
      else
        ProcessControl.pause probePause
        s.awaitExit name pattern start fuel

/-- What becomes of a request, by the way in which the kill program ended. -/
def follow (s : Sweeper) (name pattern : String) (status : WaitStatus) (fuel : Nat) :
    m (Option (Except SweepError Swept)) := do
  match status.code? with
  | some 0 => s.awaitExit name pattern (← ProcessControl.now) fuel
  | some 1 =>
    match ← s.anyLeft pattern with
    | .error e => return some (.error e)
    | .ok true => return some (.error (.notSignalled name))
    | .ok false => return some (.ok .notFound)
  | code => return some (.error (.failed s.killer (code.map Int.ofNat)))

variable [Log.Writer m]

/-- Ask every process that runs `name` to end, and see to it that none is left, with at most
`fuel` probes. -/
def sweep? (s : Sweeper) (name : String) (fuel : Nat) :
    m (Option (Except SweepError Swept)) := do
  let pattern := patternFor name
  Log.debug s!"{s.killer} -f '{pattern}'"
  match ← ProcessControl.runQuietly s.killer ["-f", pattern] with
  | .error source => return some (.error (.spawn s.killer source))
  | .ok status => s.follow name pattern status fuel

/-- As many probes as fit into the settle time, and one more. -/
def probeLimit (s : Sweeper) : Nat :=
  (s.settleTimeout.micros + probePause.micros - 1) / probePause.micros + 1

/-- Ask every process that runs `name` to end. The last case is for surroundings whose pauses
are too short. -/
def sweep (s : Sweeper) (name : String) : m (Except SweepError Swept) := do
  match ← s.sweep? name s.probeLimit with
  | some result => return result
  | none => return .error (.stillRunning name s.settleTimeout)

end Run

end Sweeper

end RiscvBoot
