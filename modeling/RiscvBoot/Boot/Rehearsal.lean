import RiscvBoot.Boot.Basic

/-!
# Rehearsals

A rehearsal is a run over steps that take their answers from lists. It keeps a journal of
the steps that were called, in order, and the log. A list that is used up answers with success:
nothing was running, the build is fine, and the emulator ends with code 0.
-/

set_option autoImplicit false

namespace RiscvBoot

namespace Rehearsal

inductive Entry where
  | sweep (name : String)
  | build (buildTarget : String)
  | launch (command : EmulatorCommand)
  deriving DecidableEq, Repr

end Rehearsal

/-- The answers that are left, and what has happened so far. -/
structure Rehearsal where
  sweeps : List (Except SweepError Swept) := []
  builds : List (Except BootError Unit) := []
  launches : List (Except BootError GuestExit) := []
  policy : SweepPolicy := .keepGoing
  journal : List Rehearsal.Entry := []
  records : List Log.Record := []

namespace Rehearsal

instance : Log.Writer (StateM Rehearsal) where
  write record := modify fun r => { r with records := r.records ++ [record] }

def steps : Steps (StateM Rehearsal) where
  sweep name := modifyGet fun r =>
    (r.sweeps.headD (.ok .notFound),
      { r with sweeps := r.sweeps.tail, journal := r.journal ++ [.sweep name] })
  build buildTarget := modifyGet fun r =>
    (r.builds.headD (.ok ()),
      { r with builds := r.builds.tail, journal := r.journal ++ [.build buildTarget] })
  launch command := modifyGet fun r =>
    (r.launches.headD (.ok ⟨some 0⟩),
      { r with launches := r.launches.tail, journal := r.journal ++ [.launch command] })

inductive Operation where
  | run (plan : BootPlan)
  | sweep (target : Target)
  | build (target : Target)
  | setPolicy (policy : SweepPolicy)
  /-- The runner is taken apart, and its steps are put together anew. -/
  | rebuild
  /-- The first step without a runner, which is put together anew afterwards. -/
  | standaloneSweep (target : Target)
  /-- The command that stops emulators, without a runner as above. -/
  | killEmulator (target : Target)
  deriving DecidableEq, Repr

inductive Answer where
  | report (report : BootReport)
  | status (status : SweepStatus)
  | built
  | policySet
  | rebuilt
  | printed (text : String)
  | failed (error : BootError)
  deriving DecidableEq, Repr

/-- Put the runner together anew, which forgets the policy. -/
def rebuild : StateM Rehearsal Unit := modify fun r => { r with policy := .keepGoing }

def perform (operation : Operation) : StateM Rehearsal Answer := do
  let runner : Runner (StateM Rehearsal) := ⟨steps, (← get).policy⟩
  match operation with
  | .run plan =>
    match ← runner.run plan with
    | .ok report => return .report report
    | .error e => return .failed e
  | .sweep target => return .status (← runner.sweep target)
  | .build target =>
    match ← runner.build target with
    | .ok () => return .built
    | .error e => return .failed e
  | .setPolicy policy =>
    modify fun r => { r with policy }
    return .policySet
  | .rebuild =>
    rebuild
    return .rebuilt
  | .standaloneSweep target =>
    let status ← sweepAnyway steps.sweep target
    rebuild
    return .status status
  | .killEmulator target =>
    let status ← sweepAnyway steps.sweep target
    rebuild
    return .printed (status.sentence target.emulator)

end Rehearsal

end RiscvBoot
