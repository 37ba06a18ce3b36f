import RiscvBoot.Proofs.Boot.Course

/-!
# What a run asks for, and in which order

The kill program comes first, then the probe program as often as it takes, then the build program
and at last the emulator. Which of them come at all, and with which arguments, follows from the
setup and from how the ones before came out.
-/

set_option autoImplicit false

namespace RiscvBoot

open Host

/-- The arguments of the emulator: the fixed ones with the settings between them, then those of
the project, then those of the request. -/
def Setup.emulatorArgs (s : Setup) (extraArgs : List String) : List String :=
  ["-machine", "virt", "-smp", s.target.harts.text, "-nographic", "-serial", "mon:stdio"] ++
    Text.option "-m" s.tuning.memory ++ Text.option "-bios" s.tuning.bios ++
    ["-kernel", s.image.text] ++ s.tuning.extraArgs ++ extraArgs

theorem Setup.args_plan (s : Setup) (extraArgs : List String) :
    (s.plan extraArgs).command.args = s.emulatorArgs extraArgs := by
  simp only [EmulatorCommand.args, plan, BootPlan.ofLayout, BootPlan.command, machineType,
    serialBackend, image, emulatorArgs]
  simp

theorem Setup.bootCall_eq (s : Setup) (extraArgs : List String) :
    s.bootCall extraArgs = ⟨s.target.emulator, s.emulatorArgs extraArgs, none⟩ := by
  rw [← args_plan]
  rfl

structure RunAttempts where
  kill : Attempt
  probes : List Attempt
  build : Option Attempt
  boot : Option Attempt

namespace RunAttempts

/-- The attempts before the image is looked for. -/
def beforeBoot (t : RunAttempts) : List Attempt := t.kill :: t.probes ++ t.build.toList

def all (t : RunAttempts) : List Attempt := t.beforeBoot ++ t.boot.toList

/-- The attempts of a run of a setup that begins on `h`, looks for its image on `between` and ends
on `after`. No program changes the tree of a host, so the image is on `between` if it is on `h`, and
what is started by an attempt can be looked up on `h`. -/
structure InOrder (t : RunAttempts) (s : Setup) (extraArgs : List String)
    (h between after : Host) : Prop where
  attempts : after.attempts = h.attempts ++ t.all
  /-- The programs that were started are those of the attempts that came out well. -/
  calls : after.calls = h.calls ++ t.all.filterMap h.callOfAttempt?
  started : ∀ a ∈ t.all, (h.callOfAttempt? a).isSome ↔ ∃ status, a.result = .ok status
  started_with : ∀ a ∈ t.all, ∀ c, h.callOfAttempt? a = some c →
    a.invocation.args <:+ c.args ∧ h.childDir a.invocation = .ok c.workDir
  kill : t.kill.invocation = ⟨"pkill", ["-f", Sweeper.patternFor s.target.emulator], none⟩
  probes : ∀ a ∈ t.probes,
    a.invocation = ⟨"pgrep", ["-f", Sweeper.patternFor s.target.emulator], none⟩
  probes_after : t.probes ≠ [] → ∃ status, t.kill.result = .ok status ∧
    (status.code? = some 0 ∨ status.code? = some 1)
  build : ∀ a ∈ t.build,
    a.invocation = ⟨"cargo", s.builder.args s.target.buildTarget, some s.kernelDir⟩
  build_iff : t.build.isSome ↔
    (∃ outcome, ((s.sweeper.sweep s.target.emulator : HostM _).run h).1 = .ok outcome) ∨
      s.sweepPolicy = .keepGoing
  before_boot : h.Leads t.beforeBoot between
  after_boot : between.Leads t.boot.toList after
  boot : ∀ a ∈ t.boot, a.invocation = ⟨s.target.emulator, s.emulatorArgs extraArgs, none⟩
  boot_iff : t.boot.isSome ↔
    (∃ a ∈ t.build, a.result = .ok (.exited 0)) ∧ between.isFile s.image = true

end RunAttempts

/-- The attempts of a run with the answers to those after its sweep. -/
def RunAttempts.ofAnswers (s : Setup) (extraArgs : List String) (kill : Attempt)
    (probes : List Attempt) (built booted : Option (Except SystemError WaitStatus)) :
    RunAttempts :=
  ⟨kill, probes, built.map (Attempt.mk s.buildCall), booted.map (Attempt.mk (s.bootCall extraArgs))⟩

section Runs

variable {s : Setup} {extraArgs : List String} {h between after : Host} {kill : Attempt}
  {probes : List Attempt} {built booted : Option (Except SystemError WaitStatus)}
  {result : Except BootError GuestExit}

theorem Setup.Course.inOrder (hsweep : s.sweeper.Attempts s.target.emulator kill probes)
    (hbefore : h.Leads (RunAttempts.ofAnswers s extraArgs kill probes built booted).beforeBoot
      between)
    (hafter : between.Leads (RunAttempts.ofAnswers s extraArgs kill probes built booted).boot.toList
      after)
    (hcourse : s.Course ((s.sweeper.sweep s.target.emulator : HostM _).run h).1
      (between.isFile s.image) built booted result) :
    (RunAttempts.ofAnswers s extraArgs kill probes built booted).InOrder s extraArgs h between
      after := by
  have hall := hbefore.trans hafter
  constructor
  case attempts => exact hall.attempts
  case calls => exact hall.calls
  case started => exact fun a ha => isSome_callOfAttempt? (hall.answers a ha)
  case started_with => exact fun a _ c hc => callOf?_spec hc
  case kill => exact hsweep.kill_invocation
  case probes => exact hsweep.probe_invocation
  case probes_after => exact hsweep.probed_after
  case build =>
    intro a ha
    obtain ⟨answer, -, rfl⟩ := Option.map_eq_some_iff.1 ha
    rfl
  case build_iff =>
    simp only [RunAttempts.ofAnswers, Option.isSome_map]
    exact hcourse.isSome_built_iff
  case before_boot => exact hbefore
  case after_boot => exact hafter
  case boot =>
    intro a ha
    obtain ⟨answer, -, rfl⟩ := Option.map_eq_some_iff.1 ha
    exact s.bootCall_eq extraArgs
  case boot_iff =>
    have hwell : (∃ a ∈ built.map (Attempt.mk s.buildCall), a.result = .ok (.exited 0)) ↔
        built = some (.ok (.exited 0)) := by
      cases built with
      | none => simp
      | some answer => simp
    simp only [RunAttempts.ofAnswers, Option.isSome_map]
    rw [hcourse.isSome_booted_iff, hwell]

end Runs

/-- Without a setup nothing is asked for, and with one the attempts of a run are in order. -/
theorem Command.run_inOrder (cwd : Path) (request : Request) (extraArgs : List String)
    (h : Host) :
    let after := ((withSetup cwd request fun s => run s extraArgs).run h).2
    match Setup.resolve h.toFileView cwd request with
    | .error _ => after.attempts = h.attempts ∧ after.calls = h.calls
    | .ok s =>
      ∃ (t : RunAttempts) (between : Host), t.InOrder s extraArgs h between after := by
  have hruns := runs_withSetup cwd request extraArgs h
  intro after
  cases hresolve : Setup.resolve h.toFileView cwd request with
  | error e =>
    simp only [hresolve] at hruns
    obtain ⟨-, hleads⟩ := hruns
    refine ⟨?_, ?_⟩
    · rw [hleads.attempts, List.append_nil]
    · rw [hleads.calls, List.filterMap_nil, List.append_nil]
  | ok s =>
    simp only [hresolve] at hruns
    obtain ⟨_, ⟨_, _, _, _, between, hsweep, hbefore, hafter, hcourse⟩, -⟩ := hruns
    exact ⟨_, between, hcourse.inOrder hsweep hbefore hafter⟩

end RiscvBoot
