import RiscvBoot.Command.Basic
import RiscvBoot.Proofs.Process.Status
import RiscvBoot.Proofs.Sweep.Attempts

/-!
# The course of a run on a host

`Course` lists the ways in which a run can go, with what the build program and the emulator
answered, if they were asked for, and the result. Every run of a setup takes one of them
(`runs_run`), and resolving the setup first adds nothing but lines in the log.
-/

set_option autoImplicit false

namespace RiscvBoot

open Host

/-! ## The steps -/

/-- What a run makes of its first step. -/
def SweepPolicy.verdict (policy : SweepPolicy) :
    Except SweepError Swept → Except BootError SweepStatus
  | .ok .terminated => .ok .terminated
  | .ok .notFound => .ok .notFound
  | .error e =>
    match policy with
    | .keepGoing => .ok (.ignored e.message)
    | .abort => .error (.sweep e)

theorem leads_sweepUnder (s : Sweeper) (name : String) (h : Host) :
    ∃ kill probes, s.Attempts name kill probes ∧ ∀ policy,
      let r := (sweepUnder (fun name => (s.sweep name : HostM _)) name policy).run h
      h.Leads (kill :: probes) r.2 ∧ r.1 = policy.verdict ((s.sweep name : HostM _).run h).1 := by
  let k := h.log ⟨.info, .boot, s!"stopping stale {name} instances"⟩
  obtain ⟨kill, probes, hsweep, hattempts⟩ := Sweeper.leads_sweep s name k
  have hboth := (leads_log h _).trans hsweep
  -- The sweep starts with one line more in the log, and finds the same.
  have hsame : ((s.sweep name : HostM _).run k).1 = ((s.sweep name : HostM _).run h).1 :=
    (Sweeper.blind_sweep s name h _).1
  -- The policy only decides what is made of the answers, so the programs are the same for each.
  refine ⟨kill, probes, hattempts, fun policy => ?_⟩
  unfold sweepUnder
  simp only [run_bind, run_info]
  rw [← hsame]
  match ((s.sweep name : HostM _).run k).1, policy with
  | .ok .terminated, _ => exact ⟨hboth.log _, rfl⟩
  | .ok .notFound, _ => exact ⟨hboth, rfl⟩
  | .error e, .keepGoing => exact ⟨hboth.log _, rfl⟩
  | .error e, .abort => exact ⟨hboth, rfl⟩

/-- What a build makes of the answer of its program. -/
def BuildCommand.verdict (b : BuildCommand) (buildTarget : String) :
    Except SystemError WaitStatus → Except BootError Unit
  | .error source => .error (.toolchain b.program source)
  | .ok status =>
    if status.isSuccess then .ok ()
    else .error (.buildFailed buildTarget (status.code?.map Int.ofNat))

theorem leads_build (b : BuildCommand) (buildTarget : String) (h : Host) :
    ∃ answer, h.Leads [⟨⟨b.program, b.args buildTarget, some b.dir⟩, answer⟩]
        ((b.run buildTarget).run h).2 ∧
      ((b.run buildTarget).run h).1 = b.verdict buildTarget answer := by
  have hlog := (leads_log h ⟨.info, .boot, s!"building kernel for {buildTarget}"⟩).log
    ⟨.debug, .boot, b.describe buildTarget⟩
  unfold BuildCommand.run
  simp only [run_bind, run_info, run_debug]
  generalize Host.log _ _ = k at hlog
  have hshown := hlog.trans (leads_runShown k ⟨b.program, b.args buildTarget, some b.dir⟩)
  refine ⟨((runShown ⟨b.program, b.args buildTarget, some b.dir⟩).run k).1, ?_⟩
  cases hanswer : ((runShown ⟨b.program, b.args buildTarget, some b.dir⟩).run k).1 with
  | error source =>
    rw [hanswer] at hshown
    exact ⟨hshown, rfl⟩
  | ok status =>
    rw [hanswer] at hshown
    unfold BuildCommand.verdict
    dsimp only
    split
    · exact ⟨hshown, rfl⟩
    · exact ⟨hshown, rfl⟩

/-- What a launch makes of the answer of the emulator. -/
def EmulatorCommand.verdict (c : EmulatorCommand) :
    Except SystemError WaitStatus → Except BootError GuestExit
  | .error .notFound => .error (.emulatorNotFound c.emulator)
  | .error source => .error (.launch c.emulator source)
  | .ok status => .ok (.ofStatus status)

theorem EmulatorCommand.verdict_error {c : EmulatorCommand} {e : SystemError} (he : e ≠ .notFound) :
    c.verdict (.error e) = .error (.launch c.emulator e) := by
  cases e with
  | notFound => exact absurd rfl he
  | _ => rfl

theorem run_launch_of_missing {c : EmulatorCommand} {h : Host}
    (hfile : h.isFile c.kernel = false) :
    c.run.run h = (.error (.missingArtifact c.kernel), h) := by
  change (if ¬h.isFile c.kernel then _ else _ : HostM (Except BootError GuestExit)).run h = _
  rw [if_pos (by simp [hfile])]
  rfl

theorem leads_launch {c : EmulatorCommand} {h : Host} (hfile : h.isFile c.kernel = true) :
    ∃ answer, h.Leads [⟨⟨c.emulator, c.args, none⟩, answer⟩] (c.run.run h).2 ∧
      (c.run.run h).1 = c.verdict answer := by
  have hlog := (leads_log h ⟨.info, .boot,
    s!"launching {c.emulator} ({c.harts.text} harts, machine {c.machine})"⟩).log
    ⟨.debug, .boot, c.asLine⟩
  change ∃ answer, h.Leads _ (StateT.run (if ¬h.isFile c.kernel then _ else _ : HostM _) h).2 ∧
    (StateT.run (if ¬h.isFile c.kernel then _ else _ : HostM _) h).1 = _
  rw [if_neg (by simp [hfile])]
  simp only [run_bind, run_info, run_debug]
  generalize Host.log _ _ = k at hlog
  have hshown := hlog.trans (leads_runShown k ⟨c.emulator, c.args, none⟩)
  refine ⟨((runShown ⟨c.emulator, c.args, none⟩).run k).1, ?_⟩
  match hanswer : ((runShown ⟨c.emulator, c.args, none⟩).run k).1 with
  | .error source =>
    rw [hanswer] at hshown
    cases source <;> exact ⟨hshown, rfl⟩
  | .ok status =>
    rw [hanswer] at hshown
    exact ⟨hshown.log _, rfl⟩

/-! ## The whole run -/

namespace Setup

variable (s : Setup) (extraArgs : List String)

def buildCall : Invocation :=
  ⟨"cargo", s.builder.args s.target.buildTarget, some s.kernelDir⟩

def bootCall : Invocation := ⟨s.target.emulator, (s.plan extraArgs).command.args, none⟩

/-- A run that has swept with this result goes on to the build. -/
def GoesOn (swept : Except SweepError Swept) : Prop :=
  (∃ outcome, swept = .ok outcome) ∨ s.sweepPolicy = .keepGoing

/-- The ways in which a run can go, with the answers of the build program and of the emulator as
far as they are asked, and the result. -/
inductive Course (swept : Except SweepError Swept) (hasImage : Bool) :
    Option (Except SystemError WaitStatus) → Option (Except SystemError WaitStatus) →
      Except BootError GuestExit → Prop where
  | stopped {e : SweepError} (hswept : swept = .error e) (hpolicy : s.sweepPolicy = .abort) :
      Course swept hasImage none none (.error (.sweep e))
  | noToolchain {e : SystemError} (hswept : s.GoesOn swept) :
      Course swept hasImage (some (.error e)) none (.error (.toolchain "cargo" e))
  | notBuilt {status : WaitStatus} (hswept : s.GoesOn swept) (hstatus : status ≠ .exited 0) :
      Course swept hasImage (some (.ok status)) none
        (.error (.buildFailed s.target.buildTarget (status.code?.map Int.ofNat)))
  | noImage (hswept : s.GoesOn swept) (himage : hasImage = false) :
      Course swept hasImage (some (.ok (.exited 0))) none (.error (.missingArtifact s.image))
  | noEmulator (hswept : s.GoesOn swept) (himage : hasImage = true) :
      Course swept hasImage (some (.ok (.exited 0))) (some (.error .notFound))
        (.error (.emulatorNotFound s.target.emulator))
  | notLaunched {e : SystemError} (hswept : s.GoesOn swept) (himage : hasImage = true)
      (he : e ≠ .notFound) :
      Course swept hasImage (some (.ok (.exited 0))) (some (.error e))
        (.error (.launch s.target.emulator e))
  | ended {status : WaitStatus} (hswept : s.GoesOn swept) (himage : hasImage = true) :
      Course swept hasImage (some (.ok (.exited 0))) (some (.ok status)) (.ok (.ofStatus status))

variable {s extraArgs} {swept : Except SweepError Swept} {hasImage : Bool}
  {built booted : Option (Except SystemError WaitStatus)} {result : Except BootError GuestExit}

theorem not_goesOn {e : SweepError} (hswept : swept = .error e) (hpolicy : s.sweepPolicy = .abort) :
    ¬s.GoesOn swept := by
  rintro (⟨outcome, hok⟩ | hgoes)
  · rw [hswept] at hok
    cases hok
  · rw [hpolicy] at hgoes
    cases hgoes

theorem Course.isSome_built_iff (h : s.Course swept hasImage built booted result) :
    built.isSome ↔ s.GoesOn swept := by
  cases h with
  | stopped hswept hpolicy => simp [not_goesOn hswept hpolicy]
  | noToolchain hswept => simp [hswept]
  | notBuilt hswept _ => simp [hswept]
  | noImage hswept _ => simp [hswept]
  | noEmulator hswept _ => simp [hswept]
  | notLaunched hswept _ _ => simp [hswept]
  | ended hswept _ => simp [hswept]

theorem Course.isSome_booted_iff (h : s.Course swept hasImage built booted result) :
    booted.isSome ↔ built = some (.ok (.exited 0)) ∧ hasImage = true := by
  cases h with
  | stopped => simp
  | noToolchain => simp
  | notBuilt _ hstatus => simp [hstatus]
  | noImage _ himage => simp [himage]
  | noEmulator _ himage => simp [himage]
  | notLaunched _ himage _ => simp [himage]
  | ended _ himage => simp [himage]

variable (s extraArgs)

/-- A run that begins on `h` and ends on `after` takes one of these ways. The host between the two
is the one on which the image is looked for. -/
def Runs (h after : Host) (result : Except BootError GuestExit) : Prop :=
  ∃ kill probes built booted between, s.sweeper.Attempts s.target.emulator kill probes ∧
    h.Leads (kill :: probes ++ (built.map (Attempt.mk s.buildCall)).toList) between ∧
    between.Leads (booted.map (Attempt.mk (s.bootCall extraArgs))).toList after ∧
    s.Course ((s.sweeper.sweep s.target.emulator : HostM _).run h).1
      (between.isFile s.image) built booted result

end Setup

theorem SweepPolicy.verdict_error {policy : SweepPolicy} {swept : Except SweepError Swept}
    {e : BootError} (h : policy.verdict swept = .error e) :
    ∃ inner, swept = .error inner ∧ policy = .abort ∧ e = .sweep inner := by
  match swept, policy with
  | .ok .terminated, _ => simp [verdict] at h
  | .ok .notFound, _ => simp [verdict] at h
  | .error inner, .keepGoing => simp [verdict] at h
  | .error inner, .abort => exact ⟨inner, rfl, rfl, (Except.error.inj h).symm⟩

theorem Setup.goesOn_of_verdict {s : Setup} {swept : Except SweepError Swept}
    {status : SweepStatus} (h : s.sweepPolicy.verdict swept = .ok status) : s.GoesOn swept := by
  cases swept with
  | ok outcome => exact .inl ⟨outcome, rfl⟩
  | error e =>
    cases hpolicy : s.sweepPolicy with
    | keepGoing => exact .inr hpolicy
    | abort => simp [hpolicy, SweepPolicy.verdict] at h

variable {s : Setup} {swept : Except SweepError Swept}

theorem course_launch (hgoesOn : s.GoesOn swept) (extraArgs : List String) (h : Host) :
    let r := (s.plan extraArgs).command.run.run h
    ∃ booted, h.Leads (booted.map (Attempt.mk (s.bootCall extraArgs))).toList r.2 ∧
      s.Course swept (h.isFile s.image) (some (.ok (.exited 0))) booted r.1 := by
  have hkernel : (s.plan extraArgs).command.kernel = s.image := rfl
  cases himage : h.isFile s.image with
  | false =>
    rw [← hkernel] at himage
    rw [run_launch_of_missing himage]
    exact ⟨none, .refl h, .noImage hgoesOn rfl⟩
  | true =>
    rw [← hkernel] at himage
    obtain ⟨answer, hlaunch, hverdict⟩ := leads_launch himage
    refine ⟨some answer, hlaunch, ?_⟩
    rw [hverdict]
    cases answer with
    | ok status => exact .ended hgoesOn rfl
    | error e =>
      by_cases he : e = .notFound
      · rw [he]
        exact .noEmulator hgoesOn rfl
      · rw [EmulatorCommand.verdict_error he]
        exact .notLaunched hgoesOn rfl he

/-- What a run does after its first step. -/
def Setup.buildAndBoot (s : Setup) (extraArgs : List String) :
    HostM (Except BootError GuestExit) := do
  match ← s.builder.run s.target.buildTarget with
  | .error e => return .error e
  | .ok () => (s.plan extraArgs).command.run

theorem course_buildAndBoot (hgoesOn : s.GoesOn swept) (extraArgs : List String) (h : Host) :
    let r := (s.buildAndBoot extraArgs).run h
    ∃ answer booted g, h.Leads [⟨s.buildCall, answer⟩] g ∧
      g.Leads (booted.map (Attempt.mk (s.bootCall extraArgs))).toList r.2 ∧
      s.Course swept (g.isFile s.image) (some answer) booted r.1 := by
  obtain ⟨answer, hbuild, hverdict⟩ := leads_build s.builder s.target.buildTarget h
  refine ⟨answer, ?_⟩
  unfold Setup.buildAndBoot
  simp only [run_bind]
  generalize (s.builder.run s.target.buildTarget).run h = built at *
  obtain ⟨result, g⟩ := built
  dsimp only at hbuild hverdict ⊢
  subst hverdict
  match answer with
  | .error e => exact ⟨none, g, hbuild, .refl g, .noToolchain hgoesOn⟩
  | .ok status =>
    by_cases hsuccess : status.isSuccess = true
    · have hstatus := status.isSuccess_iff.1 hsuccess
      obtain ⟨booted, hlaunch, hcourse⟩ := course_launch hgoesOn extraArgs g
      simp only [BuildCommand.verdict, if_pos hsuccess]
      rw [hstatus] at hbuild ⊢
      exact ⟨booted, g, hbuild, hlaunch, hcourse⟩
    · simp only [BuildCommand.verdict, if_neg hsuccess]
      refine ⟨none, g, hbuild, .refl g, .notBuilt hgoesOn ?_⟩
      exact fun hstatus => hsuccess (status.isSuccess_iff.2 hstatus)

/-- A run is its first step and the rest, and reports both. -/
theorem run_runner (s : Setup) (extraArgs : List String) (h : Host) :
    let first := (sweepUnder (fun name => (s.sweeper.sweep name : HostM _)) s.target.emulator
      s.sweepPolicy).run h
    let rest := (s.buildAndBoot extraArgs).run first.2
    ((Command.runner s).run (s.plan extraArgs)).run h = match first.1 with
      | .error e => (.error e, first.2)
      | .ok status => (rest.1.map (⟨status, s.target.buildTarget, s.image, ·⟩), rest.2) := by
  change StateT.run (sweepUnder (fun name => (s.sweeper.sweep name : HostM _)) s.target.emulator
    s.sweepPolicy >>= _) h = _
  rw [run_bind]
  generalize (sweepUnder (fun name => (s.sweeper.sweep name : HostM _)) s.target.emulator
    s.sweepPolicy).run h = first
  obtain ⟨verdict, k⟩ := first
  cases verdict with
  | error e => rfl
  | ok status =>
    change StateT.run (s.builder.run s.target.buildTarget >>= _) k = _
    simp only [Setup.buildAndBoot, run_bind]
    generalize (s.builder.run s.target.buildTarget).run k = built
    obtain ⟨result, k'⟩ := built
    cases result with
    | error e => rfl
    | ok _ =>
      change StateT.run ((s.plan extraArgs).command.run >>= _) k' = _
      dsimp only
      rw [run_bind]
      generalize (s.plan extraArgs).command.run.run k' = booted
      obtain ⟨exit, k''⟩ := booted
      cases exit with
      | error e => rfl
      | ok exit => rfl

theorem runs_runner (s : Setup) (extraArgs : List String) (h : Host) :
    let r := ((Command.runner s).run (s.plan extraArgs)).run h
    s.Runs extraArgs h r.2 (r.1.map BootReport.exit) := by
  obtain ⟨kill, probes, hattempts, hpolicy⟩ := leads_sweepUnder s.sweeper s.target.emulator h
  obtain ⟨hsweep, hverdict⟩ := hpolicy s.sweepPolicy
  refine ⟨kill, probes, ?_⟩
  rw [run_runner]
  generalize (sweepUnder (fun name => (s.sweeper.sweep name : HostM _)) s.target.emulator
    s.sweepPolicy).run h = first at *
  obtain ⟨verdict, k⟩ := first
  dsimp only at hsweep hverdict ⊢
  cases verdict with
  | error e =>
    obtain ⟨inner, hswept, hpolicy, rfl⟩ := SweepPolicy.verdict_error hverdict.symm
    refine ⟨none, none, k, hattempts, ?_, .refl k, .stopped hswept hpolicy⟩
    rwa [Option.map_none, Option.toList_none, List.append_nil]
  | ok status =>
    obtain ⟨answer, booted, g, hbuild, hboot, hcourse⟩ :=
      course_buildAndBoot (Setup.goesOn_of_verdict hverdict.symm) extraArgs k
    have hexit (result : Except BootError GuestExit) :
        (result.map (BootReport.mk status s.target.buildTarget s.image)).map BootReport.exit =
          result := by
      cases result with
      | error e => rfl
      | ok exit => rfl
    refine ⟨some answer, booted, g, hattempts, hsweep.trans hbuild, hboot, ?_⟩
    rwa [← hexit ((s.buildAndBoot extraArgs).run k).1] at hcourse

theorem runs_run (s : Setup) (extraArgs : List String) (h : Host) :
    let r := (Command.run s extraArgs).run h
    ∃ result, s.Runs extraArgs h r.2 result ∧
      r.1 = (result.map GuestExit.exitCode).mapError .running := by
  obtain ⟨kill, probes, built, booted, g, hattempts, hbefore, hafter, hcourse⟩ :=
    runs_runner s extraArgs h
  unfold Command.run
  simp only [run_bind]
  generalize ((Command.runner s).run (s.plan extraArgs)).run h = all at *
  obtain ⟨report, k⟩ := all
  cases report with
  | error e => exact ⟨_, ⟨kill, probes, built, booted, g, hattempts, hbefore, hafter, hcourse⟩, rfl⟩
  | ok report =>
    have hlogged := hafter.log ⟨.debug, .command, s!"run finished\n{report.describe}"⟩
    exact ⟨_, ⟨kill, probes, built, booted, g, hattempts, hbefore, hlogged, hcourse⟩, rfl⟩

/-! ## The setup before it -/

theorem leads_logAll {α : Type} (entry : α → Log.Record) (xs : List α) (h : Host) :
    ∃ events, (xs.forM fun x => record (.logged (entry x))).run h = ((), { h with events }) ∧
      h.Leads [] { h with events } := by
  induction xs generalizing h with
  | nil => exact ⟨h.events, rfl, .refl h⟩
  | cons x xs ih =>
    obtain ⟨events, hrun, hleads⟩ := ih (h.log (entry x))
    refine ⟨events, hrun, (leads_log h (entry x)).trans hleads⟩

theorem run_openSetup (cwd : Path) (request : Request) (h : Host) :
    ∃ events, (Command.openSetup cwd request).run h =
        ((Setup.resolve h.toFileView cwd request).mapError .setup, { h with events }) ∧
      h.Leads [] { h with events } := by
  obtain ⟨events, hrun, hleads⟩ := leads_logAll
    (fun d : Doubt => ⟨.warn, .choice, d.message⟩) (Setup.doubts h.toFileView cwd request) h
  refine ⟨events, ?_, hleads⟩
  change (_, (((Setup.doubts h.toFileView cwd request).forM fun d =>
    record (.logged ⟨.warn, .choice, d.message⟩)).run h).2) = _
  rw [hrun]

theorem runs_withSetup (cwd : Path) (request : Request) (extraArgs : List String) (h : Host) :
    let r := (Command.withSetup cwd request fun s => Command.run s extraArgs).run h
    match Setup.resolve h.toFileView cwd request with
    | .error e => r.1 = .error (.setup e) ∧ h.Leads [] r.2
    | .ok s => ∃ result, s.Runs extraArgs h r.2 result ∧
        r.1 = (result.map GuestExit.exitCode).mapError .running := by
  obtain ⟨events, hrun, hleads⟩ := run_openSetup cwd request h
  unfold Command.withSetup
  simp only [run_bind, hrun]
  cases hresolve : Setup.resolve h.toFileView cwd request with
  | error e => exact ⟨rfl, hleads⟩
  | ok s =>
    obtain ⟨result, ⟨kill, probes, built, booted, g, hattempts, hbefore, hafter, hcourse⟩,
      hresult⟩ := runs_run s extraArgs { h with events }
    rw [(Sweeper.blind_sweep s.sweeper s.target.emulator h events).1] at hcourse
    exact ⟨result, ⟨kill, probes, built, booted, g, hattempts, hleads.trans hbefore, hafter,
      hcourse⟩, hresult⟩

end RiscvBoot
