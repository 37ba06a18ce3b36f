import RiscvBoot.CommandLine.Program
import RiscvBoot.Proofs.Boot.Order
import RiscvBoot.Proofs.Except
import RiscvBoot.Proofs.Project.Resolve

/-!
# How a run ends

The first thing that goes wrong decides how a run ends, and if nothing does, the end of the
emulator. The exit code of the program is zero only if the emulator has exited with code zero.
-/

set_option autoImplicit false

namespace RiscvBoot

open Host

/-! ## The result by the course -/

namespace Setup.Course

variable {s : Setup} {swept : Except SweepError Swept} {hasImage : Bool}
  {built booted : Option (Except SystemError WaitStatus)} {result : Except BootError GuestExit}

theorem sweep_iff (h : s.Course swept hasImage built booted result) (e : SweepError) :
    result = .error (.sweep e) ↔ swept = .error e ∧ s.sweepPolicy = .abort := by
  have hstays (hgoesOn : s.GoesOn swept) : ¬(swept = .error e ∧ s.sweepPolicy = .abort) :=
    fun ⟨hswept, hpolicy⟩ => not_goesOn hswept hpolicy hgoesOn
  cases h with
  | stopped hswept hpolicy => simp [hswept, hpolicy]
  | noToolchain hswept => simp [hstays hswept]
  | notBuilt hswept _ => simp [hstays hswept]
  | noImage hswept _ => simp [hstays hswept]
  | noEmulator hswept _ => simp [hstays hswept]
  | notLaunched hswept _ _ => simp [hstays hswept]
  | ended hswept _ => simp [hstays hswept]

theorem toolchain_iff (h : s.Course swept hasImage built booted result) (program : String)
    (e : SystemError) :
    result = .error (.toolchain program e) ↔ program = "cargo" ∧ built = some (.error e) := by
  cases h with
  | noToolchain => simp [eq_comm]
  | _ => simp

theorem buildFailed_iff (h : s.Course swept hasImage built booted result) (target : String)
    (code : Option Int) :
    result = .error (.buildFailed target code) ↔ target = s.target.buildTarget ∧
      ∃ status, built = some (.ok status) ∧ status ≠ .exited 0 ∧
        code = status.code?.map Int.ofNat := by
  cases h with
  | notBuilt _ hstatus => simp [hstatus, eq_comm]
  | _ => simp

theorem missingArtifact_iff (h : s.Course swept hasImage built booted result) (image : Path) :
    result = .error (.missingArtifact image) ↔ image = s.image ∧
      built = some (.ok (.exited 0)) ∧ hasImage = false := by
  cases h with
  | stopped => simp
  | noToolchain => simp
  | notBuilt _ hstatus => simp [hstatus]
  | noImage _ himage => simp [himage, eq_comm]
  | noEmulator _ himage => simp [himage]
  | notLaunched _ himage _ => simp [himage]
  | ended _ himage => simp [himage]

theorem emulatorNotFound_iff (h : s.Course swept hasImage built booted result)
    (program : String) :
    result = .error (.emulatorNotFound program) ↔
      program = s.target.emulator ∧ booted = some (.error .notFound) := by
  cases h with
  | noEmulator => simp [eq_comm]
  | notLaunched _ _ he => simp [he]
  | _ => simp

theorem launch_iff (h : s.Course swept hasImage built booted result) (program : String)
    (e : SystemError) :
    result = .error (.launch program e) ↔
      program = s.target.emulator ∧ booted = some (.error e) ∧ e ≠ .notFound := by
  cases h with
  | noEmulator => simp [eq_comm]
  | @notLaunched e' _ _ he =>
    constructor
    · rintro ⟨⟩
      exact ⟨rfl, rfl, he⟩
    · rintro ⟨rfl, hanswer, -⟩
      cases hanswer
      rfl
  | _ => simp

theorem ok_iff (h : s.Course swept hasImage built booted result) (code : Int) :
    result.map GuestExit.exitCode = .ok code ↔
      ∃ status, booted = some (.ok status) ∧ code = status.passedOn := by
  cases h with
  | ended => simp [Except.map, GuestExit.exitCode_ofStatus, eq_comm]
  | _ => simp [Except.map]

end Setup.Course

/-- How a run of a setup ends, by what is answered to its attempts. The first case that applies
counts: a run that has made an attempt has not ended before it. What an attempt is refused for is
looked up on `h`, whose tree no program changes. -/
structure RunAttempts.Ends (t : RunAttempts) (s : Setup) (extraArgs : List String)
    (h between : Host) (result : Except BootError Int) : Prop where
  sweep : ∀ e, result = .error (.sweep e) ↔
    ((s.sweeper.sweep s.target.emulator : HostM _).run h).1 = .error e ∧ s.sweepPolicy = .abort
  toolchain : ∀ program e, result = .error (.toolchain program e) ↔
    s.GoesOn ((s.sweeper.sweep s.target.emulator : HostM _).run h).1 ∧
      program = "cargo" ∧ h.find s.buildCall = .error e
  /-- A program that has ended and has no code was ended by a signal. -/
  buildFailed : ∀ target code, result = .error (.buildFailed target code) ↔
    target = s.target.buildTarget ∧ ∃ status, t.build = some ⟨s.buildCall, .ok status⟩ ∧
      status ≠ .exited 0 ∧ code = status.code?.map Int.ofNat ∧
      (code = none ↔ (∃ signal, status.signal? = some signal) ∨ status.low = 127)
  missingArtifact : ∀ image, result = .error (.missingArtifact image) ↔
    image = s.image ∧ t.build = some ⟨s.buildCall, .ok (.exited 0)⟩ ∧
      between.isFile s.image = false
  emulatorNotFound : ∀ program, result = .error (.emulatorNotFound program) ↔
    program = s.target.emulator ∧ t.build = some ⟨s.buildCall, .ok (.exited 0)⟩ ∧
      between.isFile s.image = true ∧ h.find (s.bootCall extraArgs) = .error .notFound
  launch : ∀ program e, result = .error (.launch program e) ↔
    program = s.target.emulator ∧ t.build = some ⟨s.buildCall, .ok (.exited 0)⟩ ∧
      between.isFile s.image = true ∧ h.find (s.bootCall extraArgs) = .error e ∧ e ≠ .notFound
  ended : ∀ code : Int, result = .ok code ↔
    ∃ status, t.boot = some ⟨s.bootCall extraArgs, .ok status⟩ ∧ code = status.passedOn
  range : ∀ code, result = .ok code → 0 ≤ code ∧ code ≤ 255

theorem map_exitCode_error_iff (result : Except BootError GuestExit) (e : BootError) :
    result.map GuestExit.exitCode = .error e ↔ result = .error e := by
  cases result with
  | error e' => simp [Except.map]
  | ok exit => simp [Except.map]

/-- What is asked of the host is refused iff the host refuses it. -/
theorem refused_iff {h : Host} {i : Invocation} {answer : Option (Except SystemError WaitStatus)}
    (hanswer : ∀ a ∈ answer.map (Attempt.mk i), h.Answers a) (e : SystemError) :
    answer = some (.error e) ↔ answer.isSome ∧ h.find i = .error e := by
  cases answer with
  | none => simp
  | some result =>
    have hresult : result = .error e ↔ h.find i = .error e := hanswer ⟨i, result⟩ rfl e
    simp [hresult]

section Runs

variable {s : Setup} {extraArgs : List String} {h between after : Host} {kill : Attempt}
  {probes : List Attempt} {built booted : Option (Except SystemError WaitStatus)}
  {result : Except BootError GuestExit}

theorem Setup.Course.ends
    (hbefore : h.Leads (RunAttempts.ofAnswers s extraArgs kill probes built booted).beforeBoot
      between)
    (hafter : between.Leads (RunAttempts.ofAnswers s extraArgs kill probes built booted).boot.toList
      after)
    (hcourse : s.Course ((s.sweeper.sweep s.target.emulator : HostM _).run h).1
      (between.isFile s.image) built booted result) :
    (RunAttempts.ofAnswers s extraArgs kill probes built booted).Ends s extraArgs h between
      (result.map GuestExit.exitCode) := by
  have hbuild (e : SystemError) : built = some (.error e) ↔
      built.isSome ∧ h.find s.buildCall = .error e := by
    refine refused_iff (fun a ha => hbefore.answers a ?_) e
    exact List.mem_append_right _ (Option.mem_toList.2 ha)
  have hboot (e : SystemError) : booted = some (.error e) ↔
      booted.isSome ∧ h.find (s.bootCall extraArgs) = .error e := by
    rw [← hbefore.find]
    exact refused_iff (fun a ha => hafter.answers a (Option.mem_toList.2 ha)) e
  have hbuilt (answer : Except SystemError WaitStatus) :
      (RunAttempts.ofAnswers s extraArgs kill probes built booted).build =
        some ⟨s.buildCall, answer⟩ ↔ built = some answer := by
    simp [RunAttempts.ofAnswers]
  have hbooted (answer : Except SystemError WaitStatus) :
      (RunAttempts.ofAnswers s extraArgs kill probes built booted).boot =
        some ⟨s.bootCall extraArgs, answer⟩ ↔ booted = some answer := by
    simp [RunAttempts.ofAnswers]
  constructor
  case sweep =>
    intro e
    rw [map_exitCode_error_iff]
    exact hcourse.sweep_iff e
  case toolchain =>
    intro program e
    rw [map_exitCode_error_iff, hcourse.toolchain_iff, hbuild, hcourse.isSome_built_iff]
    exact and_left_comm
  case buildFailed =>
    intro target code
    rw [map_exitCode_error_iff, hcourse.buildFailed_iff]
    refine and_congr_right fun _ => exists_congr fun status => ?_
    rw [hbuilt]
    refine and_congr_right fun _ => and_congr_right fun _ => ?_
    constructor
    · rintro rfl
      refine ⟨rfl, ?_⟩
      rw [Option.map_eq_none_iff]
      exact status.code?_eq_none_iff
    · exact And.left
  case missingArtifact =>
    intro image
    rw [map_exitCode_error_iff, hcourse.missingArtifact_iff, hbuilt]
  case emulatorNotFound =>
    intro program
    rw [map_exitCode_error_iff, hcourse.emulatorNotFound_iff, hboot, hcourse.isSome_booted_iff,
      hbuilt, and_assoc]
  case launch =>
    intro program e
    rw [map_exitCode_error_iff, hcourse.launch_iff, hboot, hcourse.isSome_booted_iff, hbuilt]
    simp only [and_assoc]
  case ended =>
    intro code
    simp only [hbooted]
    exact hcourse.ok_iff code
  case range =>
    intro code hcode
    obtain ⟨status, -, rfl⟩ := (hcourse.ok_iff code).1 hcode
    have hle := status.passedOn_le
    omega

end Runs

/-! ## The program -/

theorem Isa.emulator_ne (a : Isa) :
    a.emulator ≠ "pkill" ∧ a.emulator ≠ "pgrep" ∧ a.emulator ≠ "cargo" := by
  cases a with
  | rv32 => exact ⟨by decide, by decide, by decide⟩
  | rv64 => exact ⟨by decide, by decide, by decide⟩

namespace RunAttempts

variable {t : RunAttempts} {s : Setup} {extraArgs : List String} {h between after : Host}
  {result : Except BootError Int}

/-- No other program of a run is named like an emulator. -/
theorem InOrder.eq_boot (hin : t.InOrder s extraArgs h between after) {a : Attempt}
    (ha : a ∈ t.all) (hprogram : a.invocation.program = s.target.emulator) :
    t.boot = some a ∧ a.invocation = s.bootCall extraArgs := by
  obtain ⟨hkill, hprobe, hbuild⟩ := s.target.arch.emulator_ne
  simp only [all, beforeBoot, List.mem_append, List.mem_cons, Option.mem_toList] at ha
  rcases ha with ((rfl | ha) | ha) | ha
  · rw [hin.kill] at hprogram
    exact absurd hprogram.symm hkill
  · rw [hin.probes a ha] at hprogram
    exact absurd hprogram.symm hprobe
  · rw [hin.build a ha] at hprogram
    exact absurd hprogram.symm hbuild
  · exact ⟨ha, (hin.boot a ha).trans (s.bootCall_eq extraArgs).symm⟩

theorem Ends.code_range (hends : t.Ends s extraArgs h between result) :
    0 ≤ result.toOption.getD 1 ∧ result.toOption.getD 1 ≤ 255 := by
  cases result with
  | error e => exact ⟨Int.one_nonneg, (by decide : (1 : Int) ≤ 255)⟩
  | ok code => exact hends.range code rfl

theorem code_eq_zero_iff (hin : t.InOrder s extraArgs h between after)
    (hends : t.Ends s extraArgs h between result) :
    result.toOption.getD 1 = 0 ↔ ∃ a ∈ t.all, a.invocation.program = s.target.emulator ∧
      (h.callOfAttempt? a).isSome ∧ ∃ status, a.result = .ok status ∧
        status.word &&& 0x7f = 0 ∧ status.word >>> 8 &&& 0xff = 0 := by
  constructor
  · intro hcode
    cases result with
    | error e => simp [Except.toOption] at hcode
    | ok code =>
      obtain rfl : code = 0 := hcode
      obtain ⟨status, hboot, hzero⟩ := (hends.ended 0).1 rfl
      have hmem : (⟨s.bootCall extraArgs, .ok status⟩ : Attempt) ∈ t.all := by
        simp [all, hboot]
      refine ⟨_, hmem, rfl, (hin.started _ hmem).2 ⟨status, rfl⟩, status, rfl, ?_⟩
      exact status.passedOn_eq_zero_iff.1 (by omega)
  · rintro ⟨a, ha, hprogram, -, status, hstatus, hzero⟩
    obtain ⟨hboot, hcall⟩ := hin.eq_boot ha hprogram
    have ha : a = ⟨s.bootCall extraArgs, .ok status⟩ := by
      rw [← hcall, ← hstatus]
    have hok : result = .ok 0 := by
      refine (hends.ended 0).2 ⟨status, ha ▸ hboot, ?_⟩
      rw [status.passedOn_eq_zero_iff.2 hzero]
      rfl
    rw [hok]
    rfl

end RunAttempts

namespace CommandLine

theorem perform_run {a : Arguments} (ha : a.command = .run) (cwd : Path) (env : Environment) :
    perform cwd env a =
      Command.withSetup cwd (a.request env) fun s => Command.run s a.emulatorArgs := by
  unfold perform
  rw [ha]

theorem run_of_read {env : Environment} {args : List String} {a : Arguments}
    (hread : read env args = .ok a) (h : Host) :
    ∃ out err, (run env args).run h =
      (.ok ⟨((perform h.workDir.toPath env a).run h).1.toOption.getD 1, out, err⟩,
        ((perform h.workDir.toPath env a).run h).2) := by
  unfold run
  rw [hread]
  exact ⟨_, _, rfl⟩

end CommandLine

theorem Command.run_by_attempts (h : Host) (cwd : Path) (request : Request)
    (extraArgs : List String) :
    let r := (withSetup cwd request fun s => run s extraArgs).run h
    match Setup.resolve h.toFileView cwd request with
    | .error e => r.1 = .error (.setup e)
    | .ok s => ∃ (t : RunAttempts) (between : Host) (result : Except BootError Int),
        t.InOrder s extraArgs h between r.2 ∧ t.Ends s extraArgs h between result ∧
          r.1 = result.mapError .running := by
  have hruns := runs_withSetup cwd request extraArgs h
  intro r
  cases hresolve : Setup.resolve h.toFileView cwd request with
  | error e =>
    simp only [hresolve] at hruns
    exact hruns.1
  | ok s =>
    simp only [hresolve] at hruns
    obtain ⟨_, ⟨_, _, _, _, between, hsweep, hbefore, hafter, hcourse⟩, hresult⟩ := hruns
    exact ⟨_, between, _, hcourse.inOrder hsweep hbefore hafter, hcourse.ends hbefore hafter,
      hresult⟩

/-- The code of the program is that of its run, or 1 after an error. -/
theorem CommandLine.code_of_run {env : Environment} {args : List String} {a : Arguments}
    (hread : read env args = .ok a) (ha : a.command = .run) (h : Host) :
    let r := (Command.withSetup h.workDir.toPath (a.request env) fun s =>
      Command.run s a.emulatorArgs).run h
    ∃ outcome, (run env args).run h = (.ok outcome, r.2) ∧
      outcome.code = r.1.toOption.getD 1 := by
  obtain ⟨out, err, hrun⟩ := run_of_read hread h
  rw [perform_run ha] at hrun
  exact ⟨_, hrun, rfl⟩

/-- A run with a setup ends as its attempts decide. The program exits with the code of its run, or
with 1 after an error, and with 0 only after an emulator that has exited with 0. -/
theorem Command.run_ends :
    (∀ (h : Host) (cwd : Path) (request : Request) (extraArgs : List String),
      let r := (withSetup cwd request fun s => run s extraArgs).run h
      match Setup.resolve h.toFileView cwd request with
      | .error e => r.1 = .error (.setup e)
      | .ok s => ∃ (t : RunAttempts) (between : Host) (result : Except BootError Int),
          t.InOrder s extraArgs h between r.2 ∧ t.Ends s extraArgs h between result ∧
            r.1 = result.mapError .running) ∧
    ∀ (h : Host) (env : CommandLine.Environment) (args : List String) (a : CommandLine.Arguments),
      CommandLine.read env args = .ok a → a.command = .run →
      let r := (withSetup h.workDir.toPath (a.request env) fun s => run s a.emulatorArgs).run h
      let after := ((CommandLine.run env args).run h).2
      ∃ outcome, ((CommandLine.run env args).run h).1 = .ok outcome ∧
        0 ≤ outcome.code ∧ outcome.code ≤ 255 ∧
        (∀ code, r.1 = .ok code → outcome.code = code) ∧
        (∀ e, r.1 = .error e → outcome.code = 1) ∧
        (outcome.code = 0 ↔
          ∃ s, Setup.resolve h.toFileView h.workDir.toPath (a.request env) = .ok s ∧
          ∃ b ∈ after.attempts.drop h.attempts.length,
            b.invocation.program = s.target.emulator ∧ (h.callOfAttempt? b).isSome ∧
              ∃ status, b.result = .ok status ∧
                status.word &&& 0x7f = 0 ∧ status.word >>> 8 &&& 0xff = 0) := by
  refine ⟨run_by_attempts, ?_⟩
  intro h env args a hread hcommand r after
  obtain ⟨outcome, hrun, hcode⟩ := CommandLine.code_of_run hread hcommand h
  have hafter : after = r.2 := congrArg Prod.snd hrun
  have hall := run_by_attempts h h.workDir.toPath (a.request env) a.emulatorArgs
  have hok (code : Int) (hok : r.1 = .ok code) : outcome.code = code := by
    rw [hcode, hok]
    rfl
  have herror (e : CommandError) (herror : r.1 = .error e) : outcome.code = 1 := by
    rw [hcode, herror]
    rfl
  refine ⟨outcome, congrArg Prod.fst hrun, ?_⟩
  rw [hafter]
  cases hresolve : Setup.resolve h.toFileView h.workDir.toPath (a.request env) with
  | error e =>
    simp only [hresolve] at hall
    rw [herror (.setup e) hall]
    refine ⟨by decide, by decide, ?_, fun _ _ => rfl, ?_⟩
    · intro code hcode
      cases hall.symm.trans hcode
    · simp
  | ok s =>
    simp only [hresolve] at hall
    obtain ⟨t, between, result, hin, hends, hresult⟩ := hall
    have hvalue : outcome.code = result.toOption.getD 1 := by
      rw [hcode, hresult, toOption_mapError]
    have hdrop : r.2.attempts.drop h.attempts.length = t.all := by
      rw [hin.attempts, List.drop_left]
    obtain ⟨hlow, hhigh⟩ := hends.code_range
    refine ⟨hvalue ▸ hlow, hvalue ▸ hhigh, hok, herror, ?_⟩
    rw [hvalue, hdrop, RunAttempts.code_eq_zero_iff hin hends]
    simp

namespace Command

/-- A project whose image is there, and the two programs that a run of it needs. The emulator exits
with 3. -/
def bootHost : Host where
  tree := ⟨Setup.sampleView.tree.entries ++ [
    (["w", "target"], .directory),
    (["w", "target", "riscv64gc-unknown-none-elf"], .directory),
    (["w", "target", "riscv64gc-unknown-none-elf", "debug"], .directory),
    (["w", "target", "riscv64gc-unknown-none-elf", "debug", "k"], .file ⟨#[]⟩ false),
    (["bin"], .directory),
    (["bin", "cargo"], .file ⟨#[]⟩ true),
    (["bin", "qemu-system-riscv64"], .file ⟨#[]⟩ true)]⟩
  workDir := ["w"]
  searchPath := [⟨"/bin"⟩]
  scripts := [
    (["bin", "cargo"], {}),
    (["bin", "qemu-system-riscv64"], { endings := [.exited 3] })]

theorem resolve_bootHost :
    Setup.resolve bootHost.toFileView ⟨"/w"⟩ {} = .ok Setup.sample := by
  have hpieces : (Text.pieces '/' (Path.mk "/w/hartctl.toml").chars).map String.ofList =
      ["", "w", "hartctl.toml"] := by cbv
  have hentry : bootHost.entry ⟨"/w/hartctl.toml"⟩ =
      .ok (.file "[kernel]\nbinary = \"k\"\n".toUTF8 false) :=
    FileView.entry_of_pieces (by cbv) (by decide) (by cbv) hpieces rfl rfl
  exact Setup.resolve_of_manifest hentry Setup.ofText?_sampleManifest rfl rfl

/-- The host after the build. -/
def builtHost (es : List Event) : Host :=
  { bootHost with
    scripts := (["bin", "cargo"], {}) :: bootHost.scripts.filter (·.1 ≠ ["bin", "cargo"])
    events := es }

theorem build_bootHost (es : List Event) :
    ∃ es', (Setup.sample.builder.run Setup.sample.target.buildTarget).run
      { bootHost with events := es } = (.ok (), builtHost es') :=
  ⟨_, rfl⟩

theorem launch_builtHost (es : List Event) :
    ((Setup.sample.plan []).command.run.run (builtHost es)).1 = .ok (.ofStatus (.exited 3)) :=
  rfl

theorem buildAndBoot_bootHost (es : List Event) :
    ((Setup.sample.buildAndBoot []).run { bootHost with events := es }).1 =
      .ok (.ofStatus (.exited 3)) := by
  obtain ⟨es', hbuild⟩ := build_bootHost es
  unfold Setup.buildAndBoot
  rw [run_bind, hbuild]
  exact launch_builtHost es'

theorem run_bootHost (es : List Event) :
    ((run Setup.sample []).run { bootHost with events := es }).1 = .ok 3 := by
  obtain ⟨message, es', hsweep⟩ : ∃ message es',
      (sweepUnder (fun name => (Setup.sample.sweeper.sweep name : HostM _))
        Setup.sample.target.emulator Setup.sample.sweepPolicy).run { bootHost with events := es } =
        (.ok (.ignored message), { bootHost with events := es' }) := ⟨_, _, rfl⟩
  have hrunner := run_runner Setup.sample [] { bootHost with events := es }
  rw [hsweep] at hrunner
  dsimp only at hrunner
  have hcode : (GuestExit.ofStatus (.exited 3)).exitCode = 3 := by decide
  unfold run
  rw [run_bind, hrunner, buildAndBoot_bootHost]
  exact congrArg Except.ok hcode

end Command

/-- There is nothing to stop stale emulators with, which the policy lets pass; the build ends well,
and the code of the emulator is the code of the program. -/
theorem Command.run_ends_sample :
    CommandLine.read {} ["run"] = .ok ⟨.run, {}, false, 0, none, []⟩ ∧
      (∃ outcome, ((CommandLine.run {} ["run"]).run bootHost).1 = .ok outcome ∧
        outcome.code = 3) ∧
      ∃ (t : RunAttempts) (between g : Host), t.InOrder Setup.sample [] bootHost between g ∧
        ∃ status, t.boot = some ⟨Setup.sample.bootCall [], .ok status⟩ ∧ status.passedOn = 3 := by
  have hread : CommandLine.read {} ["run"] = .ok ⟨.run, {}, false, 0, none, []⟩ := by cbv
  have hr : ((withSetup ⟨"/w"⟩ {} fun s => run s []).run bootHost).1 = .ok 3 := by
    obtain ⟨events, hopen, -⟩ := run_openSetup ⟨"/w"⟩ {} bootHost
    rw [resolve_bootHost] at hopen
    unfold withSetup
    rw [run_bind, hopen]
    exact run_bootHost events
  refine ⟨hread, ?_, ?_⟩
  · obtain ⟨outcome, hrun, -, -, hcode, -⟩ := run_ends.2 bootHost {} ["run"] _ hread rfl
    exact ⟨outcome, hrun, hcode 3 hr⟩
  · have hall := run_ends.1 bootHost ⟨"/w"⟩ {} []
    simp only [resolve_bootHost] at hall
    obtain ⟨t, between, result, hin, hends, hresult⟩ := hall
    have hok : result = .ok 3 := by
      rw [hr] at hresult
      cases result with
      | error e => cases hresult
      | ok code =>
        cases hresult
        rfl
    obtain ⟨status, hboot, hcode⟩ := (hends.ended 3).1 hok
    exact ⟨t, between, _, hin, status, hboot, by omega⟩

end RiscvBoot
