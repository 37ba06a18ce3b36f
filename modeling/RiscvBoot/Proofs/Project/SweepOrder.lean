import RiscvBoot.Proofs.Boot.Order
import RiscvBoot.Proofs.Project.Resolve

/-!
# Stopping what a run would start

Wherever there is a setup, the command that only stops emulators resolves the same target and
settle time. On every host it asks for the same programs as the first step of a run would, and
they come out the same way.
-/

set_option autoImplicit false

namespace RiscvBoot

open Host

/-! ## The order -/

section Resolve

variable {v : FileView} {cwd : Path} {request : Request} {s : Setup}

theorem SweepOrder.manifest_of_project {p : Project} (h : Project.find v cwd = .ok p) :
    SweepOrder.manifest v cwd = (p.manifest, []) := by
  obtain ⟨found, hfound, rfl⟩ := map_eq_ok_iff.1 h
  unfold SweepOrder.manifest
  rw [hfound]
  cases found with
  | none => rfl
  | some located => rfl

theorem SweepOrder.resolve_of_setup (hs : Setup.resolve v cwd request = .ok s) :
    SweepOrder.resolve v cwd request.choice request.strict = ⟨s.target, s.settleTimeout⟩ := by
  obtain ⟨p, target, binary, hp, htarget, -, rfl⟩ := Setup.resolve_eq_ok_iff.1 hs
  unfold SweepOrder.resolve
  simp only [SweepOrder.manifest_of_project hp, htarget]
  rfl

end Resolve

/-! ## The programs that are asked for -/

theorem leads_kill (t : SweepOrder) (h : Host) :
    ((sweepUnder (fun name => (t.sweeper.sweep name : HostM _)) t.target.emulator
      .keepGoing).run h).2.Leads [] ((Command.kill t).run h).2 := by
  unfold Command.kill sweepAnyway
  simp only [run_bind]
  generalize (sweepUnder (fun name => (t.sweeper.sweep name : HostM _)) t.target.emulator
    .keepGoing).run h = first
  obtain ⟨verdict, k⟩ := first
  cases verdict with
  | error e => exact leads_print k _
  | ok status => exact leads_print k _

/-- After its first step a run asks for nothing but the build program and the emulator. -/
theorem leads_afterSweep (s : Setup) (extraArgs : List String) (h : Host) :
    ∃ rest, ((sweepUnder (fun name => (s.sweeper.sweep name : HostM _)) s.target.emulator
          s.sweepPolicy).run h).2.Leads rest ((Command.run s extraArgs).run h).2 ∧
      ∀ a ∈ rest, a.invocation = s.buildCall ∨ a.invocation = s.bootCall extraArgs := by
  unfold Command.run
  simp only [run_bind]
  rw [run_runner]
  generalize (sweepUnder (fun name => (s.sweeper.sweep name : HostM _)) s.target.emulator
    s.sweepPolicy).run h = first
  obtain ⟨verdict, k⟩ := first
  cases verdict with
  | error e => exact ⟨[], .refl k, by simp⟩
  | ok status =>
    -- What has been swept decides whether the rest is reached, not what it asks for.
    have hgoesOn : s.GoesOn (.ok .notFound) := .inl ⟨_, rfl⟩
    obtain ⟨answer, booted, g, hbuild, hboot, -⟩ := course_buildAndBoot hgoesOn extraArgs k
    have hrest := hbuild.trans hboot
    have hall : ∀ a ∈ [⟨s.buildCall, answer⟩] ++
        (booted.map (Attempt.mk (s.bootCall extraArgs))).toList,
        a.invocation = s.buildCall ∨ a.invocation = s.bootCall extraArgs := by
      intro a ha
      rcases List.mem_cons.1 ha with rfl | ha
      · exact .inl rfl
      · obtain ⟨answer', -, rfl⟩ := Option.map_eq_some_iff.1 (Option.mem_toList.1 ha)
        exact .inr rfl
    refine ⟨_, ?_, hall⟩
    dsimp only
    cases ((s.buildAndBoot extraArgs).run k).1 with
    | error e => exact hrest
    | ok exit => exact hrest.log _

/-- The command that only stops emulators asks for the same programs as the first step of a run,
and what the run starts at the end is the emulator they were asked about. -/
theorem Command.kill_attempts_begin_run {v : FileView} {cwd : Path} {request : Request} {s : Setup}
    (hs : Setup.resolve v cwd request = .ok s) :
    let order := SweepOrder.resolve v cwd request.choice request.strict
    order.target = s.target ∧ order.settleTimeout = s.settleTimeout ∧
    order.sweeper = s.sweeper ∧
    ∀ (extraArgs : List String) (h : Host), ∃ kill probes rest,
      ((Command.kill order).run h).2.attempts = h.attempts ++ kill :: probes ∧
      ((Command.run s extraArgs).run h).2.attempts = h.attempts ++ kill :: probes ++ rest ∧
      kill.invocation = ⟨"pkill", ["-f", Sweeper.patternFor order.target.emulator], none⟩ ∧
      (∀ a ∈ probes,
        a.invocation = ⟨"pgrep", ["-f", Sweeper.patternFor order.target.emulator], none⟩) ∧
      ∀ a ∈ rest, a.invocation = s.buildCall ∨
        a.invocation = ⟨order.target.emulator, s.emulatorArgs extraArgs, none⟩ := by
  intro order
  have horder : order = ⟨s.target, s.settleTimeout⟩ := SweepOrder.resolve_of_setup hs
  clear_value order
  subst horder
  refine ⟨rfl, rfl, rfl, ?_⟩
  intro extraArgs h
  obtain ⟨kill, probes, hattempts, hpolicy⟩ := leads_sweepUnder s.sweeper s.target.emulator h
  obtain ⟨rest, hrest, hinvocations⟩ := leads_afterSweep s extraArgs h
  have hkill := (hpolicy .keepGoing).1.trans (leads_kill ⟨s.target, s.settleTimeout⟩ h)
  have hrun := (hpolicy s.sweepPolicy).1.trans hrest
  refine ⟨kill, probes, rest, ?_, ?_, hattempts.kill_invocation, hattempts.probe_invocation, ?_⟩
  · rw [hkill.attempts, List.append_nil]
  · rw [hrun.attempts, List.append_assoc]
  · intro a ha
    rw [← s.bootCall_eq extraArgs]
    exact hinvocations a ha

theorem Command.kill_attempts_begin_run_sample :
    let order := SweepOrder.resolve Setup.sampleView ⟨"/w"⟩ {} false
    Setup.resolve Setup.sampleView ⟨"/w"⟩ {} = .ok Setup.sample ∧
    order.target = Setup.sample.target ∧ order.settleTimeout = .usualSettleTime ∧
    ∀ h : Host, ∃ attempts rest, ((Command.kill order).run h).2.attempts = h.attempts ++ attempts ∧
      ((Command.run Setup.sample []).run h).2.attempts = h.attempts ++ attempts ++ rest := by
  intro order
  obtain ⟨htarget, htimeout, -, hall⟩ := kill_attempts_begin_run Setup.resolve_sampleView
  refine ⟨Setup.resolve_sampleView, htarget, htimeout, ?_⟩
  intro h
  obtain ⟨kill, probes, rest, hkill, hrun, -⟩ := hall [] h
  exact ⟨kill :: probes, rest, hkill, hrun⟩

end RiscvBoot
