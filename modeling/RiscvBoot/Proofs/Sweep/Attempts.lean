import RiscvBoot.Proofs.Host.History

/-!
# What a sweeper asks for on a host

A sweeper asks for its kill program once. Only when that program has reached something, or says
that it reached nothing, does it ask for its probe program, always about the same pattern.
-/

set_option autoImplicit false

namespace RiscvBoot.Sweeper

open Host

variable (s : Sweeper) (name pattern : String)

/-- The request for the kill program, and those for the probe program after it. -/
structure Attempts (kill : Attempt) (probes : List Attempt) : Prop where
  kill_invocation : kill.invocation = ⟨s.killer, ["-f", patternFor name], none⟩
  probe_invocation : ∀ a ∈ probes, a.invocation = ⟨s.prober, ["-f", patternFor name], none⟩
  probed_after : probes ≠ [] → ∃ status, kill.result = .ok status ∧
    (status.code? = some 0 ∨ status.code? = some 1)

/-! ## Requests -/

theorem leads_anyLeft (h : Host) :
    ∃ a : Attempt, h.Leads [a] ((s.anyLeft pattern : HostM _).run h).2 ∧
      a.invocation = ⟨s.prober, ["-f", pattern], none⟩ := by
  refine ⟨⟨{ program := s.prober, args := ["-f", pattern] },
    ((ProcessControl.runQuietly s.prober ["-f", pattern] : HostM _).run h).1⟩, ?_, rfl⟩
  have hquiet := leads_runQuietly h s.prober ["-f", pattern]
  unfold anyLeft
  rw [run_bind]
  cases hresult : ((ProcessControl.runQuietly s.prober ["-f", pattern] : HostM _).run h).1 with
  | error e =>
    simp only [hresult] at hquiet
    exact hquiet
  | ok status =>
    simp only [hresult] at hquiet
    exact hquiet

theorem leads_awaitExit (start : Instant) (fuel : Nat) (h : Host) :
    ∃ probes, h.Leads probes ((s.awaitExit name pattern start fuel : HostM _).run h).2 ∧
      ∀ a ∈ probes, a.invocation = ⟨s.prober, ["-f", pattern], none⟩ := by
  -- By induction on the probes that are left: one probe, and the rest if it finds something in
  -- time.
  induction fuel generalizing h with
  | zero => exact ⟨[], .refl h, by simp⟩
  | succ fuel ih =>
    obtain ⟨a, ha, hinvocation⟩ := leads_anyLeft s pattern h
    have hlast : ∀ b ∈ [a], b.invocation = ⟨s.prober, ["-f", pattern], none⟩ := by
      intro b hb
      rw [List.mem_singleton.1 hb, hinvocation]
    unfold awaitExit
    rw [run_bind]
    match ((s.anyLeft pattern : HostM _).run h).1 with
    | .error e => exact ⟨[a], ha, hlast⟩
    | .ok false => exact ⟨[a], ha, hlast⟩
    | .ok true =>
      simp only [run_bind]
      split
      · exact ⟨[a], ha, hlast⟩
      · rw [run_bind]
        obtain ⟨probes, hprobes, hinvocations⟩ :=
          ih ((ProcessControl.pause probePause : HostM Unit).run
            ((s.anyLeft pattern : HostM _).run h).2).2
        refine ⟨[a] ++ ([] ++ probes), ha.trans ((leads_pause _ probePause).trans hprobes), ?_⟩
        intro b hb
        rcases List.mem_append.1 hb with hb | hb
        · exact hlast b hb
        · exact hinvocations b hb

theorem leads_follow (status : WaitStatus) (fuel : Nat) (h : Host) :
    ∃ probes, h.Leads probes ((s.follow name pattern status fuel : HostM _).run h).2 ∧
      (∀ a ∈ probes, a.invocation = ⟨s.prober, ["-f", pattern], none⟩) ∧
      (probes ≠ [] → status.code? = some 0 ∨ status.code? = some 1) := by
  unfold follow
  split
  · rename_i hcode
    obtain ⟨probes, hprobes, hinvocations⟩ := leads_awaitExit s name pattern h.clock fuel h
    exact ⟨probes, hprobes, hinvocations, fun _ => .inl hcode⟩
  · rename_i hcode
    obtain ⟨a, ha, hinvocation⟩ := leads_anyLeft s pattern h
    refine ⟨[a], ?_, by simpa using hinvocation, fun _ => .inr hcode⟩
    rw [run_bind]
    match ((s.anyLeft pattern : HostM _).run h).1 with
    | .error e => exact ha
    | .ok true => exact ha
    | .ok false => exact ha
  · exact ⟨[], .refl h, by simp, by simp⟩

theorem leads_sweep? (fuel : Nat) (h : Host) :
    ∃ kill probes, h.Leads (kill :: probes) ((s.sweep? name fuel : HostM _).run h).2 ∧
      s.Attempts name kill probes := by
  have hlog := leads_log h ⟨.debug, .boot, s!"{s.killer} -f '{patternFor name}'"⟩
  unfold sweep?
  simp only [run_bind, run_debug]
  generalize h.log _ = k at hlog
  have hkill := hlog.trans (leads_runQuietly k s.killer ["-f", patternFor name])
  match hanswer : ((ProcessControl.runQuietly s.killer ["-f", patternFor name] : HostM _).run k).1
    with
  | .error e => exact ⟨_, [], hkill, ⟨rfl, by simp, by simp⟩⟩
  | .ok status =>
    obtain ⟨probes, hprobes, hinvocations, hafter⟩ :=
      leads_follow s name (patternFor name) status fuel _
    exact ⟨_, probes, hkill.trans hprobes, ⟨rfl, hinvocations,
      fun hne => ⟨status, hanswer, hafter hne⟩⟩⟩

theorem leads_sweep (h : Host) :
    ∃ kill probes, h.Leads (kill :: probes) ((s.sweep name : HostM _).run h).2 ∧
      s.Attempts name kill probes := by
  obtain ⟨kill, probes, hleads, hattempts⟩ := leads_sweep? s name s.probeLimit h
  refine ⟨kill, probes, ?_, hattempts⟩
  unfold sweep
  rw [run_bind]
  cases ((s.sweep? name s.probeLimit : HostM _).run h).1 <;> exact hleads

/-! ## The past does not matter -/

theorem blind_anyLeft : Blind (s.anyLeft pattern : HostM _) := by
  refine Blind.bind (Blind.runQuietly _ _) fun r => ?_
  cases r <;> exact Blind.pure _

theorem blind_awaitExit (start : Instant) (fuel : Nat) :
    Blind (s.awaitExit name pattern start fuel : HostM _) := by
  induction fuel with
  | zero => exact Blind.pure _
  | succ fuel ih =>
    refine Blind.bind (blind_anyLeft s pattern) fun r => ?_
    match r with
    | .error e => exact Blind.pure _
    | .ok false => exact Blind.pure _
    | .ok true =>
      refine Blind.bind Blind.now fun time => ?_
      dsimp only
      split
      · exact Blind.pure _
      · exact Blind.bind (Blind.pause probePause) fun _ => ih

theorem blind_follow (status : WaitStatus) (fuel : Nat) :
    Blind (s.follow name pattern status fuel : HostM _) := by
  unfold follow
  split
  · exact Blind.bind Blind.now fun time => blind_awaitExit s name pattern time fuel
  · refine Blind.bind (blind_anyLeft s pattern) fun r => ?_
    match r with
    | .error e => exact Blind.pure _
    | .ok true => exact Blind.pure _
    | .ok false => exact Blind.pure _
  · exact Blind.pure _

theorem blind_sweep? (fuel : Nat) : Blind (s.sweep? name fuel : HostM _) := by
  refine Blind.bind (Blind.record _) fun _ => ?_
  refine Blind.bind (Blind.runQuietly _ _) fun r => ?_
  cases r with
  | error e => exact Blind.pure _
  | ok status => exact blind_follow s name (patternFor name) status fuel

/-- Whether a sweep succeeds does not depend on what has happened before. -/
theorem blind_sweep : Blind (s.sweep name : HostM _) := by
  refine Blind.bind (blind_sweep? s name s.probeLimit) fun r => ?_
  cases r <;> exact Blind.pure _

end RiscvBoot.Sweeper
