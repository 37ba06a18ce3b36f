import RiscvBoot.Proofs.Sweep.Outcome

/-!
# What a successful sweep has been told

A sweep succeeds exactly when its last probe ran and did not end well. That is less than a
confirmation: a probe program says that nothing matches by ending with 1, and it ends with another
code, or by a signal, when it could not look at all.
-/

set_option autoImplicit false

namespace RiscvBoot.Sweeper

/-- The ways in which a sweep with this many probes comes to a success. -/
inductive EndsUnwell (kill : Except SystemError WaitStatus)
    (probes : Nat → Except SystemError WaitStatus) : Swept → Nat → Prop where
  | terminated {killed last : WaitStatus} {n : Nat} (hkill : kill = .ok killed)
      (hcode : killed.code? = some 0) (hlast : probes n = .ok last)
      (hleft : last.isSuccess = false) : EndsUnwell kill probes .terminated (n + 1)
  | notFound {killed last : WaitStatus} (hkill : kill = .ok killed)
      (hcode : killed.code? = some 1) (hlast : probes 0 = .ok last)
      (hleft : last.isSuccess = false) : EndsUnwell kill probes .notFound 1

section Success

variable {s : Sweeper} {name : String} {kill : Except SystemError WaitStatus}
  {probes : Nat → Except SystemError WaitStatus} {waits : Nat → Duration} {fuel n : Nat}
  {result : Option (Except SweepError Swept)} {outcome : Swept}

theorem verdict_eq_ok_iff {waited : Duration} {answer : Except SystemError WaitStatus} :
    s.verdict name waited answer = .ok outcome ↔
      outcome = .terminated ∧ ∃ last, answer = .ok last ∧ last.isSuccess = false := by
  cases answer with
  | error e => simp [verdict]
  | ok status =>
    cases hleft : status.isSuccess with
    | true => simp [verdict, hleft]
    | false =>
      simp only [verdict, hleft]
      constructor
      · intro h
        cases h
        exact ⟨rfl, status, rfl, hleft⟩
      · rintro ⟨rfl, -⟩
        rfl

theorem Awaits.ok_iff (h : s.Awaits name probes waits fuel result n) :
    result = some (.ok outcome) ↔ outcome = .terminated ∧
      ∃ k last, n = k + 1 ∧ probes k = .ok last ∧ last.isSuccess = false := by
  cases h with
  | undecided hall =>
    constructor
    · intro hresult
      cases hresult
    · rintro ⟨-, k, last, rfl, hprobe, hleft⟩
      obtain ⟨status, hstatus, hsuccess, -⟩ := hall k (Nat.lt_succ_self k)
      obtain rfl : last = status := Except.ok.inj (hprobe.symm.trans hstatus)
      rw [hleft] at hsuccess
      cases hsuccess
  | @decided k _ _ _ =>
    rw [Option.some_inj, verdict_eq_ok_iff]
    constructor
    · rintro ⟨rfl, last, hprobe, hleft⟩
      exact ⟨rfl, k, last, rfl, hprobe, hleft⟩
    · rintro ⟨rfl, k', last, hk, hprobe, hleft⟩
      obtain rfl : k = k' := Nat.succ.inj hk
      exact ⟨rfl, last, hprobe, hleft⟩

theorem Course.ok_iff (h : s.Course name kill probes waits fuel result n) :
    result = some (.ok outcome) ↔ EndsUnwell kill probes outcome n := by
  constructor
  · rintro rfl
    cases h with
    | notFound hkill hcode hprobe hleft => exact .notFound hkill hcode hprobe hleft
    | reached hkill hcode hawaits =>
      obtain ⟨rfl, k, last, rfl, hprobe, hleft⟩ := hawaits.ok_iff.1 rfl
      exact .terminated hkill hcode hprobe hleft
  · intro hends
    cases hends with
    | terminated hkill hcode hlast hleft =>
      exact (h.awaits hkill hcode).ok_iff.2 ⟨rfl, _, _, rfl, hlast, hleft⟩
    | notFound hkill hcode hlast hleft =>
      have hresult := (h.outcome.reached_nothing _ hkill hcode).2
      simpa [hlast, hleft] using hresult

/-- Where every probe that runs ends with 0 or 1, a success is what the last probe has said. -/
theorem EndsUnwell.confirmed (h : EndsUnwell kill probes outcome n)
    (hprobes : ∀ k status, probes k = .ok status → status = .exited 0 ∨ status = .exited 1) :
    ∃ k, n = k + 1 ∧ probes k = .ok (.exited 1) := by
  have hlast {k : Nat} {last : WaitStatus} (hprobe : probes k = .ok last)
      (hleft : last.isSuccess = false) : probes k = .ok (.exited 1) := by
    rcases hprobes k last hprobe with rfl | rfl
    · rw [WaitStatus.isSuccess_exited] at hleft
      cases hleft
    · exact hprobe
  cases h with
  | @terminated _ _ k _ _ hprobe hleft => exact ⟨k, rfl, hlast hprobe hleft⟩
  | notFound _ _ hprobe hleft => exact ⟨0, rfl, hlast hprobe hleft⟩

end Success

section Scenes

variable (s : Sweeper) (name : String) (kill : Except SystemError WaitStatus)
  (probes : Nat → Except SystemError WaitStatus) (clock : Nat → Instant) (outcome : Swept)

theorem run_sweep?_eq_ok_iff (fuel : Nat) :
    let r := (s.sweep? name fuel : StateM Scene _).run (.ofAnswers kill probes clock)
    r.1 = some (.ok outcome) ↔
      ∃ probed, r.2.calls = s.killCall name :: List.replicate probed (s.probeCall name) ∧
        EndsUnwell kill probes outcome probed := by
  intro r
  obtain ⟨n, hcourse, hcalls⟩ := run_sweep? s name kill probes clock fuel
  rw [hcourse.ok_iff]
  constructor
  · intro hends
    exact ⟨n, hcalls, hends⟩
  · rintro ⟨probed, hprobed, hends⟩
    have hlength := congrArg List.length (hcalls.symm.trans hprobed)
    obtain rfl : n = probed := by simpa using hlength
    exact hends

theorem run_sweep_eq_ok_iff :
    let r := (s.sweep name : StateM Scene _).run (.ofAnswers kill probes clock)
    r.1 = .ok outcome ↔
      ∃ probed, r.2.calls = s.killCall name :: List.replicate probed (s.probeCall name) ∧
        EndsUnwell kill probes outcome probed := by
  rw [run_sweep]
  refine Iff.trans ?_ (run_sweep?_eq_ok_iff s name kill probes clock outcome s.probeLimit)
  cases ((s.sweep? name s.probeLimit : StateM Scene _).run (.ofAnswers kill probes clock)).1 with
  | none => simp
  | some result => simp

/-- A sweep succeeds exactly when its last probe ran and did not end well, whatever code or signal
it ended with. Where every probe that runs ends with 0 or 1, a success is a confirmation. -/
theorem success_iff_ends_unwell :
    (∀ fuel, let r := (s.sweep? name fuel : StateM Scene _).run (.ofAnswers kill probes clock)
      r.1 = some (.ok outcome) ↔
        ∃ probed, r.2.calls = s.killCall name :: List.replicate probed (s.probeCall name) ∧
          EndsUnwell kill probes outcome probed) ∧
    let r := (s.sweep name : StateM Scene _).run (.ofAnswers kill probes clock)
    (r.1 = .ok outcome ↔
      ∃ probed, r.2.calls = s.killCall name :: List.replicate probed (s.probeCall name) ∧
        EndsUnwell kill probes outcome probed) ∧
    ((∀ k status, probes k = .ok status → status = .exited 0 ∨ status = .exited 1) →
      r.1 = .ok outcome → ∃ k,
        r.2.calls = s.killCall name :: List.replicate (k + 1) (s.probeCall name) ∧
          probes k = .ok (.exited 1)) := by
  refine ⟨run_sweep?_eq_ok_iff s name kill probes clock outcome,
    run_sweep_eq_ok_iff s name kill probes clock outcome, ?_⟩
  intro hprobes hsuccess
  obtain ⟨probed, hcalls, hends⟩ :=
    (run_sweep_eq_ok_iff s name kill probes clock outcome).1 hsuccess
  obtain ⟨k, rfl, hconfirmed⟩ := hends.confirmed hprobes
  exact ⟨k, hcalls, hconfirmed⟩

end Scenes

/-- The first probe finds something, and the second one says that nothing is left. -/
theorem success_iff_ends_unwell_sample :
    let probes : Nat → Except SystemError WaitStatus :=
      fun k => .ok (.exited (if k = 0 then 0 else 1))
    let r := (({} : Sweeper).sweep "emu" : StateM Scene _).run
      (.ofAnswers (.ok (.exited 0)) probes fun _ => ⟨0⟩)
    (∀ k status, probes k = .ok status → status = .exited 0 ∨ status = .exited 1) ∧
      r.1 = .ok .terminated ∧
      ∃ k, r.2.calls = ({} : Sweeper).killCall "emu" ::
          List.replicate (k + 1) (({} : Sweeper).probeCall "emu") ∧
        probes k = .ok (.exited 1) := by
  intro probes r
  have hprobes : ∀ k status, probes k = .ok status → status = .exited 0 ∨ status = .exited 1 := by
    intro k status hstatus
    obtain rfl := Except.ok.inj hstatus
    cases k with
    | zero => exact .inl rfl
    | succ k => exact .inr rfl
  have hsuccess : r.1 = .ok .terminated := by
    subst r probes
    rfl
  obtain ⟨-, -, hconfirms⟩ := success_iff_ends_unwell {} "emu" (.ok (.exited 0)) probes
    (fun _ => ⟨0⟩) .terminated
  exact ⟨hprobes, hsuccess, hconfirms hprobes hsuccess⟩

/-- A probe program that rejects the pattern lets a sweep succeed. -/
theorem success_without_confirmation :
    ¬∀ (s : Sweeper) (name : String) (kill : Except SystemError WaitStatus)
        (probes : Nat → Except SystemError WaitStatus) (clock : Nat → Instant) (outcome : Swept),
        let r := (s.sweep name : StateM Scene _).run (.ofAnswers kill probes clock)
        r.1 = .ok outcome → ∃ k last,
          r.2.calls = s.killCall name :: List.replicate (k + 1) (s.probeCall name) ∧
            probes k = .ok last ∧ last.code? = some 1 := by
  intro hclaim
  have hsweep := hclaim {} "qemu-system-riscv64" (.ok (.exited 1)) (fun _ => .ok (.exited 2))
    (fun _ => ⟨0⟩) .notFound rfl
  obtain ⟨_, last, -, hlast, hcode⟩ := hsweep
  obtain rfl : WaitStatus.exited 2 = last := Except.ok.inj hlast
  rw [WaitStatus.code?_exited] at hcode
  cases hcode

end RiscvBoot.Sweeper
