import RiscvBoot.Host.Basic
import RiscvBoot.Proofs.State

/-!
# What a sweep comes to

A `Scene` answers a sweeper from sequences: how the kill program ends, how the probes end one after
the other, and what the clock shows each time it is looked at. A sweep that has reached something
is over at the first probe that does not let it go on (`Sweeper.GoesOn`). Main statement: how a
sweep ends and how often it probes follows from the answers (`Sweeper.sweep_outcome`).
-/

set_option autoImplicit false

namespace RiscvBoot

/-- Surroundings that answer from sequences, and keep what they have been asked for. -/
structure Scene where
  ends : Nat → Except SystemError WaitStatus
  clock : Nat → Instant
  calls : List Invocation := []
  looks : Nat := 0

namespace Scene

/-- The kill program is the first one that is run, and every later one is a probe. -/
def ofAnswers (kill : Except SystemError WaitStatus)
    (probes : Nat → Except SystemError WaitStatus) (clock : Nat → Instant) : Scene where
  ends n := match n with
    | 0 => kill
    | k + 1 => probes k
  clock := clock

instance : ProcessControl (StateM Scene) where
  runQuietly program args := modifyGet fun w =>
    (w.ends w.calls.length, { w with calls := w.calls ++ [{ program, args }] })
  now := modifyGet fun w => (w.clock w.looks, { w with looks := w.looks + 1 })
  pause _ := pure ()

-- The log is not part of a scene.
instance : Log.Writer (StateM Scene) where
  write _ := pure ()

def afterProbe (w : Scene) (i : Invocation) : Scene :=
  { w with calls := w.calls ++ [i], looks := w.looks + 1 }

/-- The clock does not run backwards, and it goes on by a pause between two probes. -/
structure PausesLast (clock : Nat → Instant) : Prop where
  first : clock 0 ≤ clock 1
  pause : ∀ k, clock (k + 1) + Sweeper.probePause ≤ clock (k + 2)

theorem run_runQuietly (w : Scene) (program : String) (args : List String) :
    (ProcessControl.runQuietly program args : StateM Scene _).run w =
      (w.ends w.calls.length, { w with calls := w.calls ++ [{ program, args }] }) := rfl

end Scene

namespace Sweeper

def killCall (s : Sweeper) (name : String) : Invocation := ⟨s.killer, ["-f", patternFor name], none⟩

def probeCall (s : Sweeper) (name : String) : Invocation :=
  ⟨s.prober, ["-f", patternFor name], none⟩

/-- How long has been waited when a probe is over. The clock is first looked at before the
probes. -/
def waited (clock : Nat → Instant) (k : Nat) : Duration := (clock (k + 1)).since (clock 0)

/-! ## The wait -/

section Wait

variable (s : Sweeper) (name : String) (probes : Nat → Except SystemError WaitStatus)
  (waits : Nat → Duration)

/-- After this probe something is left, and there is time for another one. -/
def GoesOn (k : Nat) : Prop :=
  ∃ status, probes k = .ok status ∧ status.isSuccess = true ∧ ¬s.settleTimeout ≤ waits k

/-- What a wait comes to at a probe that does not let it go on. -/
def verdict (waited : Duration) : Except SystemError WaitStatus → Except SweepError Swept
  | .error e => .error (.spawn s.prober e)
  | .ok status =>
    if status.isSuccess then .error (.stillRunning name waited) else .ok .terminated

/-- What a wait of at most `fuel` probes comes to, and how many of them it makes. -/
inductive Awaits (fuel : Nat) : Option (Except SweepError Swept) → Nat → Prop where
  | decided {k : Nat} (hk : k < fuel) (hbefore : ∀ j < k, s.GoesOn probes waits j)
      (hends : ¬s.GoesOn probes waits k) :
      Awaits fuel (some (s.verdict name (waits k) (probes k))) (k + 1)
  | undecided (hbefore : ∀ j < fuel, s.GoesOn probes waits j) : Awaits fuel none fuel

variable {s name probes waits} {fuel n : Nat} {result : Option (Except SweepError Swept)}

theorem Awaits.of_first (hends : ¬s.GoesOn probes waits 0) :
    s.Awaits name probes waits (fuel + 1) (some (s.verdict name (waits 0) (probes 0))) 1 :=
  .decided fuel.succ_pos (by simp) hends

theorem Awaits.of_error {e : SystemError} (hprobe : probes 0 = .error e) :
    s.Awaits name probes waits (fuel + 1) (some (.error (.spawn s.prober e))) 1 := by
  have hends : ¬s.GoesOn probes waits 0 := by
    rintro ⟨status, hstatus, -, -⟩
    rw [hprobe] at hstatus
    cases hstatus
  have hfirst : s.Awaits name probes waits (fuel + 1) _ 1 := .of_first hends
  rwa [hprobe] at hfirst

theorem Awaits.of_gone {status : WaitStatus} (hprobe : probes 0 = .ok status)
    (hleft : status.isSuccess = false) :
    s.Awaits name probes waits (fuel + 1) (some (.ok .terminated)) 1 := by
  have hends : ¬s.GoesOn probes waits 0 := by
    rintro ⟨other, hother, hsuccess, -⟩
    rw [hprobe] at hother
    cases hother
    simp [hleft] at hsuccess
  simpa [verdict, hprobe, hleft] using
    (Awaits.of_first hends : s.Awaits name probes waits (fuel + 1) _ 1)

theorem Awaits.of_late {status : WaitStatus} (hprobe : probes 0 = .ok status)
    (hleft : status.isSuccess = true) (hlate : s.settleTimeout ≤ waits 0) :
    s.Awaits name probes waits (fuel + 1) (some (.error (.stillRunning name (waits 0)))) 1 := by
  have hends : ¬s.GoesOn probes waits 0 := fun ⟨_, _, _, hearly⟩ => hearly hlate
  simpa [verdict, hprobe, hleft] using
    (Awaits.of_first hends : s.Awaits name probes waits (fuel + 1) _ 1)

/-- A wait whose first probe lets it go on is the wait from the second probe on, and one more. -/
theorem Awaits.later (hfirst : s.GoesOn probes waits 0)
    (h : s.Awaits name (fun k => probes (k + 1)) (fun k => waits (k + 1)) fuel result n) :
    s.Awaits name probes waits (fuel + 1) result (n + 1) := by
  have hall {m : Nat}
      (hbefore : ∀ j < m, s.GoesOn (fun k => probes (k + 1)) (fun k => waits (k + 1)) j) :
      ∀ j < m + 1, s.GoesOn probes waits j := by
    intro j hj
    cases j with
    | zero => exact hfirst
    | succ j => exact hbefore j (by omega)
  cases h with
  | undecided hbefore => exact .undecided (hall hbefore)
  | decided hk hbefore hends => exact .decided (by omega) (hall hbefore) hends

theorem Awaits.eq_of_not_goesOn {k : Nat} (h : s.Awaits name probes waits fuel result n)
    (hk : k < fuel) (hbefore : ∀ j < k, s.GoesOn probes waits j)
    (hends : ¬s.GoesOn probes waits k) :
    n = k + 1 ∧ result = some (s.verdict name (waits k) (probes k)) := by
  cases h with
  | undecided hall => exact absurd (hall k hk) hends
  | @decided k' _ hbefore' hends' =>
    -- Both probes end the wait, so neither of them comes before the other.
    rcases Nat.lt_trichotomy k k' with hlt | rfl | hgt
    · exact absurd (hbefore' k hlt) hends
    · exact ⟨rfl, rfl⟩
    · exact absurd (hbefore k' hgt) hends'

theorem Awaits.eq_of_goesOn (h : s.Awaits name probes waits fuel result n)
    (hall : ∀ j < fuel, s.GoesOn probes waits j) : n = fuel ∧ result = none := by
  cases h with
  | undecided _ => exact ⟨rfl, rfl⟩
  | @decided k hk _ hends => exact absurd (hall k hk) hends

theorem Awaits.settleTimeout_le (h : s.Awaits name probes waits fuel result n) {other : String}
    {d : Duration} (hresult : result = some (.error (.stillRunning other d))) :
    s.settleTimeout ≤ d := by
  cases h with
  | undecided _ => cases hresult
  | @decided k _ _ hends =>
    cases hprobe : probes k with
    | error e => simp [verdict, hprobe] at hresult
    | ok status =>
      cases hleft : status.isSuccess with
      | false => simp [verdict, hprobe, hleft] at hresult
      | true =>
        obtain ⟨-, rfl⟩ : name = other ∧ waits k = d := by
          simpa [verdict, hprobe, hleft] using hresult
        apply Decidable.byContradiction
        intro hearly
        exact hends ⟨status, hprobe, hleft, hearly⟩

end Wait

/-! ## The sweep -/

section Sweep

variable (s : Sweeper) (name : String) (kill : Except SystemError WaitStatus)
  (probes : Nat → Except SystemError WaitStatus) (waits : Nat → Duration)

/-- How a sweep goes, by the way in which its kill program comes out. -/
inductive Course (fuel : Nat) : Option (Except SweepError Swept) → Nat → Prop where
  | notStarted {e : SystemError} (hkill : kill = .error e) :
      Course fuel (some (.error (.spawn s.killer e))) 0
  | failed {status : WaitStatus} (hkill : kill = .ok status) (hzero : status.code? ≠ some 0)
      (hone : status.code? ≠ some 1) :
      Course fuel (some (.error (.failed s.killer (status.code?.map Int.ofNat)))) 0
  | notProbed {status : WaitStatus} {e : SystemError} (hkill : kill = .ok status)
      (hcode : status.code? = some 1) (hprobe : probes 0 = .error e) :
      Course fuel (some (.error (.spawn s.prober e))) 1
  | notSignalled {status probe : WaitStatus} (hkill : kill = .ok status)
      (hcode : status.code? = some 1) (hprobe : probes 0 = .ok probe)
      (hleft : probe.isSuccess = true) : Course fuel (some (.error (.notSignalled name))) 1
  | notFound {status probe : WaitStatus} (hkill : kill = .ok status)
      (hcode : status.code? = some 1) (hprobe : probes 0 = .ok probe)
      (hleft : probe.isSuccess = false) : Course fuel (some (.ok .notFound)) 1
  | reached {status : WaitStatus} {result : Option (Except SweepError Swept)} {n : Nat}
      (hkill : kill = .ok status) (hcode : status.code? = some 0)
      (hawaits : s.Awaits name probes waits fuel result n) : Course fuel result n

/-- What a sweep comes to and how many probes it makes, case by case. -/
structure Outcome (fuel : Nat) (result : Option (Except SweepError Swept)) (probed : Nat) :
    Prop where
  not_started : ∀ e, kill = .error e → probed = 0 ∧ result = some (.error (.spawn s.killer e))
  reached_nothing : ∀ status, kill = .ok status → status.code? = some 1 → probed = 1 ∧
    result = some (match probes 0 with
      | .error e => .error (.spawn s.prober e)
      | .ok probe => if probe.isSuccess then .error (.notSignalled name) else .ok .notFound)
  decided : ∀ status, kill = .ok status → status.code? = some 0 →
    ∀ k < fuel, (∀ j < k, s.GoesOn probes waits j) → ¬s.GoesOn probes waits k →
      probed = k + 1 ∧ result = some (match probes k with
        | .error e => .error (.spawn s.prober e)
        | .ok probe =>
          if probe.isSuccess then .error (.stillRunning name (waits k)) else .ok .terminated)
  undecided : ∀ status, kill = .ok status → status.code? = some 0 →
    (∀ j < fuel, s.GoesOn probes waits j) → probed = fuel ∧ result = none
  failed : ∀ status, kill = .ok status → status.code? ≠ some 0 → status.code? ≠ some 1 →
    probed = 0 ∧ result = some (.error (.failed s.killer (status.code?.map Int.ofNat)))
  late : ∀ other d, result = some (.error (.stillRunning other d)) → s.settleTimeout ≤ d
  at_once : ∀ status, kill = .ok status → status.code? = some 0 → s.settleTimeout = ⟨0⟩ →
    0 < fuel → probed = 1

variable {s name kill probes waits} {fuel n : Nat} {result : Option (Except SweepError Swept)}

theorem Course.awaits {status : WaitStatus} (h : s.Course name kill probes waits fuel result n)
    (hkill : kill = .ok status) (hcode : status.code? = some 0) :
    s.Awaits name probes waits fuel result n := by
  cases h <;> simp_all

theorem Course.outcome (h : s.Course name kill probes waits fuel result n) :
    s.Outcome name kill probes waits fuel result n := by
  constructor
  case not_started =>
    rintro e rfl
    cases h <;> simp_all
  case reached_nothing =>
    rintro status rfl hcode
    cases h <;> simp_all
  case failed =>
    rintro status rfl hzero hone
    cases h <;> simp_all
  case decided =>
    intro status hkill hcode k hk hbefore hends
    exact (h.awaits hkill hcode).eq_of_not_goesOn hk hbefore hends
  case undecided =>
    intro status hkill hcode hall
    exact (h.awaits hkill hcode).eq_of_goesOn hall
  case late =>
    intro other d hresult
    cases h with
    | reached _ _ hawaits => exact hawaits.settleTimeout_le hresult
    | _ => simp at hresult
  case at_once =>
    intro status hkill hcode hzero hfuel
    have hends : ¬s.GoesOn probes waits 0 := by
      rintro ⟨_, -, -, hearly⟩
      apply hearly
      rw [hzero]
      exact Nat.zero_le _
    exact ((h.awaits hkill hcode).eq_of_not_goesOn hfuel (by simp) hends).1

end Sweep

/-! ## Sweeps in a scene -/

variable {s : Sweeper} {name : String}

theorem run_anyLeft (w : Scene) :
    (s.anyLeft (patternFor name) : StateM Scene _).run w =
      (match w.ends w.calls.length with
        | .error e => .error (.spawn s.prober e)
        | .ok status => .ok status.isSuccess,
      { w with calls := w.calls ++ [s.probeCall name] }) := by
  unfold anyLeft
  rw [run_bind, Scene.run_runQuietly]
  cases w.ends w.calls.length with
  | error e => rfl
  | ok status => rfl

theorem run_awaitExit (s : Sweeper) (name : String) (start : Instant) (fuel : Nat) (w : Scene) :
    let r := (s.awaitExit name (patternFor name) start fuel : StateM Scene _).run w
    ∃ n, s.Awaits name (fun k => w.ends (w.calls.length + k))
        (fun k => (w.clock (w.looks + k)).since start) fuel r.1 n ∧
      r.2.calls = w.calls ++ List.replicate n (s.probeCall name) := by
  -- By induction on the probes that are left: the first of them ends the wait, or it lets the wait
  -- go on with the others, in the scene after it.
  induction fuel generalizing w with
  | zero => exact ⟨0, .undecided (by simp), (List.append_nil _).symm⟩
  | succ fuel ih =>
    unfold awaitExit
    simp only [run_bind, run_anyLeft]
    cases hprobe : w.ends w.calls.length with
    | error e => exact ⟨1, .of_error hprobe, rfl⟩
    | ok status =>
      cases hleft : status.isSuccess with
      | false =>
        simp only [hleft]
        exact ⟨1, .of_gone hprobe hleft, rfl⟩
      | true =>
        simp only [run_bind, hleft]
        split
        · rename_i hlate
          exact ⟨1, .of_late hprobe hleft hlate, rfl⟩
        · rename_i hearly
          obtain ⟨n, hawaits, hcalls⟩ := ih (w.afterProbe (s.probeCall name))
          simp only [Scene.afterProbe, List.length_append, List.length_singleton, Nat.add_assoc,
            Nat.add_comm 1] at hawaits
          refine ⟨n + 1, .later ⟨status, hprobe, hleft, hearly⟩ hawaits, hcalls.trans ?_⟩
          simp [Scene.afterProbe, List.replicate_succ]

theorem run_sweep? (s : Sweeper) (name : String) (kill : Except SystemError WaitStatus)
    (probes : Nat → Except SystemError WaitStatus) (clock : Nat → Instant) (fuel : Nat) :
    let r := (s.sweep? name fuel : StateM Scene _).run (.ofAnswers kill probes clock)
    ∃ n, s.Course name kill probes (waited clock) fuel r.1 n ∧
      r.2.calls = s.killCall name :: List.replicate n (s.probeCall name) := by
  cases kill with
  | error e => exact ⟨0, .notStarted rfl, rfl⟩
  | ok status =>
    -- The kill program is over, so all that is asked for from here on are probes.
    let w : Scene := { Scene.ofAnswers (.ok status) probes clock with calls := [s.killCall name] }
    change ∃ n, s.Course name _ probes _ fuel
        ((s.follow name (patternFor name) status fuel : StateM Scene _).run w).1 n ∧
      ((s.follow name (patternFor name) status fuel : StateM Scene _).run w).2.calls = _
    unfold follow
    split
    · rename_i hcode
      obtain ⟨n, hawaits, hcalls⟩ :=
        run_awaitExit s name (clock 0) fuel { w with looks := 1 }
      simp only [w, Scene.ofAnswers, List.length_singleton, Nat.add_comm 1] at hawaits
      exact ⟨n, .reached rfl hcode hawaits, hcalls⟩
    · rename_i hcode
      have hends : w.ends w.calls.length = probes 0 := rfl
      simp only [run_bind, run_anyLeft, hends]
      refine ⟨1, ?_⟩
      cases hprobe : probes 0 with
      | error e => exact ⟨.notProbed rfl hcode hprobe, rfl⟩
      | ok probe =>
        cases hleft : probe.isSuccess with
        | true =>
          simp only [hleft]
          exact ⟨.notSignalled rfl hcode hprobe hleft, rfl⟩
        | false =>
          simp only [hleft]
          exact ⟨.notFound rfl hcode hprobe hleft, rfl⟩
    · rename_i hzero hone
      exact ⟨0, .failed rfl hzero hone, rfl⟩

/-! ## Enough probes -/

section Limit

variable {clock : Nat → Instant} {probes : Nat → Except SystemError WaitStatus}

theorem nanos_add_le (h : Scene.PausesLast clock) (k : Nat) :
    (clock 0).nanos + k * probePause.nanos ≤ (clock (k + 1)).nanos := by
  induction k with
  | zero =>
    have hfirst : (clock 0).nanos ≤ (clock 1).nanos := h.first
    simpa using hfirst
  | succ k ih =>
    have hpause : (clock (k + 1)).nanos + probePause.nanos ≤ (clock (k + 1 + 1)).nanos :=
      h.pause k
    rw [Nat.succ_mul]
    omega

theorem not_goesOn_probeLimit (h : Scene.PausesLast clock) (s : Sweeper)
    (probes : Nat → Except SystemError WaitStatus) :
    ¬s.GoesOn probes (waited clock) (s.probeLimit - 1) := by
  rintro ⟨status, -, -, hearly⟩
  -- Before the last probe of the limit there are enough pauses to fill the settle time.
  apply hearly
  have hsum := nanos_add_le h (s.probeLimit - 1)
  have hfill : s.settleTimeout.nanos ≤ (s.probeLimit - 1) * probePause.nanos := by
    have hpause : probePause.micros = 50000 := rfl
    simp only [probeLimit, Duration.nanos, hpause]
    omega
  rw [waited, Instant.le_since_iff]
  omega

theorem Course.isSome (h : Scene.PausesLast clock) {kill : Except SystemError WaitStatus}
    {result : Option (Except SweepError Swept)} {n : Nat}
    (hcourse : s.Course name kill probes (waited clock) s.probeLimit result n) :
    ∃ v, result = some v := by
  cases hcourse with
  | reached hkill hcode hawaits =>
    cases hawaits with
    | decided => exact ⟨_, rfl⟩
    | undecided hall =>
      have hlast : s.probeLimit - 1 < s.probeLimit := Nat.sub_lt (Nat.succ_pos _) Nat.one_pos
      exact absurd (hall _ hlast) (not_goesOn_probeLimit h s probes)
  | _ => exact ⟨_, rfl⟩

end Limit

theorem run_sweep (s : Sweeper) (name : String) (w : Scene) :
    (s.sweep name : StateM Scene _).run w =
      (((s.sweep? name s.probeLimit : StateM Scene _).run w).1.getD
          (.error (.stillRunning name s.settleTimeout)),
        ((s.sweep? name s.probeLimit : StateM Scene _).run w).2) := by
  unfold sweep
  rw [run_bind]
  cases ((s.sweep? name s.probeLimit : StateM Scene _).run w).1 with
  | none => rfl
  | some result => rfl

theorem course_sweep {clock : Nat → Instant} (hclock : Scene.PausesLast clock) (s : Sweeper)
    (name : String) (kill : Except SystemError WaitStatus)
    (probes : Nat → Except SystemError WaitStatus) :
    let r := (s.sweep name : StateM Scene _).run (.ofAnswers kill probes clock)
    ∃ n, s.Course name kill probes (waited clock) s.probeLimit (some r.1) n ∧
      r.2.calls = s.killCall name :: List.replicate n (s.probeCall name) := by
  obtain ⟨n, hcourse, hcalls⟩ := run_sweep? s name kill probes clock s.probeLimit
  obtain ⟨v, hv⟩ := hcourse.isSome hclock
  rw [run_sweep, hv]
  rw [hv] at hcourse
  exact ⟨n, hcourse, hcalls⟩

/-- A sweep comes to what the answers to its calls decide, whatever bound on its probes it is
given, and its own bound is large enough wherever pauses take as long as they should. -/
theorem sweep_outcome (s : Sweeper) (name : String) (kill : Except SystemError WaitStatus)
    (probes : Nat → Except SystemError WaitStatus) (clock : Nat → Instant) :
    (∀ fuel, let r := (s.sweep? name fuel : StateM Scene _).run (.ofAnswers kill probes clock)
      ∃ probed, s.Outcome name kill probes (waited clock) fuel r.1 probed ∧
        r.2.calls = s.killCall name :: List.replicate probed (s.probeCall name)) ∧
    (Scene.PausesLast clock → ∃ v w,
      (s.sweep? name s.probeLimit : StateM Scene _).run (.ofAnswers kill probes clock) =
        (some v, w) ∧
      (s.sweep name : StateM Scene _).run (.ofAnswers kill probes clock) = (v, w)) := by
  refine ⟨?_, ?_⟩
  · intro fuel r
    obtain ⟨n, hcourse, hcalls⟩ := run_sweep? s name kill probes clock fuel
    exact ⟨n, hcourse.outcome, hcalls⟩
  · intro hclock
    obtain ⟨n, hcourse, -⟩ := run_sweep? s name kill probes clock s.probeLimit
    obtain ⟨v, hv⟩ := hcourse.isSome hclock
    refine ⟨v, _, Prod.ext hv rfl, ?_⟩
    rw [run_sweep, hv]
    rfl

theorem sweep_outcome_sample :
    let probes : Nat → Except SystemError WaitStatus := fun k => .ok (.exited k)
    let clock : Nat → Instant := fun k => ⟨50000000 * k⟩
    Scene.PausesLast clock ∧ ∃ w,
      (({} : Sweeper).sweep "emu" : StateM Scene _).run
        (.ofAnswers (.ok (.exited 0)) probes clock) = (.ok .terminated, w) ∧
      w.calls = [({} : Sweeper).killCall "emu", ({} : Sweeper).probeCall "emu",
        ({} : Sweeper).probeCall "emu"] := by
  intro probes clock
  have hclock : Scene.PausesLast clock := by
    refine ⟨by decide, ?_⟩
    intro k
    change 50000000 * (k + 1) + 50000000 ≤ 50000000 * (k + 2)
    omega
  obtain ⟨hall, hsweep⟩ := sweep_outcome {} "emu" (.ok (.exited 0)) probes clock
  obtain ⟨v, w, hlimit, hrun⟩ := hsweep hclock
  obtain ⟨probed, houtcome, hcalls⟩ := hall ({} : Sweeper).probeLimit
  have hfirst : ∀ j < 1, ({} : Sweeper).GoesOn probes (waited clock) j := by
    intro j hj
    obtain rfl : j = 0 := by omega
    exact ⟨.exited 0, rfl, by decide, by decide⟩
  have hsecond : ¬({} : Sweeper).GoesOn probes (waited clock) 1 := by
    rintro ⟨status, hstatus, hsuccess, -⟩
    obtain rfl : WaitStatus.exited 1 = status := Except.ok.inj hstatus
    exact absurd hsuccess (by decide)
  obtain ⟨rfl, hresult⟩ :=
    houtcome.decided (.exited 0) rfl (by decide) 1 (by decide) hfirst hsecond
  rw [hlimit] at hcalls hresult
  obtain rfl : v = .ok .terminated := Option.some.inj hresult
  exact ⟨hclock, w, hrun, hcalls⟩

end Sweeper

end RiscvBoot
