import RiscvBoot.Proofs.Host.History
import RiscvBoot.Proofs.Sweep.Outcome

/-!
# Every host is a scene

The programs of a host answer a sweeper one after the other, and its clock goes on by the pauses
between the probes alone. So a sweep on a host comes to what it comes to in the scene of these
answers, and its bound on the probes is always large enough.
-/

set_option autoImplicit false

namespace RiscvBoot

theorem Host.clock_start (h : Host) (i : Invocation) :
    ((Host.start i).run h).2.clock = h.clock := by
  cases hfind : h.find i with
  | error e => rw [Host.run_start_error hfind]
  | ok found => rw [Host.run_start_ok hfind]

theorem Scene.run_debug (w : Scene) (text : String) :
    (Log.debug text : StateM Scene Unit).run w = ((), w) := rfl

def Host.asked (h : Host) : List Invocation := h.attempts.map Attempt.invocation

theorem Host.Leads.asked_eq {h g : Host} {as : List Attempt} (hg : h.Leads as g) :
    g.asked = h.asked ++ as.map Attempt.invocation := by
  unfold Host.asked
  rw [hg.attempts, List.map_append]

/-- Work on a host and work in a scene come to the same, and ask for the same. -/
structure Alike {α : Type} (h : Host) (w : Scene) (x : HostM α) (y : StateM Scene α) : Prop where
  result : (x.run h).1 = (y.run w).1
  asked : ∃ new, (x.run h).2.asked = h.asked ++ new ∧ (y.run w).2.calls = w.calls ++ new

namespace Alike

variable {α β : Type} {h : Host} {w : Scene}

theorem pure (h : Host) (w : Scene) (a : α) : Alike h w (Pure.pure a) (Pure.pure a) :=
  ⟨rfl, [], (List.append_nil _).symm, (List.append_nil _).symm⟩

theorem bind {x : HostM α} {y : StateM Scene α} {f : α → HostM β} {g : α → StateM Scene β}
    (hfirst : Alike h w x y)
    (hrest : Alike (x.run h).2 (y.run w).2 (f (x.run h).1) (g (x.run h).1)) :
    Alike h w (x >>= f) (y >>= g) := by
  obtain ⟨new, hnew, hcalls⟩ := hfirst.asked
  obtain ⟨more, hmore, hcalls'⟩ := hrest.asked
  constructor
  · rw [run_bind, run_bind, ← hfirst.result]
    exact hrest.result
  · refine ⟨new ++ more, ?_, ?_⟩
    · rw [run_bind, hmore, hnew, List.append_assoc]
    · rw [run_bind, ← hfirst.result, hcalls', hcalls, List.append_assoc]

theorem runQuietly {program : String} {args : List String}
    (hends : w.ends w.calls.length = ((ProcessControl.runQuietly program args : HostM _).run h).1) :
    Alike h w (ProcessControl.runQuietly program args) (ProcessControl.runQuietly program args) :=
  ⟨hends.symm, _, (Host.leads_runQuietly h program args).asked_eq, rfl⟩

theorem now (hclock : w.clock w.looks = h.clock) :
    Alike h w ProcessControl.now ProcessControl.now :=
  ⟨hclock.symm, [], (List.append_nil _).symm, (List.append_nil _).symm⟩

theorem pause (h : Host) (w : Scene) (d : Duration) :
    Alike h w (ProcessControl.pause d) (ProcessControl.pause d) :=
  ⟨rfl, _, (Host.leads_pause h d).asked_eq, (List.append_nil _).symm⟩

theorem debug (h : Host) (w : Scene) (text : String) :
    Alike h w (Log.debug text) (Log.debug text) :=
  ⟨rfl, _, (Host.leads_log h _).asked_eq, (List.append_nil _).symm⟩

end Alike

namespace Sweeper

/-! ## The wait -/

variable (s : Sweeper) (name : String)

def probe : HostM (Except SystemError WaitStatus) :=
  ProcessControl.runQuietly s.prober ["-f", patternFor name]

/-- The host on which the probe after this one is made. -/
def afterPause (h : Host) : Host :=
  ((ProcessControl.pause probePause : HostM Unit).run ((s.probe name).run h).2).2

/-- The answers of the probes that are made from here on. -/
def answers : Host → Nat → Except SystemError WaitStatus
  | h, 0 => ((s.probe name).run h).1
  | h, k + 1 => answers (s.afterPause name h) k

theorem clock_probe (h : Host) : ((s.probe name).run h).2.clock = h.clock := by
  unfold probe
  rw [Host.run_runQuietly]
  exact Host.clock_start h _

theorem nanos_clock_afterPause (h : Host) :
    (s.afterPause name h).clock.nanos = h.clock.nanos + probePause.nanos := by
  change (((s.probe name).run h).2.clock + probePause).nanos = _
  rw [clock_probe]
  rfl

/-- The scene answers as the host does from here on, and its clock shows the same. -/
structure Follows (h : Host) (w : Scene) : Prop where
  ends : ∀ k, w.ends (w.calls.length + k) = s.answers name h k
  clock : ∀ k, w.clock (w.looks + k) = ⟨h.clock.nanos + k * probePause.nanos⟩

variable {s name} {h : Host} {w : Scene}

theorem alike_anyLeft (hends : w.ends w.calls.length = s.answers name h 0) :
    Alike h w (s.anyLeft (patternFor name)) (s.anyLeft (patternFor name)) := by
  unfold anyLeft
  refine .bind (.runQuietly hends) ?_
  cases ((ProcessControl.runQuietly s.prober ["-f", patternFor name] : HostM _).run h).1 with
  | error e => exact .pure _ _ _
  | ok status => exact .pure _ _ _

theorem run_anyLeft_onHost :
    (s.anyLeft (patternFor name) : HostM _).run h =
      (match s.answers name h 0 with
        | .error e => .error (.spawn s.prober e)
        | .ok status => .ok status.isSuccess,
      ((s.probe name).run h).2) := by
  unfold anyLeft answers probe
  rw [run_bind]
  cases ((ProcessControl.runQuietly s.prober ["-f", patternFor name] : HostM _).run h).1 with
  | error e => rfl
  | ok status => rfl

theorem Follows.later (hw : s.Follows name h w) :
    s.Follows name (s.afterPause name h) (w.afterProbe (s.probeCall name)) := by
  constructor
  · intro k
    have hk : _ = s.answers name (s.afterPause name h) k := hw.ends (k + 1)
    simpa [Scene.afterProbe, Nat.add_assoc, Nat.add_comm 1] using hk
  · intro k
    have hk := hw.clock (k + 1)
    rw [nanos_clock_afterPause]
    simp only [Scene.afterProbe, Nat.add_assoc, Nat.add_comm 1]
    rw [hk, Nat.succ_mul, Nat.add_comm (k * _)]

theorem alike_awaitExit (start : Instant) (fuel : Nat) (hw : s.Follows name h w) :
    Alike h w (s.awaitExit name (patternFor name) start fuel)
      (s.awaitExit name (patternFor name) start fuel) := by
  -- By induction on the probes that are left, with a scene that keeps following the host.
  induction fuel generalizing h w with
  | zero => exact .pure h w none
  | succ fuel ih =>
    unfold awaitExit
    refine .bind (alike_anyLeft (hw.ends 0)) ?_
    rw [run_anyLeft_onHost, run_anyLeft]
    cases s.answers name h 0 with
    | error e => exact .pure _ _ _
    | ok status =>
      dsimp only
      cases status.isSuccess with
      | false => exact .pure _ _ _
      | true =>
        refine .bind (.now ?_) ?_
        · rw [clock_probe]
          simpa using hw.clock 0
        · split
          · exact .pure _ _ _
          · exact .bind (.pause _ _ _) (ih hw.later)

theorem alike_follow (status : WaitStatus) (fuel : Nat)
    (hstart : w.clock w.looks = h.clock)
    (hw : s.Follows name h { w with looks := w.looks + 1 }) :
    Alike h w (s.follow name (patternFor name) status fuel)
      (s.follow name (patternFor name) status fuel) := by
  unfold follow
  split
  · exact .bind (.now hstart) (alike_awaitExit _ fuel hw)
  · refine .bind (alike_anyLeft (hw.ends 0)) ?_
    match ((s.anyLeft (patternFor name) : HostM _).run h).1 with
    | .error e => exact .pure _ _ _
    | .ok true => exact .pure _ _ _
    | .ok false => exact .pure _ _ _
  · exact .pure _ _ _

/-! ## The sweep -/

variable (s name h)

def killed : Except SystemError WaitStatus × Host :=
  (ProcessControl.runQuietly s.killer ["-f", patternFor name] : HostM _).run
    (h.log ⟨.debug, .boot, s!"{s.killer} -f '{patternFor name}'"⟩)

theorem clock_killed : (s.killed name h).2.clock = h.clock := by
  unfold killed
  rw [Host.run_runQuietly]
  exact Host.clock_start _ _

/-- The answers of a host to the calls of a sweep. -/
def sceneOf : Scene :=
  .ofAnswers (s.killed name h).1 (s.answers name (s.killed name h).2) fun k =>
    ⟨h.clock.nanos + (k - 1) * probePause.nanos⟩

theorem pausesLast_sceneOf : Scene.PausesLast (s.sceneOf name h).clock := by
  constructor
  · exact Nat.le_refl _
  · intro k
    change h.clock.nanos + (k + 1 - 1) * probePause.nanos + probePause.nanos ≤
      h.clock.nanos + (k + 2 - 1) * probePause.nanos
    rw [Nat.add_sub_cancel, Nat.add_assoc, ← Nat.succ_mul]
    exact Nat.le_refl _

theorem waited_sceneOf : waited (s.sceneOf name h).clock = fun k => ⟨k * probePause.micros⟩ := by
  funext k
  have hsince : h.clock.nanos + k * probePause.nanos - h.clock.nanos =
      1000 * (k * probePause.micros) := by
    rw [Nat.add_sub_cancel_left, Duration.nanos, Nat.mul_left_comm]
  simp [waited, sceneOf, Scene.ofAnswers, Instant.since, hsince]

theorem alike_sweep? (fuel : Nat) :
    Alike h (s.sceneOf name h) (s.sweep? name fuel) (s.sweep? name fuel) := by
  unfold sweep?
  refine .bind (.debug _ _ _) (.bind (.runQuietly rfl) ?_)
  have hkilled : (ProcessControl.runQuietly s.killer ["-f", patternFor name] : HostM _).run
      ((Log.debug s!"{s.killer} -f '{patternFor name}'" : HostM Unit).run h).2 = s.killed name h :=
    rfl
  rw [hkilled]
  cases (s.killed name h).1 with
  | error e => exact .pure _ _ _
  | ok status =>
    refine alike_follow status fuel ?_ ⟨?_, ?_⟩
    · rw [clock_killed]
      simp [sceneOf, Scene.ofAnswers, Scene.run_debug, Scene.run_runQuietly]
    · intro k
      simp [sceneOf, Scene.ofAnswers, Scene.run_debug, Scene.run_runQuietly, Nat.add_comm 1]
    · intro k
      rw [clock_killed]
      simp [sceneOf, Scene.ofAnswers, Scene.run_debug, Scene.run_runQuietly, Nat.add_comm 1]

theorem alike_sweep : Alike h (s.sceneOf name h) (s.sweep name) (s.sweep name) := by
  refine .bind (s.alike_sweep? name h s.probeLimit) ?_
  cases ((s.sweep? name s.probeLimit : HostM _).run h).1 with
  | none => exact .pure _ _ _
  | some result => exact .pure _ _ _

/-- On a host a sweep always comes to what its programs answer, and a wait takes as many pauses as
there are probes before its last one. -/
theorem outcome_onHost :
    let r := (s.sweep name : HostM _).run h
    ∃ probed, s.Outcome name (s.killed name h).1 (s.answers name (s.killed name h).2)
        (fun k => ⟨k * probePause.micros⟩) s.probeLimit (some r.1) probed ∧
      r.2.asked = h.asked ++ s.killCall name :: List.replicate probed (s.probeCall name) := by
  intro r
  obtain ⟨n, hcourse, hcalls⟩ := course_sweep (s.pausesLast_sceneOf name h) s name
    (s.killed name h).1 (s.answers name (s.killed name h).2)
  obtain ⟨hresult, new, hasked, hnew⟩ := s.alike_sweep name h
  rw [waited_sceneOf] at hcourse
  refine ⟨n, ?_, ?_⟩
  · have hr : r.1 = _ := hresult
    rw [hr]
    exact hcourse.outcome
  · have hr : r.2.asked = h.asked ++ new := hasked
    rw [hr, ← hcalls]
    exact congrArg _ hnew.symm

end Sweeper

end RiscvBoot
