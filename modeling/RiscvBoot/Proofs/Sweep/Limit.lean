import RiscvBoot.Project.Settings
import RiscvBoot.Proofs.Duration.Words
import RiscvBoot.Proofs.Sweep.OnHost

/-!
# How many probes a sweep makes

A wait does not count its probes. It ends because time passes: every pause takes a part of the
settle time, so what is left of it goes down from probe to probe, whatever the probes answer
(`Sweeper.run_awaitExit_of_left`). `TimePasses` says what the surroundings have to do for it. Main
statement: after a request there are at most as many probes as pauses fit into the settle time,
rounded up, and one more, and nothing overflows on the way (`Sweeper.follow_ends`).
-/

set_option autoImplicit false

namespace RiscvBoot

open Duration (Words)

/-- Surroundings in which time passes. The clock never runs backwards, and a pause between two
probes takes at least as long as it should; `runs` counts the programs that were run. -/
structure TimePasses {σ : Type} [ProcessControl (StateM σ)] (clock : σ → Instant)
    (runs : σ → Nat) : Prop where
  run : ∀ w program args,
    let r := (ProcessControl.runQuietly program args : StateM σ _).run w
    clock w ≤ clock r.2 ∧ runs r.2 = runs w + 1
  look : ∀ w,
    let r := (ProcessControl.now : StateM σ _).run w
    clock w ≤ r.1 ∧ r.1 ≤ clock r.2 ∧ runs r.2 = runs w
  pause : ∀ w,
    let r := (ProcessControl.pause Sweeper.probePause : StateM σ Unit).run w
    clock w + Sweeper.probePause ≤ clock r.2 ∧ runs r.2 = runs w

namespace Sweeper

section Wait

variable {σ : Type} [ProcessControl (StateM σ)] {clock : σ → Instant} {runs : σ → Nat}
  (s : Sweeper) (name pattern : String) (start : Instant)

theorem passes_anyLeft (htime : TimePasses clock runs) (w : σ) :
    let r := (s.anyLeft pattern : StateM σ _).run w
    clock w ≤ clock r.2 ∧ runs r.2 = runs w + 1 := by
  have hrun := htime.run w s.prober ["-f", pattern]
  unfold anyLeft
  rw [run_bind]
  cases ((ProcessControl.runQuietly s.prober ["-f", pattern] : StateM σ _).run w).1 with
  | error e => exact hrun
  | ok status => exact hrun

/-- The clock is looked at after all that has happened, so if it is still early, it was early
before. -/
theorem passes_look (htime : TimePasses clock runs) (w : σ) :
    let r := (ProcessControl.now : StateM σ _).run w
    clock w ≤ clock r.2 ∧ runs r.2 = runs w ∧
      (¬s.settleTimeout ≤ r.1.since start →
        (clock w).nanos < start.nanos + s.settleTimeout.nanos) := by
  obtain ⟨hbefore, hafter, hruns⟩ := htime.look w
  refine ⟨Nat.le_trans hbefore hafter, hruns, ?_⟩
  intro hearly
  rw [Instant.le_since_iff] at hearly
  change (clock w).nanos ≤ _ at hbefore
  omega

/-- A round of a wait is one probe. It is the last one, or it was early enough for a pause, and the
wait goes on from a later time. -/
inductive Round (clock : σ → Instant) (runs : σ → Nat) (w : σ) : Prop where
  | last (result : Except SweepError Swept) (after : σ) (hruns : runs after = runs w + 1)
      (hwait : ∀ fuel, (s.awaitExit name pattern start (fuel + 1) : StateM σ _).run w =
        (some result, after))
  | more (next : σ) (hruns : runs next = runs w + 1)
      (hearly : (clock w).nanos < start.nanos + s.settleTimeout.nanos)
      (hclock : clock w + probePause ≤ clock next)
      (hwait : ∀ fuel, (s.awaitExit name pattern start (fuel + 1) : StateM σ _).run w =
        (s.awaitExit name pattern start fuel : StateM σ _).run next)

theorem round (htime : TimePasses clock runs) (w : σ) :
    s.Round name pattern start clock runs w := by
  let probed := ((s.anyLeft pattern : StateM σ _).run w).2
  let looked := ((ProcessControl.now : StateM σ _).run probed).2
  let waited := ((ProcessControl.now : StateM σ _).run probed).1.since start
  obtain ⟨hprobe, hruns⟩ : clock w ≤ clock probed ∧ runs probed = runs w + 1 :=
    s.passes_anyLeft pattern htime w
  match hanswer : ((s.anyLeft pattern : StateM σ _).run w).1 with
  | .error e =>
    refine .last (.error e) probed hruns ?_
    intro fuel
    rw [awaitExit, run_bind, hanswer]
    rfl
  | .ok false =>
    refine .last (.ok .terminated) probed hruns ?_
    intro fuel
    rw [awaitExit, run_bind, hanswer]
    rfl
  | .ok true =>
    obtain ⟨hlook, hlooked, hearly⟩ : clock probed ≤ clock looked ∧ runs looked = runs probed ∧ _ :=
      s.passes_look start htime probed
    by_cases hlate : s.settleTimeout ≤ waited
    · refine .last (.error (.stillRunning name waited)) looked (hlooked.trans hruns) ?_
      intro fuel
      rw [awaitExit, run_bind, hanswer]
      dsimp only
      rw [run_bind, if_pos hlate]
      rfl
    · obtain ⟨hpause, hpaused⟩ := htime.pause looked
      have hclock : clock w + probePause ≤ clock looked + probePause :=
        Nat.add_le_add_right (Nat.le_trans hprobe hlook) _
      refine .more _ (hpaused.trans (hlooked.trans hruns))
        (Nat.lt_of_le_of_lt hprobe (hearly hlate)) (Nat.le_trans hclock hpause) ?_
      intro fuel
      rw [awaitExit, run_bind, hanswer]
      dsimp only
      rw [run_bind, if_neg hlate]
      rfl

/-- A wait that has time left for so many pauses makes at most one probe more. -/
theorem run_awaitExit_of_left (htime : TimePasses clock runs) (left : Nat) (w : σ)
    (hleft : start.nanos + s.settleTimeout.nanos ≤
      (clock w).nanos + left * probePause.nanos) :
    ∃ result after, runs after ≤ runs w + (left + 1) ∧ ∀ fuel, left + 1 ≤ fuel →
      (s.awaitExit name pattern start fuel : StateM σ _).run w = (some result, after) := by
  -- By induction on the pauses that are left: a round that is not the last one takes one of them.
  induction left using Nat.strongRecOn generalizing w with
  | ind left ih =>
    cases s.round name pattern start htime w with
    | last result after hruns hwait =>
      refine ⟨result, after, by omega, ?_⟩
      intro fuel hfuel
      obtain ⟨fuel, rfl⟩ := Nat.exists_eq_add_of_le' (Nat.le_trans (Nat.le_add_left 1 left) hfuel)
      exact hwait fuel
    | more next hruns hearly hclock hwait =>
      have hne : left ≠ 0 := by
        rintro rfl
        omega
      obtain ⟨rest, rfl⟩ := Nat.exists_eq_succ_of_ne_zero hne
      rw [Nat.succ_mul] at hleft
      change (clock w).nanos + probePause.nanos ≤ (clock next).nanos at hclock
      obtain ⟨result, after, hafter, hrest⟩ := ih rest (Nat.lt_succ_self rest) next (by omega)
      refine ⟨result, after, by omega, ?_⟩
      intro fuel hfuel
      obtain ⟨fuel, rfl⟩ := Nat.exists_eq_add_of_le' hfuel
      rw [← Nat.add_assoc, hwait]
      exact hrest _ (by omega)

theorem run_follow_of_fits (htime : TimePasses clock runs) (status : WaitStatus) (pauses : Nat)
    (hfits : s.settleTimeout.nanos ≤ pauses * probePause.nanos) (w : σ) :
    ∃ result after, runs after ≤ runs w + (pauses + 1) ∧ ∀ fuel, pauses + 1 ≤ fuel →
      (s.follow name pattern status fuel : StateM σ _).run w = (some result, after) := by
  unfold follow
  split
  · obtain ⟨-, hafter, hruns⟩ := htime.look w
    obtain ⟨result, after, hlast, hwait⟩ :=
      s.run_awaitExit_of_left name pattern ((ProcessControl.now : StateM σ _).run w).1 htime pauses
        ((ProcessControl.now : StateM σ _).run w).2 (Nat.add_le_add hafter hfits)
    exact ⟨result, after, hruns ▸ hlast, hwait⟩
  · obtain ⟨-, hruns⟩ := s.passes_anyLeft pattern htime w
    simp only [run_bind]
    match ((s.anyLeft pattern : StateM σ _).run w).1 with
    | .error e => exact ⟨_, _, by omega, fun _ _ => rfl⟩
    | .ok true => exact ⟨_, _, by omega, fun _ _ => rfl⟩
    | .ok false => exact ⟨_, _, by omega, fun _ _ => rfl⟩
  · exact ⟨_, w, by omega, fun _ _ => rfl⟩

end Wait

end Sweeper

/-! ## Surroundings in which time passes -/

theorem Host.timePasses :
    TimePasses Host.clock fun h => h.asked.length := by
  constructor
  · intro h program args
    constructor
    · rw [run_runQuietly]
      exact Nat.le_of_eq (congrArg Instant.nanos (clock_start h { program, args }).symm)
    · rw [(leads_runQuietly h program args).asked_eq]
      simp
  · intro h
    exact ⟨Nat.le_refl _, Nat.le_refl _, rfl⟩
  · intro h
    refine ⟨Nat.le_refl _, ?_⟩
    rw [(leads_pause h Sweeper.probePause).asked_eq]
    simp

/-- Surroundings in which it is given how the programs end, one after the other, and how many
nanoseconds they take. A pause takes exactly as long as it should. -/
structure Timeline where
  ends : Nat → Except SystemError WaitStatus
  takes : Nat → Nat
  clock : Instant := ⟨0⟩
  runs : Nat := 0

namespace Timeline

instance : ProcessControl (StateM Timeline) where
  runQuietly _ _ := modifyGet fun w =>
    (w.ends w.runs, { w with clock := ⟨w.clock.nanos + w.takes w.runs⟩, runs := w.runs + 1 })
  now := modifyGet fun w => (w.clock, w)
  pause d := modify fun w => { w with clock := w.clock + d }

theorem timePasses : TimePasses Timeline.clock Timeline.runs := by
  constructor
  · intro w program args
    exact ⟨Nat.le_add_right _ _, rfl⟩
  · intro w
    exact ⟨Nat.le_refl _, Nat.le_refl _, rfl⟩
  · intro w
    exact ⟨Nat.le_refl _, rfl⟩

/-- Every probe finds something, at once and for ever. -/
def lasting (clock : Instant) (runs : Nat) : Timeline :=
  ⟨fun _ => .ok .success, fun _ => 0, clock, runs⟩

end Timeline

namespace Sweeper

variable (s : Sweeper) (name pattern : String)

theorem run_anyLeft_lasting (clock : Instant) (runs : Nat) :
    (s.anyLeft pattern : StateM Timeline _).run (.lasting clock runs) =
      (.ok true, .lasting clock (runs + 1)) := rfl

theorem run_now_lasting (clock : Instant) (runs : Nat) :
    (ProcessControl.now : StateM Timeline _).run (.lasting clock runs) =
      (clock, .lasting clock runs) := rfl

theorem run_pause_lasting (clock : Instant) (runs : Nat) (d : Duration) :
    (ProcessControl.pause d : StateM Timeline Unit).run (.lasting clock runs) =
      ((), .lasting (clock + d) runs) := rfl

/-- If only the last of so many pauses uses up the settle time, all of them are made. -/
theorem runs_awaitExit_lasting (pauses runs : Nat) (clock : Instant)
    (hlate : s.settleTimeout.nanos ≤ clock.nanos + pauses * probePause.nanos)
    (hearly : clock.nanos + pauses * probePause.nanos <
      s.settleTimeout.nanos + probePause.nanos) :
    ((s.awaitExit name pattern ⟨0⟩ (pauses + 1) : StateM Timeline _).run
      (.lasting clock runs)).2.runs = runs + (pauses + 1) := by
  induction pauses generalizing clock runs with
  | zero =>
    have hstop : s.settleTimeout ≤ clock.since ⟨0⟩ := by
      rw [Instant.le_since_iff]
      simpa using hlate
    rw [awaitExit, run_bind, run_anyLeft_lasting]
    dsimp only
    rw [run_bind, run_now_lasting, if_pos hstop]
    rfl
  | succ pauses ih =>
    rw [Nat.succ_mul] at hlate hearly
    have hgo : ¬s.settleTimeout ≤ clock.since ⟨0⟩ := by
      rw [Instant.le_since_iff]
      dsimp only
      omega
    have hpause : (clock + probePause).nanos = clock.nanos + probePause.nanos := rfl
    rw [awaitExit, run_bind, run_anyLeft_lasting]
    dsimp only
    rw [run_bind, run_now_lasting, if_neg hgo, run_bind, run_pause_lasting,
      ih (runs + 1) (clock + probePause) (by omega) (by omega)]
    omega

theorem runs_follow_lasting (pauses : Nat)
    (hlate : s.settleTimeout.nanos ≤ pauses * probePause.nanos)
    (hearly : pauses * probePause.nanos < s.settleTimeout.nanos + probePause.nanos) :
    ((s.follow name pattern .success (pauses + 1) : StateM Timeline _).run
      (.lasting ⟨0⟩ 0)).2.runs = pauses + 1 := by
  have hwait := s.runs_awaitExit_lasting name pattern pauses 0 ⟨0⟩ (by simpa using hlate)
    (by simpa using hearly)
  rw [Nat.zero_add] at hwait
  exact hwait

end Sweeper

/-! ## The settle time of a manifest -/

namespace Manifest

/-- How long emulators get to end, in machine words. -/
def settleWords (m : Manifest) : Words :=
  (m.sweeper.settleTimeoutMs.map Words.ofMillis).getD (.ofSeconds 2)

theorem nanos_settleTimeout (m : Manifest) :
    m.settleTimeout.nanos = 1000000 * (m.sweeper.settleTimeoutMs.getD 2000).toNat := by
  unfold settleTimeout
  cases m.sweeper.settleTimeoutMs with
  | none => rfl
  | some ms => exact (Nat.mul_assoc 1000 1000 ms.toNat).symm

theorem nanoseconds_settleWords (m : Manifest) :
    m.settleWords.nanoseconds = 1000000 * (m.sweeper.settleTimeoutMs.getD 2000).toNat := by
  unfold settleWords
  cases m.sweeper.settleTimeoutMs with
  | none => rfl
  | some ms => exact Words.nanoseconds_ofMillis ms

end Manifest

namespace Sweeper

/-- Whatever a kill program has ended with, and whatever the probes answer, there are at most as
many probes after it as pauses fit into the settle time, rounded up, and one more. So many are made
if something is left for ever, and a sweep allows itself so many. Nothing overflows when the settle
time is put into machine words and compared with the time between two readings of the clock: the
words decide as the wait does. -/
theorem follow_ends (killer prober : String) (m : Manifest) (name pattern : String)
    (status : WaitStatus) {σ : Type} [ProcessControl (StateM σ)] {clock : σ → Instant}
    {runs : σ → Nat} (htime : TimePasses clock runs) (w : σ) :
    let s : Sweeper := ⟨killer, prober, m.settleTimeout⟩
    let millis := (m.sweeper.settleTimeoutMs.getD 2000).toNat
    let limit := (millis + 49) / 50 + 1
    (∃ result after, runs after ≤ runs w + limit ∧ ∀ fuel, limit ≤ fuel →
      (s.follow name pattern status fuel : StateM σ _).run w = (some result, after)) ∧
    ((s.follow name pattern .success limit : StateM Timeline _).run
      (.lasting ⟨0⟩ 0)).2.runs = limit ∧
    s.probeLimit = limit ∧
    m.settleWords.nanoseconds = 1000000 * millis ∧
    ∀ start now : Words, m.settleWords ≤ now.since start ↔
      s.settleTimeout ≤ now.instant.since start.instant := by
  intro s millis limit
  have hsettle : s.settleTimeout.nanos = 1000000 * millis := m.nanos_settleTimeout
  have hpause : probePause.nanos = 50000000 := rfl
  have hlate : s.settleTimeout.nanos ≤ (millis + 49) / 50 * probePause.nanos := by
    rw [hpause]
    omega
  have hearly : (millis + 49) / 50 * probePause.nanos <
      s.settleTimeout.nanos + probePause.nanos := by
    rw [hpause]
    omega
  refine ⟨s.run_follow_of_fits name pattern htime status _ hlate w,
    s.runs_follow_lasting name pattern _ hlate hearly, ?_, m.nanoseconds_settleWords, ?_⟩
  · have hmicros : probePause.micros = 50000 := rfl
    unfold probeLimit
    unfold Duration.nanos at hsettle
    rw [hmicros]
    omega
  · intro start now
    exact Words.le_since_iff (m.nanoseconds_settleWords.trans hsettle.symm) now start

theorem follow_ends_sample :
    let slow : Timeline := { ends := fun _ => .ok .success, takes := fun _ => 7000000 }
    let m : Manifest := { sweeper := { settleTimeoutMs := some 120 } }
    let s : Sweeper := { settleTimeout := m.settleTimeout }
    TimePasses Timeline.clock Timeline.runs ∧ ∃ after, after.runs ≤ 4 ∧
      (s.follow "emu" "^emu" .success 4 : StateM Timeline _).run slow =
        (some (.error (.stillRunning "emu" (.ofMillis 121))), after) := by
  intro slow m s
  obtain ⟨⟨result, after, hruns, hwait⟩, -⟩ :=
    follow_ends "pkill" "pgrep" m "emu" "^emu" .success Timeline.timePasses slow
  have hlimit : ((m.sweeper.settleTimeoutMs.getD 2000).toNat + 49) / 50 + 1 = 4 := by decide
  rw [hlimit] at hruns hwait
  have hrun : (s.follow "emu" "^emu" .success 4 : StateM Timeline _).run slow =
      (some result, after) := hwait 4 (Nat.le_refl 4)
  have hresult : ((s.follow "emu" "^emu" .success 4 : StateM Timeline _).run slow).1 =
      some (.error (.stillRunning "emu" (.ofMillis 121))) := by
    subst s m slow
    rfl
  rw [hrun] at hresult
  obtain rfl := Option.some.inj hresult
  exact ⟨Timeline.timePasses, after, hruns, hrun⟩

end Sweeper

end RiscvBoot
