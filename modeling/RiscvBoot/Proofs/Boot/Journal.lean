import RiscvBoot.Boot.Rehearsal
import RiscvBoot.Proofs.Boot.Course

/-!
# The journal of a rehearsal

`r.Leads xs r'` says that `r` becomes `r'` while exactly the steps in `xs` are called, and that each
call has taken one answer from the script of its own step. One operation leads somewhere by one
block of calls (`leads_perform`), and so a list of operations leads somewhere by its blocks, one
after the other (`journal_of_operations`).
-/

set_option autoImplicit false

namespace RiscvBoot

/-- What is reported of a first step that did not stop the run. -/
def SweepStatus.ofResult : Except SweepError Swept → SweepStatus
  | .ok .terminated => .terminated
  | .ok .notFound => .notFound
  | .error e => .ignored e.message

theorem SweepPolicy.verdict_cases (policy : SweepPolicy) (swept : Except SweepError Swept) :
    (policy.verdict swept = .ok (.ofResult swept) ∧
      ((∃ outcome, swept = .ok outcome) ∨ policy = .keepGoing)) ∨
    ∃ e, swept = .error e ∧ policy = .abort ∧ policy.verdict swept = .error (.sweep e) := by
  match swept, policy with
  | .ok .terminated, _ => exact .inl ⟨rfl, .inl ⟨_, rfl⟩⟩
  | .ok .notFound, _ => exact .inl ⟨rfl, .inl ⟨_, rfl⟩⟩
  | .error e, .keepGoing => exact .inl ⟨rfl, .inr rfl⟩
  | .error e, .abort => exact .inr ⟨e, rfl, rfl, rfl⟩

/-! ## Scripts -/

/-- A script has given these answers, one for each call, and this is left of it. A script that is
used up gives the usual answer. -/
structure Supplies {α : Type} (script : List α) (usual : α) (taken left : List α) : Prop where
  left_eq : left = script.drop taken.length
  taken_eq : ∀ k < taken.length, taken[k]? = some (script.getD k usual)

namespace Supplies

variable {α : Type} {script middle left taken more : List α} {usual : α}

theorem refl (script : List α) (usual : α) : Supplies script usual [] script := by
  refine ⟨rfl, ?_⟩
  intro k hk
  simp at hk

theorem head (script : List α) (usual : α) :
    Supplies script usual [script.headD usual] script.tail := by
  refine ⟨List.drop_one.symm, ?_⟩
  intro k hk
  obtain rfl : k = 0 := by simpa using hk
  cases script with
  | nil => rfl
  | cons a script => rfl

theorem trans (hfirst : Supplies script usual taken middle)
    (hrest : Supplies middle usual more left) : Supplies script usual (taken ++ more) left := by
  refine ⟨?_, ?_⟩
  · rw [hrest.left_eq, hfirst.left_eq, List.drop_drop, List.length_append]
  · intro k hk
    rw [List.length_append] at hk
    by_cases hlt : k < taken.length
    · rw [List.getElem?_append_left hlt]
      exact hfirst.taken_eq k hlt
    · have hle : taken.length ≤ k := by omega
      rw [List.getElem?_append_right hle, hrest.taken_eq _ (by omega), hfirst.left_eq]
      simp only [List.getD_eq_getElem?_getD, List.getElem?_drop]
      rw [Nat.add_sub_cancel' hle]

end Supplies

namespace Rehearsal

/-! ## Calls -/

/-- A call of a step, and the answer to it. -/
inductive Exchange where
  | sweep (name : String) (answer : Except SweepError Swept)
  | build (buildTarget : String) (answer : Except BootError Unit)
  | launch (command : EmulatorCommand) (answer : Except BootError GuestExit)

namespace Exchange

def entry : Exchange → Entry
  | .sweep name _ => .sweep name
  | .build buildTarget _ => .build buildTarget
  | .launch command _ => .launch command

def swept? : Exchange → Option (Except SweepError Swept)
  | .sweep _ answer => some answer
  | _ => none

def built? : Exchange → Option (Except BootError Unit)
  | .build _ answer => some answer
  | _ => none

def launched? : Exchange → Option (Except BootError GuestExit)
  | .launch _ answer => some answer
  | _ => none

end Exchange

/-- One rehearsal becomes the other while these calls are made. -/
structure Leads (r : Rehearsal) (xs : List Exchange) (r' : Rehearsal) : Prop where
  journal : r'.journal = r.journal ++ xs.map Exchange.entry
  sweeps : Supplies r.sweeps (.ok .notFound) (xs.filterMap Exchange.swept?) r'.sweeps
  builds : Supplies r.builds (.ok ()) (xs.filterMap Exchange.built?) r'.builds
  launches : Supplies r.launches (.ok ⟨some 0⟩) (xs.filterMap Exchange.launched?) r'.launches

namespace Leads

variable {r r' r'' : Rehearsal} {xs ys : List Exchange}

theorem refl (r : Rehearsal) : r.Leads [] r :=
  ⟨(List.append_nil _).symm, .refl _ _, .refl _ _, .refl _ _⟩

theorem trans (h : r.Leads xs r') (h' : r'.Leads ys r'') : r.Leads (xs ++ ys) r'' := by
  refine ⟨?_, ?_, ?_, ?_⟩
  · rw [h'.journal, h.journal, List.map_append, List.append_assoc]
  · rw [List.filterMap_append]
    exact h.sweeps.trans h'.sweeps
  · rw [List.filterMap_append]
    exact h.builds.trans h'.builds
  · rw [List.filterMap_append]
    exact h.launches.trans h'.launches

theorem aside (h : r.Leads xs r') (policy : SweepPolicy) (records : List Log.Record) :
    r.Leads xs { r' with policy, records } :=
  ⟨h.journal, h.sweeps, h.builds, h.launches⟩

end Leads

def log (r : Rehearsal) (record : Log.Record) : Rehearsal :=
  { r with records := r.records ++ [record] }

theorem Leads.log {r r' : Rehearsal} {xs : List Exchange} (h : r.Leads xs r')
    (record : Log.Record) : r.Leads xs (r'.log record) :=
  h.aside r'.policy (r'.records ++ [record])

variable {α β : Type}

theorem run_info (r : Rehearsal) (text : String) :
    (Log.info text : StateM Rehearsal Unit).run r = ((), r.log ⟨.info, .boot, text⟩) := rfl

theorem leads_sweep (r : Rehearsal) (name : String) :
    let s := (steps.sweep name).run r
    r.Leads [.sweep name s.1] s.2 ∧ s.2.policy = r.policy :=
  ⟨⟨rfl, .head _ _, .refl _ _, .refl _ _⟩, rfl⟩

theorem leads_build (r : Rehearsal) (buildTarget : String) :
    let s := (steps.build buildTarget).run r
    r.Leads [.build buildTarget s.1] s.2 ∧ s.2.policy = r.policy :=
  ⟨⟨rfl, .refl _ _, .head _ _, .refl _ _⟩, rfl⟩

theorem leads_launch (r : Rehearsal) (command : EmulatorCommand) :
    let s := (steps.launch command).run r
    r.Leads [.launch command s.1] s.2 ∧ s.2.policy = r.policy :=
  ⟨⟨rfl, .refl _ _, .refl _ _, .head _ _⟩, rfl⟩

/-! ## Runs -/

theorem leads_sweepUnder (r : Rehearsal) (name : String) (policy : SweepPolicy) :
    let s := (sweepUnder steps.sweep name policy).run r
    ∃ swept, r.Leads [.sweep name swept] s.2 ∧ s.2.policy = r.policy ∧
      s.1 = policy.verdict swept := by
  have hbegin := (Leads.refl r).log ⟨.info, .boot, s!"stopping stale {name} instances"⟩
  have hpolicy : (r.log ⟨.info, .boot, s!"stopping stale {name} instances"⟩).policy = r.policy :=
    rfl
  unfold sweepUnder
  simp only [run_bind, run_info]
  generalize r.log _ = k at *
  obtain ⟨hcall, hkept⟩ := leads_sweep k name
  rw [hpolicy] at hkept
  have hleads := hbegin.trans hcall
  generalize (steps.sweep name).run k = called at *
  obtain ⟨swept, r'⟩ := called
  refine ⟨swept, ?_⟩
  match swept, policy with
  | .ok .terminated, _ => exact ⟨hleads.log _, hkept, rfl⟩
  | .ok .notFound, _ => exact ⟨hleads, hkept, rfl⟩
  | .error e, .keepGoing => exact ⟨hleads.log _, hkept, rfl⟩
  | .error e, .abort => exact ⟨hleads, hkept, rfl⟩

theorem leads_sweepAnyway (r : Rehearsal) (target : Target) :
    let s := (sweepAnyway steps.sweep target).run r
    ∃ swept, r.Leads [.sweep target.emulator swept] s.2 ∧ s.2.policy = r.policy ∧
      s.1 = .ofResult swept := by
  obtain ⟨swept, hleads, hkept, hverdict⟩ := leads_sweepUnder r target.emulator .keepGoing
  have hpasses : SweepPolicy.keepGoing.verdict swept = .ok (.ofResult swept) := by
    rcases SweepPolicy.keepGoing.verdict_cases swept with ⟨hok, -⟩ | ⟨e, -, hpolicy, -⟩
    · exact hok
    · cases hpolicy
  refine ⟨swept, ?_⟩
  unfold sweepAnyway
  simp only [run_bind]
  generalize (sweepUnder steps.sweep target.emulator .keepGoing).run r = done at *
  obtain ⟨verdict, r'⟩ := done
  obtain rfl : verdict = .ok (.ofResult swept) := hverdict.trans hpasses
  exact ⟨hleads, hkept, rfl⟩

/-- The calls of a run with the answers to them. A build is called only after a sweep, and a launch
only after a build. -/
def runBlock (plan : BootPlan) (swept : Except SweepError Swept)
    (built : Option (Except BootError Unit)) (launched : Option (Except BootError GuestExit)) :
    List Exchange :=
  .sweep plan.target.emulator swept ::
    ((built.map (.build plan.target.buildTarget)).toList ++
      (launched.map (.launch plan.command)).toList)

/-- Which of its calls a run makes, and what it gives, by the answers to them. -/
structure RunCourse (policy : SweepPolicy) (plan : BootPlan) (swept : Except SweepError Swept)
    (built : Option (Except BootError Unit)) (launched : Option (Except BootError GuestExit))
    (result : Except BootError BootReport) : Prop where
  build_iff : built.isSome ↔ (∃ outcome, swept = .ok outcome) ∨ policy = .keepGoing
  launch_iff : launched.isSome ↔ built = some (.ok ())
  /-- The error is that of the step that ended the run. -/
  error_iff : ∀ e, result = .error e ↔
    (∃ inner, swept = .error inner ∧ policy = .abort ∧ e = .sweep inner) ∨
      built = some (.error e) ∨ launched = some (.error e)
  ok_iff : ∀ report, result = .ok report ↔ ∃ exit, launched = some (.ok exit) ∧
    report = ⟨.ofResult swept, plan.target.buildTarget, plan.image, exit⟩

namespace RunCourse

variable {policy : SweepPolicy} {plan : BootPlan} {swept : Except SweepError Swept}

theorem stopped (e : SweepError) :
    RunCourse .abort plan (.error e) none none (.error (.sweep e)) := by
  constructor
  case build_iff => simp
  case launch_iff => simp
  case error_iff => simp [eq_comm]
  case ok_iff => simp

theorem not_stopped (hgoesOn : (∃ outcome, swept = .ok outcome) ∨ policy = .keepGoing)
    (e : BootError) : ¬∃ inner, swept = .error inner ∧ policy = .abort ∧ e = .sweep inner := by
  rintro ⟨inner, rfl, rfl, -⟩
  simp at hgoesOn

theorem notBuilt (hgoesOn : (∃ outcome, swept = .ok outcome) ∨ policy = .keepGoing)
    (e : BootError) : RunCourse policy plan swept (some (.error e)) none (.error e) := by
  constructor
  case build_iff => simp [hgoesOn]
  case launch_iff => simp
  case error_iff => simp [not_stopped hgoesOn]
  case ok_iff => simp

theorem notLaunched (hgoesOn : (∃ outcome, swept = .ok outcome) ∨ policy = .keepGoing)
    (e : BootError) :
    RunCourse policy plan swept (some (.ok ())) (some (.error e)) (.error e) := by
  constructor
  case build_iff => simp [hgoesOn]
  case launch_iff => simp
  case error_iff => simp [not_stopped hgoesOn]
  case ok_iff => simp

theorem ended (hgoesOn : (∃ outcome, swept = .ok outcome) ∨ policy = .keepGoing)
    (exit : GuestExit) :
    RunCourse policy plan swept (some (.ok ())) (some (.ok exit))
      (.ok ⟨.ofResult swept, plan.target.buildTarget, plan.image, exit⟩) := by
  constructor
  case build_iff => simp [hgoesOn]
  case launch_iff => simp
  case error_iff => simp [not_stopped hgoesOn]
  case ok_iff => simp [eq_comm]

end RunCourse

theorem leads_run (r : Rehearsal) (plan : BootPlan) (policy : SweepPolicy) :
    let s := (Runner.run ⟨steps, policy⟩ plan).run r
    ∃ swept built launched, r.Leads (runBlock plan swept built launched) s.2 ∧
      s.2.policy = r.policy ∧ RunCourse policy plan swept built launched s.1 := by
  obtain ⟨swept, hsweep, hkept, hverdict⟩ := leads_sweepUnder r plan.target.emulator policy
  unfold Runner.run
  simp only [run_bind]
  generalize (sweepUnder steps.sweep plan.target.emulator policy).run r = first at *
  obtain ⟨verdict, r₁⟩ := first
  dsimp only at hsweep hkept hverdict
  subst hverdict
  refine ⟨swept, ?_⟩
  -- Only a sweep that the policy lets pass is followed by a build.
  rcases policy.verdict_cases swept with ⟨hpass, hgoesOn⟩ | ⟨e, rfl, rfl, hstop⟩
  case inr =>
    rw [hstop]
    exact ⟨none, none, hsweep, hkept, .stopped e⟩
  rw [hpass]
  simp only [run_bind]
  obtain ⟨hbuild, hkept₁⟩ := leads_build r₁ plan.target.buildTarget
  have hbuilt := hsweep.trans hbuild
  rw [hkept] at hkept₁
  generalize (steps.build plan.target.buildTarget).run r₁ = second at *
  obtain ⟨built, r₂⟩ := second
  refine ⟨some built, ?_⟩
  cases built with
  | error e => exact ⟨none, hbuilt, hkept₁, .notBuilt hgoesOn e⟩
  | ok _ =>
    simp only [run_bind]
    obtain ⟨hlaunch, hkept₂⟩ := leads_launch r₂ plan.command
    have hlaunched := hbuilt.trans hlaunch
    rw [hkept₁] at hkept₂
    generalize (steps.launch plan.command).run r₂ = third at *
    obtain ⟨launched, r₃⟩ := third
    refine ⟨some launched, ?_⟩
    cases launched with
    | error e => exact ⟨hlaunched, hkept₂, .notLaunched hgoesOn e⟩
    | ok exit => exact ⟨hlaunched, hkept₂, .ended hgoesOn exit⟩

/-! ## Operations -/

/-- The policy that an operation puts in force. A runner that is put together anew has the usual
one. -/
def Operation.policy? : Operation → Option SweepPolicy
  | .setPolicy policy => some policy
  | .rebuild => some .keepGoing
  | .standaloneSweep _ => some .keepGoing
  | .killEmulator _ => some .keepGoing
  | .run _ => none
  | .sweep _ => none
  | .build _ => none

/-- The policy in force after operations: the last one that they put in force, or else the one
before them. -/
def policyAfter (before : SweepPolicy) (ops : List Operation) : SweepPolicy :=
  (ops.filterMap Operation.policy?).getLast?.getD before

theorem policyAfter_singleton (before : SweepPolicy) (op : Operation) :
    policyAfter before [op] = op.policy?.getD before := by
  unfold policyAfter
  cases hop : op.policy? with
  | none => simp [hop]
  | some policy => simp [hop]

theorem policyAfter_cons (before : SweepPolicy) (op : Operation) (ops : List Operation) :
    policyAfter before (op :: ops) = policyAfter (policyAfter before [op]) ops := by
  unfold policyAfter
  cases hop : op.policy? with
  | none => simp [hop]
  | some policy => simp [hop, List.getLast?_cons]

def Answer.ofRun : Except BootError BootReport → Answer
  | .ok summary => .report summary
  | .error e => .failed e

def Answer.ofBuild : Except BootError Unit → Answer
  | .ok () => .built
  | .error e => .failed e

/-- The calls that an operation makes under a policy, and what it gives, by the answers to them. -/
def Operation.Block (policy : SweepPolicy) : Operation → List Exchange → Answer → Prop
  | .run plan, block, answer => ∃ swept built launched result,
      RunCourse policy plan swept built launched result ∧
        block = runBlock plan swept built launched ∧ answer = .ofRun result
  | .sweep target, block, answer => ∃ swept,
      block = [.sweep target.emulator swept] ∧ answer = .status (.ofResult swept)
  | .build target, block, answer => ∃ built,
      block = [.build target.buildTarget built] ∧ answer = .ofBuild built
  | .setPolicy _, block, answer => block = [] ∧ answer = .policySet
  | .rebuild, block, answer => block = [] ∧ answer = .rebuilt
  | .standaloneSweep target, block, answer => ∃ swept,
      block = [.sweep target.emulator swept] ∧ answer = .status (.ofResult swept)
  | .killEmulator target, block, answer => ∃ swept,
      block = [.sweep target.emulator swept] ∧
        answer = .printed ((SweepStatus.ofResult swept).sentence target.emulator)

theorem run_perform_run (r : Rehearsal) (plan : BootPlan) :
    let s := (Runner.run ⟨steps, r.policy⟩ plan).run r
    (perform (.run plan)).run r = (.ofRun s.1, s.2) := by
  unfold perform
  simp only [run_bind, run_get]
  cases ((Runner.run ⟨steps, r.policy⟩ plan).run r).1 with
  | error e => rfl
  | ok summary => rfl

theorem run_perform_build (r : Rehearsal) (target : Target) :
    let s := (steps.build target.buildTarget).run r
    (perform (.build target)).run r = (.ofBuild s.1, s.2) := by
  unfold perform Runner.build
  simp only [run_bind, run_get]
  cases ((steps.build target.buildTarget).run r).1 with
  | error e => rfl
  | ok _ => rfl

theorem leads_perform (r : Rehearsal) (op : Operation) :
    let s := (perform op).run r
    ∃ block, r.Leads block s.2 ∧ s.2.policy = policyAfter r.policy [op] ∧
      op.Block r.policy block s.1 := by
  rw [policyAfter_singleton]
  cases op with
  | run plan =>
    obtain ⟨swept, built, launched, hleads, hkept, hcourse⟩ := leads_run r plan r.policy
    rw [run_perform_run]
    exact ⟨_, hleads, hkept, swept, built, launched, _, hcourse, rfl, rfl⟩
  | sweep target =>
    obtain ⟨swept, hleads, hkept, hstatus⟩ := leads_sweepAnyway r target
    exact ⟨_, hleads, hkept, swept, rfl, congrArg Answer.status hstatus⟩
  | build target =>
    obtain ⟨hleads, hkept⟩ := leads_build r target.buildTarget
    rw [run_perform_build]
    exact ⟨_, hleads, hkept, _, rfl, rfl⟩
  | setPolicy policy => exact ⟨[], (Leads.refl r).aside policy r.records, rfl, rfl, rfl⟩
  | rebuild => exact ⟨[], (Leads.refl r).aside .keepGoing r.records, rfl, rfl, rfl⟩
  | standaloneSweep target =>
    obtain ⟨swept, hleads, hkept, hstatus⟩ := leads_sweepAnyway r target
    exact ⟨_, hleads.aside .keepGoing _, rfl, swept, rfl, congrArg Answer.status hstatus⟩
  | killEmulator target =>
    obtain ⟨swept, hleads, hkept, hstatus⟩ := leads_sweepAnyway r target
    refine ⟨_, hleads.aside .keepGoing _, rfl, swept, rfl, ?_⟩
    rw [← hstatus]
    rfl

theorem run_mapM_cons (r : Rehearsal) (op : Operation) (ops : List Operation) :
    let first := (perform op).run r
    let rest := (ops.mapM perform).run first.2
    ((op :: ops).mapM perform).run r = (first.1 :: rest.1, rest.2) := by
  rw [List.mapM_cons]
  rfl

/-- Operations make their blocks of calls one after the other, each under the policy that the ones
before it have left. -/
theorem journal_of_operations (r : Rehearsal) (ops : List Operation) :
    let s := (ops.mapM perform).run r
    ∃ (block : Fin ops.length → List Exchange) (answer : Fin ops.length → Answer),
      r.Leads (List.ofFn block).flatten s.2 ∧ s.1 = List.ofFn answer ∧
      ∀ i : Fin ops.length,
        ops[i].Block (policyAfter r.policy (ops.take i)) (block i) (answer i) := by
  induction ops generalizing r with
  | nil => exact ⟨Fin.elim0, Fin.elim0, .refl r, rfl, fun i => i.elim0⟩
  | cons op ops ih =>
    intro s
    -- The other operations begin where the first one leads, under the policy that it has left.
    obtain ⟨first, hfirst, hpolicy, hblock⟩ := leads_perform r op
    obtain ⟨block, answer, hrest, hanswers, hblocks⟩ := ih ((perform op).run r).2
    have hs : s = _ := run_mapM_cons r op ops
    refine ⟨Fin.cases first block, Fin.cases ((perform op).run r).1 answer, ?_, ?_, ?_⟩
    · rw [hs, List.ofFn_succ]
      simp only [Fin.cases_zero, Fin.cases_succ, List.flatten_cons]
      exact hfirst.trans hrest
    · rw [hs, List.ofFn_succ]
      simp only [Fin.cases_zero, Fin.cases_succ, hanswers]
    · intro i
      refine Fin.cases ?_ ?_ i
      · exact hblock
      · intro j
        have hj := hblocks j
        rw [hpolicy, ← policyAfter_cons] at hj
        exact hj

end Rehearsal

end RiscvBoot
