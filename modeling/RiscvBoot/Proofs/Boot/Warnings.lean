import RiscvBoot.Proofs.Boot.Journal

/-!
# What comes to light of a sweep

An error of a sweep ends a run under the policy that says so. Everywhere else it is passed over,
with one warning in the log and with the status that is given. A rehearsal writes to its log what
`Operation.remarks` says (`records_perform`), and each operation accounts for its own sweep
(`accounts_perform`). A run whose build or launch fails gives the error of that step and no status,
so an error that such a run has passed over is in the log alone.
-/

set_option autoImplicit false

namespace RiscvBoot

/-- The warning for an error that is passed over. -/
def SweepError.passedOver (e : SweepError) : Log.Record :=
  ⟨.warn, .boot, s!"{e.message}; continuing"⟩

/-- What is written about the result of a sweep. -/
def SweepPolicy.remarks (policy : SweepPolicy) (emulator : String) :
    Except SweepError Swept → List Log.Record
  | .ok .terminated => [⟨.info, .boot, s!"terminated running {emulator}"⟩]
  | .ok .notFound => []
  | .error e =>
    match policy with
    | .keepGoing => [e.passedOver]
    | .abort => []

namespace Rehearsal

/-! ## The log -/

def warnings (records : List Log.Record) : List Log.Record := records.filter (·.level = .warn)

theorem warnings_remarks_ok (policy : SweepPolicy) (emulator : String) (outcome : Swept) :
    warnings (policy.remarks emulator (.ok outcome)) = [] := by
  cases outcome with
  | terminated => rfl
  | notFound => rfl

/-- The result that the script has for the next sweep. -/
def nextSwept (r : Rehearsal) : Except SweepError Swept := r.sweeps.headD (.ok .notFound)

theorem records_sweepUnder (r : Rehearsal) (emulator : String) (policy : SweepPolicy) :
    ((sweepUnder steps.sweep emulator policy).run r).2.records =
      r.records ++ (⟨.info, .boot, s!"stopping stale {emulator} instances"⟩ ::
        policy.remarks emulator r.nextSwept) := by
  let begun := r.log ⟨.info, .boot, s!"stopping stale {emulator} instances"⟩
  have hanswer : ((steps.sweep emulator).run begun).1 = r.nextSwept := rfl
  have hrecords : ((steps.sweep emulator).run begun).2.records =
      r.records ++ [⟨.info, .boot, s!"stopping stale {emulator} instances"⟩] := rfl
  rw [List.append_cons, ← hrecords, ← hanswer]
  unfold sweepUnder
  simp only [run_bind, run_info]
  generalize (steps.sweep emulator).run begun = called
  obtain ⟨swept, r'⟩ := called
  match swept, policy with
  | .ok .terminated, _ => rfl
  | .ok .notFound, _ => exact (List.append_nil _).symm
  | .error e, .keepGoing => rfl
  | .error e, .abort => exact (List.append_nil _).symm

theorem records_sweepAnyway (r : Rehearsal) (target : Target) :
    ((sweepAnyway steps.sweep target).run r).2.records =
      ((sweepUnder steps.sweep target.emulator .keepGoing).run r).2.records := by
  unfold sweepAnyway
  simp only [run_bind]
  cases ((sweepUnder steps.sweep target.emulator .keepGoing).run r).1 with
  | error e => rfl
  | ok status => rfl

/-- The other steps write nothing. -/
theorem records_run (r : Rehearsal) (plan : BootPlan) (policy : SweepPolicy) :
    ((Runner.run ⟨steps, policy⟩ plan).run r).2.records =
      ((sweepUnder steps.sweep plan.target.emulator policy).run r).2.records := by
  unfold Runner.run
  simp only [run_bind]
  generalize (sweepUnder steps.sweep plan.target.emulator policy).run r = first
  obtain ⟨verdict, r₁⟩ := first
  cases verdict with
  | error e => rfl
  | ok status =>
    have hbuild : ((steps.build plan.target.buildTarget).run r₁).2.records = r₁.records := rfl
    simp only [run_bind]
    rw [← hbuild]
    generalize (steps.build plan.target.buildTarget).run r₁ = second
    obtain ⟨built, r₂⟩ := second
    cases built with
    | error e => rfl
    | ok _ =>
      have hlaunch : ((steps.launch plan.command).run r₂).2.records = r₂.records := rfl
      simp only [run_bind]
      rw [← hlaunch]
      generalize (steps.launch plan.command).run r₂ = third
      obtain ⟨launched, r₃⟩ := third
      cases launched with
      | error e => rfl
      | ok exit => rfl

/-- The emulator that an operation sweeps for, and what it does with an error of its sweep. Only a
run asks for the policy in force. -/
def Operation.sweep? (inForce : SweepPolicy) : Operation → Option (String × SweepPolicy)
  | .run plan => some (plan.target.emulator, inForce)
  | .sweep target => some (target.emulator, .keepGoing)
  | .standaloneSweep target => some (target.emulator, .keepGoing)
  | .killEmulator target => some (target.emulator, .keepGoing)
  | .build _ => none
  | .setPolicy _ => none
  | .rebuild => none

/-- What an operation writes, by the result of its sweep. -/
def Operation.remarks (inForce : SweepPolicy) (op : Operation)
    (swept : Except SweepError Swept) : List Log.Record :=
  match op.sweep? inForce with
  | some (emulator, policy) =>
    ⟨.info, .boot, s!"stopping stale {emulator} instances"⟩ :: policy.remarks emulator swept
  | none => []

theorem records_perform (r : Rehearsal) (op : Operation) :
    ((perform op).run r).2.records = r.records ++ op.remarks r.policy r.nextSwept := by
  have halone (target : Target) := (records_sweepAnyway r target).trans
    (records_sweepUnder r target.emulator .keepGoing)
  cases op with
  | run plan =>
    rw [run_perform_run]
    exact (records_run r plan r.policy).trans (records_sweepUnder r plan.target.emulator r.policy)
  | sweep target => exact halone target
  | standaloneSweep target => exact halone target
  | killEmulator target => exact halone target
  | build target =>
    rw [run_perform_build]
    exact (List.append_nil _).symm
  | setPolicy policy => exact (List.append_nil _).symm
  | rebuild => exact (List.append_nil _).symm

/-! ## Answers -/

namespace Operation

def IsRun (op : Operation) : Prop := ∃ plan, op = .run plan

def Sweeps : Operation → Prop
  | .build _ => False
  | .setPolicy _ => False
  | .rebuild => False
  | _ => True

/-- The answer of an operation has this status of its sweep: in the report of a run, by itself, or
as a sentence that is printed. -/
def Gives (status : SweepStatus) : Operation → Answer → Prop
  | .run plan, answer =>
    ∃ exit, answer = .report ⟨status, plan.target.buildTarget, plan.image, exit⟩
  | .sweep _, answer => answer = .status status
  | .standaloneSweep _, answer => answer = .status status
  | .killEmulator target, answer => answer = .printed (status.sentence target.emulator)
  | .build _, _ => False
  | .setPolicy _, _ => False
  | .rebuild, _ => False

/-- A run whose build or launch has failed, and that gives the error of that step. -/
def IsCutShort (op : Operation) (block : List Exchange) (answer : Answer) : Prop :=
  ∃ plan e, op = .run plan ∧ answer = .failed e ∧
    (.build plan.target.buildTarget (.error e) ∈ block ∨ .launch plan.command (.error e) ∈ block)

/-- What becomes of the result of a sweep in the operation that has asked for it, in what the
operation gives and in what it writes. -/
structure Accounts (inForce : SweepPolicy) (op : Operation)
    (swept : Option (Except SweepError Swept)) (block : List Exchange) (answer : Answer)
    (records : List Log.Record) : Prop where
  called : block.filterMap Exchange.swept? = swept.toList
  isSome_iff : swept.isSome ↔ op.Sweeps
  stopped : ∀ e, swept = some (.error e) → op.IsRun → inForce = .abort →
    answer = .failed (.sweep e) ∧ warnings records = []
  passedOver : ∀ e, swept = some (.error e) → ¬(op.IsRun ∧ inForce = .abort) →
    warnings records = [e.passedOver] ∧
      (op.Gives (.ignored e.message) answer ∨ op.IsCutShort block answer)
  succeeded : ∀ outcome, swept = some (.ok outcome) → warnings records = [] ∧
    (op.Gives (.ofResult (.ok outcome)) answer ∨ op.IsCutShort block answer)
  silent : swept = none → warnings records = []
  /-- A sweep by itself never fails. -/
  steady : op.Sweeps → ¬op.IsRun → ∀ e, answer ≠ .failed e

variable {inForce : SweepPolicy} {op : Operation} {plan : BootPlan} {answer : Answer}
  {swept : Except SweepError Swept} {built : Option (Except BootError Unit)}
  {launched : Option (Except BootError GuestExit)} {result : Except BootError BootReport}

theorem warnings_remarks {emulator : String} {policy : SweepPolicy}
    (hsweep : op.sweep? inForce = some (emulator, policy)) (swept : Except SweepError Swept) :
    warnings (op.remarks inForce swept) = warnings (policy.remarks emulator swept) := by
  unfold remarks
  rw [hsweep]
  rfl

theorem gives_or_isCutShort (h : RunCourse inForce plan swept built launched result)
    (hgoesOn : (∃ outcome, swept = .ok outcome) ∨ inForce = .keepGoing) :
    (run plan).Gives (.ofResult swept) (.ofRun result) ∨
      (run plan).IsCutShort (runBlock plan swept built launched) (.ofRun result) := by
  cases result with
  | ok report =>
    obtain ⟨exit, -, rfl⟩ := (h.ok_iff report).1 rfl
    exact .inl ⟨exit, rfl⟩
  | error e =>
    refine .inr ⟨plan, e, rfl, rfl, ?_⟩
    rcases (h.error_iff e).1 rfl with hstopped | rfl | rfl
    · exact absurd hstopped (RunCourse.not_stopped hgoesOn e)
    · exact .inl (by simp [runBlock])
    · exact .inr (by simp [runBlock])

theorem accounts_run (h : RunCourse inForce plan swept built launched result) :
    (run plan).Accounts inForce (some swept) (runBlock plan swept built launched) (.ofRun result)
      ((run plan).remarks inForce swept) := by
  have hwarnings : warnings ((run plan).remarks inForce swept) = _ := warnings_remarks rfl swept
  constructor
  case called => cases built <;> cases launched <;> rfl
  case isSome_iff => simp [Sweeps]
  case stopped =>
    rintro e hswept - rfl
    cases hswept
    have hresult := (h.error_iff (.sweep e)).2 (.inl ⟨e, rfl, rfl, rfl⟩)
    rw [hresult, hwarnings]
    exact ⟨rfl, rfl⟩
  case passedOver =>
    intro e hswept hpolicy
    cases hswept
    cases inForce with
    | keepGoing =>
      rw [hwarnings]
      exact ⟨rfl, gives_or_isCutShort h (.inr rfl)⟩
    | abort => exact absurd ⟨⟨plan, rfl⟩, rfl⟩ hpolicy
  case succeeded =>
    intro outcome hswept
    cases hswept
    rw [hwarnings]
    exact ⟨warnings_remarks_ok _ _ outcome, gives_or_isCutShort h (.inl ⟨outcome, rfl⟩)⟩
  case silent => simp
  case steady => exact fun _ hrun => absurd ⟨plan, rfl⟩ hrun

/-- A sweep without a build passes every error over, whatever policy is in force. -/
theorem accounts_alone {emulator : String}
    (hsweep : ∀ policy, op.sweep? policy = some (emulator, .keepGoing))
    (hgives : op.Gives (.ofResult swept) answer) :
    op.Accounts inForce (some swept) [.sweep emulator swept] answer (op.remarks inForce swept) := by
  have hwarnings := warnings_remarks (hsweep inForce) swept
  have hrun : ¬op.IsRun := by
    rintro ⟨plan, rfl⟩
    cases hsweep .abort
  constructor
  case called => rfl
  case isSome_iff =>
    cases op with
    | build target => cases hsweep inForce
    | setPolicy policy => cases hsweep inForce
    | rebuild => cases hsweep inForce
    | _ => simp [Sweeps]
  case stopped => exact fun _ _ hstop => absurd hstop hrun
  case passedOver =>
    rintro e hswept -
    cases hswept
    rw [hwarnings]
    exact ⟨rfl, .inl hgives⟩
  case succeeded =>
    intro outcome hswept
    cases hswept
    rw [hwarnings]
    exact ⟨warnings_remarks_ok _ _ outcome, .inl hgives⟩
  case silent => simp
  case steady =>
    rintro - - e rfl
    cases op with
    | run plan => exact hrun ⟨plan, rfl⟩
    | _ => cases hgives

theorem accounts_of_not_sweeps {block : List Exchange} (hsweeps : ¬op.Sweeps)
    (hblock : block.filterMap Exchange.swept? = []) :
    op.Accounts inForce none block answer (op.remarks inForce swept) := by
  constructor
  case called => exact hblock
  case isSome_iff => simp [hsweeps]
  case stopped => simp
  case passedOver => simp
  case succeeded => simp
  case silent =>
    intro _
    cases op with
    | build target => rfl
    | setPolicy policy => rfl
    | rebuild => rfl
    | _ => exact absurd trivial hsweeps
  case steady => exact fun h => absurd h hsweeps

end Operation

theorem Leads.nextSwept_eq {r r' : Rehearsal} {xs : List Exchange}
    {swept : Except SweepError Swept} (h : r.Leads xs r')
    (hxs : xs.filterMap Exchange.swept? = [swept]) : r.nextSwept = swept := by
  have hfirst := h.sweeps.taken_eq 0
  rw [hxs] at hfirst
  have hhead := Option.some.inj (hfirst (by simp))
  rw [hhead]
  unfold nextSwept
  cases r.sweeps with
  | nil => rfl
  | cons answer sweeps => rfl

theorem accounts_perform (r : Rehearsal) (op : Operation) :
    let s := (perform op).run r
    ∃ swept block, r.Leads block s.2 ∧ s.2.policy = policyAfter r.policy [op] ∧
      s.2.records = r.records ++ op.remarks r.policy r.nextSwept ∧
      op.Accounts r.policy swept block s.1 (op.remarks r.policy r.nextSwept) := by
  obtain ⟨block, hleads, hpolicy, hblock⟩ := leads_perform r op
  have hrecords := records_perform r op
  suffices haccounts : ∃ swept, op.Accounts r.policy swept block ((perform op).run r).1
      (op.remarks r.policy r.nextSwept) by
    obtain ⟨swept, haccounts⟩ := haccounts
    exact ⟨swept, block, hleads, hpolicy, hrecords, haccounts⟩
  -- The result that is asked for is the next one of the script.
  cases op with
  | run plan =>
    obtain ⟨swept, built, launched, result, hcourse, rfl, hanswer⟩ := hblock
    have haccounts := Operation.accounts_run hcourse
    rw [hanswer, hleads.nextSwept_eq haccounts.called]
    exact ⟨some swept, haccounts⟩
  | sweep target =>
    obtain ⟨swept, rfl, hanswer⟩ := hblock
    rw [hleads.nextSwept_eq rfl]
    exact ⟨some swept, Operation.accounts_alone (fun _ => rfl) hanswer⟩
  | standaloneSweep target =>
    obtain ⟨swept, rfl, hanswer⟩ := hblock
    rw [hleads.nextSwept_eq rfl]
    exact ⟨some swept, Operation.accounts_alone (fun _ => rfl) hanswer⟩
  | killEmulator target =>
    obtain ⟨swept, rfl, hanswer⟩ := hblock
    rw [hleads.nextSwept_eq rfl]
    exact ⟨some swept, Operation.accounts_alone (fun _ => rfl) hanswer⟩
  | build target =>
    obtain ⟨built, rfl, -⟩ := hblock
    exact ⟨none, Operation.accounts_of_not_sweeps id rfl⟩
  | setPolicy policy =>
    obtain ⟨rfl, -⟩ := hblock
    exact ⟨none, Operation.accounts_of_not_sweeps id rfl⟩
  | rebuild =>
    obtain ⟨rfl, -⟩ := hblock
    exact ⟨none, Operation.accounts_of_not_sweeps id rfl⟩

/-! ## Sequences of operations -/

/-- An error of a sweep comes to light once. It is the error of a run under the policy that says so,
without a warning. Otherwise one warning has it, and the operation gives it as its status, unless
the build or the launch of a run fails after it. -/
theorem sweep_errors_surface (r : Rehearsal) (ops : List Operation) :
    let s := (ops.mapM perform).run r
    ∃ (swept : Fin ops.length → Option (Except SweepError Swept))
      (block : Fin ops.length → List Exchange) (answer : Fin ops.length → Answer)
      (records : Fin ops.length → List Log.Record),
      r.Leads (List.ofFn block).flatten s.2 ∧ s.1 = List.ofFn answer ∧
      s.2.records = r.records ++ (List.ofFn records).flatten ∧
      ∀ i : Fin ops.length, (ops.get i).Accounts (policyAfter r.policy (ops.take i)) (swept i)
        (block i) (answer i) (records i) := by
  induction ops generalizing r with
  | nil =>
    exact ⟨Fin.elim0, Fin.elim0, Fin.elim0, Fin.elim0, .refl r, rfl, (List.append_nil _).symm,
      fun i => i.elim0⟩
  | cons op ops ih =>
    intro s
    obtain ⟨swept₀, block₀, hfirst, hpolicy, hwritten, haccounts⟩ := accounts_perform r op
    obtain ⟨swept, block, answer, records, hrest, hanswers, hrecords, hall⟩ :=
      ih ((perform op).run r).2
    have hs : s = _ := run_mapM_cons r op ops
    refine ⟨Fin.cases swept₀ swept, Fin.cases block₀ block, Fin.cases ((perform op).run r).1 answer,
      Fin.cases (op.remarks r.policy r.nextSwept) records, ?_, ?_, ?_, ?_⟩
    · rw [hs, List.ofFn_succ]
      simp only [Fin.cases_zero, Fin.cases_succ, List.flatten_cons]
      exact hfirst.trans hrest
    · rw [hs, List.ofFn_succ]
      simp only [Fin.cases_zero, Fin.cases_succ, hanswers]
    · rw [hs, List.ofFn_succ]
      simp only [Fin.cases_zero, Fin.cases_succ, List.flatten_cons]
      rw [hrecords, hwritten, List.append_assoc]
    · intro i
      refine Fin.cases ?_ ?_ i
      · exact haccounts
      · intro j
        have hj := hall j
        rw [hpolicy, ← policyAfter_cons] at hj
        exact hj

/-- After a failed build there is no status, so the log alone has the error that was passed over. -/
theorem passed_over_without_status :
    ¬∀ (r : Rehearsal) (plan : BootPlan) (e : SweepError), r.policy = .keepGoing →
      r.nextSwept = .error e →
        (Operation.run plan).Gives (.ignored e.message) ((perform (.run plan)).run r).1 := by
  intro hclaim
  let r : Rehearsal :=
    { sweeps := [.error (.failed "pkill" (some 3))]
      builds := [.error (.buildFailed "riscv64gc-unknown-none-elf" (some 101))] }
  obtain ⟨exit, hexit⟩ := hclaim r ⟨{}, ⟨"kernel"⟩, {}⟩ (.failed "pkill" (some 3)) rfl rfl
  cases hexit

end Rehearsal

end RiscvBoot
