import RiscvBoot.Proofs.Command.Kill

/-!
# Commands that leave the files alone

Work on a host leaves the files alone when the tree and the working directory come out of it as they
went in. This is kept by doing one thing after the other, so it holds of every command but the one
that starts a project (`CommandLine.leavesFiles_perform`).
-/

set_option autoImplicit false

namespace RiscvBoot

variable {α β : Type}

namespace Host

/-- Whatever the work does, it does not change a file. -/
def LeavesFiles (x : HostM α) : Prop := ∀ h : Host, (x.run h).2.toFileView = h.toFileView

namespace LeavesFiles

theorem pure (a : α) : LeavesFiles (Pure.pure a : HostM α) := fun _ => rfl

theorem bind {x : HostM α} {f : α → HostM β} (hx : LeavesFiles x) (hf : ∀ a, LeavesFiles (f a)) :
    LeavesFiles (x >>= f) := by
  intro h
  rw [run_bind]
  exact (hf _ _).trans (hx h)

theorem record (e : Event) : LeavesFiles (Host.record e) := fun _ => rfl

theorem start (i : Invocation) : LeavesFiles (Host.start i) := fun h => (leads_start h i).view

theorem forM {xs : List α} {f : α → HostM PUnit} (hf : ∀ a, LeavesFiles (f a)) :
    LeavesFiles (xs.forM f) := by
  induction xs with
  | nil => exact pure _
  | cons x xs ih => exact bind (hf x) fun _ => ih

end LeavesFiles

end Host

open Host

theorem Checkup.leavesFiles_report (dir : Path) : LeavesFiles (report dir) := by
  have htool (name : String) : LeavesFiles (checkTool name) :=
    .bind (.start _) fun _ => .record _
  refine .bind (.record _) fun _ => ?_
  refine .bind (htool _) fun _ => ?_
  refine .bind (htool _) fun _ => ?_
  refine .bind (.record _) fun _ => ?_
  refine .bind (.forM fun a => htool _) fun _ => ?_
  refine .bind (.record _) fun _ => ?_
  refine .bind (htool _) fun _ => ?_
  refine .bind (htool _) fun _ => ?_
  refine .bind (.record _) fun _ => ?_
  refine .bind (.forM fun a => .record _) fun _ => ?_
  refine .bind (.record _) fun _ => ?_
  exact .bind (fun _ => rfl) fun _ => .record _

namespace Command

theorem leavesFiles_config (s : Setup) (format : Option String) :
    LeavesFiles (config s format) := by
  unfold config
  cases s.render format with
  | error e => exact .pure _
  | ok text => exact .bind (.record _) fun _ => .pure _

theorem leavesFiles_build (s : Setup) : LeavesFiles (build s) := by
  have hbuild : LeavesFiles ((runner s).build s.target) := fun h =>
    have ⟨_, hleads, _⟩ := leads_build s.builder s.target.buildTarget h
    hleads.view
  refine .bind (.record _) fun _ => .bind hbuild fun result => ?_
  cases result with
  | error e => exact .pure _
  | ok _ => exact .bind (.record _) fun _ => .pure _

theorem leavesFiles_run (s : Setup) (emulatorArgs : List String) :
    LeavesFiles (run s emulatorArgs) := by
  intro h
  obtain ⟨_, ⟨_, _, _, _, _, _, hbefore, hafter, _⟩, _⟩ := runs_run s emulatorArgs h
  exact hafter.view.trans hbefore.view

theorem leavesFiles_kill (t : SweepOrder) : LeavesFiles (kill t) := by
  intro h
  obtain ⟨_, _, _, hleads⟩ := leads_kill_attempts t h
  exact hleads.view

theorem leavesFiles_openSweepOrder (cwd : Path) (given : Choice) (strict : Bool) :
    LeavesFiles (openSweepOrder cwd given strict) := by
  intro h
  obtain ⟨events, hrun, hleads⟩ := run_openSweepOrder cwd given strict h
  rw [hrun]

theorem leavesFiles_withSetup (cwd : Path) (request : Request)
    {use : Setup → HostM (Except CommandError Int)} (huse : ∀ s, LeavesFiles (use s)) :
    LeavesFiles (withSetup cwd request use) := by
  have hopen : LeavesFiles (openSetup cwd request) := by
    intro h
    obtain ⟨events, hrun, -⟩ := run_openSetup cwd request h
    rw [hrun]
  refine .bind hopen fun result => ?_
  cases result with
  | error e => exact .pure _
  | ok s => exact huse s

end Command

/-- Only the command that starts a project can change a file. -/
theorem CommandLine.leavesFiles_perform {a : Arguments} (ha : a.command ≠ .init) (cwd : Path)
    (env : Environment) : LeavesFiles (perform cwd env a) := by
  have hsucceed {work : HostM (Except CommandError Unit)} (hwork : LeavesFiles work) :
      LeavesFiles (do return (← work).map fun () => (0 : Int)) :=
    .bind hwork fun _ => .pure _
  unfold perform
  match hcommand : a.command with
  | .build =>
    exact Command.leavesFiles_withSetup cwd _ fun s => hsucceed (Command.leavesFiles_build s)
  | .config =>
    exact Command.leavesFiles_withSetup cwd _ fun s => hsucceed (Command.leavesFiles_config s _)
  | .run => exact Command.leavesFiles_withSetup cwd _ fun s => Command.leavesFiles_run s _
  | .doctor => exact .bind (Checkup.leavesFiles_report cwd) fun _ => .pure _
  | .kill =>
    exact .bind (Command.leavesFiles_openSweepOrder cwd _ _) fun t =>
      .bind (Command.leavesFiles_kill t) fun _ => .pure _
  | .init => exact absurd hcommand ha

end RiscvBoot
