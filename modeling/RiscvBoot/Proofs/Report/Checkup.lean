import RiscvBoot.CommandLine.Program
import RiscvBoot.Proofs.Host.Search
import RiscvBoot.Proofs.Kernel.Separation
import RiscvBoot.Proofs.Project.Obstacles
import RiscvBoot.Proofs.Sweep.OnHost
import RiscvBoot.Proofs.Sweep.Pattern

/-!
# What a checkup tells about the other commands

A checkup asks each tool for its version. Doing so moves nothing that a later tool or command could
notice, so the report can be read off the host as it was before (`Checkup.tells_report`).
-/

set_option autoImplicit false

namespace RiscvBoot

open Host

/-! ## What is printed -/

theorem CommandLine.printedText_append (es es' : List Event) :
    printedText (es ++ es') = printedText es ++ printedText es' := by
  unfold printedText
  rw [List.filterMap_append, String.join_append]

namespace Host

/-- What the program at a place prints. -/
def outputAt (h : Host) (place : Location) : String := ((h.scripts.lookup place).getD {}).output

/-- Programs may have been run, and what is found and what it prints is still the same. -/
structure Unmoved (h g : Host) : Prop where
  leads : ∃ as, h.Leads as g
  output : ∀ place, g.outputAt place = h.outputAt place

/-- The work prints this text on a host that has not moved, and does not move it. -/
def Tells (h : Host) (x : HostM Unit) (text : String) : Prop :=
  ∀ g, h.Unmoved g → h.Unmoved (x.run g).2 ∧
    ∃ es, (x.run g).2.events = g.events ++ es ∧ CommandLine.printedText es = text

variable {h g : Host} {x y : HostM Unit} {text text' : String}

theorem output_advance (s : Script) : s.advance.output = s.output := by
  unfold Script.advance
  split <;> rfl

theorem outputAt_start (h : Host) (i : Invocation) (place : Location) :
    ((start i).run h).2.outputAt place = h.outputAt place := by
  cases hfind : h.find i with
  | error e => rw [run_start_error hfind]; rfl
  | ok s =>
    rw [run_start_ok hfind]
    unfold outputAt
    by_cases hplace : place = s.program
    · subst hplace
      simp [output_advance]
    · have hne : (place == s.program) = false := by simpa using hplace
      dsimp only
      rw [List.lookup_cons, hne, FileTree.lookup_filter_ne hplace]

theorem events_start (h : Host) (i : Invocation) : ∃ es,
    ((start i).run h).2.events = h.events ++ es ∧ CommandLine.printedText es = "" := by
  cases hfind : h.find i with
  | error e =>
    rw [run_start_error hfind]
    exact ⟨_, rfl, rfl⟩
  | ok s =>
    rw [run_start_ok hfind]
    exact ⟨_, List.append_assoc _ _ _, rfl⟩

namespace Unmoved

theorem refl (h : Host) : h.Unmoved h := ⟨⟨[], .refl h⟩, fun _ => rfl⟩

theorem start (hg : h.Unmoved g) (i : Invocation) : h.Unmoved ((Host.start i).run g).2 := by
  obtain ⟨⟨as, hleads⟩, houtput⟩ := hg
  refine ⟨⟨_, hleads.trans (leads_start g i)⟩, ?_⟩
  intro place
  rw [outputAt_start, houtput]

theorem print (hg : h.Unmoved g) (text : String) : h.Unmoved ((Host.print text).run g).2 := by
  obtain ⟨⟨as, hleads⟩, houtput⟩ := hg
  exact ⟨⟨_, hleads.trans (leads_print g text)⟩, houtput⟩

end Unmoved

namespace Tells

theorem print (h : Host) (text : String) : h.Tells (Host.print text) text := by
  intro g hg
  refine ⟨hg.print text, [.printed text], rfl, ?_⟩
  change String.join [text] = text
  rw [String.join_cons, String.join_nil, String.append_empty]

theorem bind (hx : h.Tells x text) (hy : h.Tells y text') :
    h.Tells (x >>= fun _ => y) (text ++ text') := by
  intro g hg
  obtain ⟨hmoved, es, hes, htext⟩ := hx g hg
  obtain ⟨hmoved', es', hes', htext'⟩ := hy _ hmoved
  refine ⟨hmoved', es ++ es', ?_, ?_⟩
  · rw [run_bind, hes', hes, List.append_assoc]
  · rw [CommandLine.printedText_append, htext, htext']

theorem forM {α : Type} {xs : List α} {f : α → HostM Unit} {texts : α → String}
    (hf : ∀ a, h.Tells (f a) (texts a)) : h.Tells (xs.forM f) (String.join (xs.map texts)) := by
  induction xs with
  | nil => exact fun g hg => ⟨hg, [], (List.append_nil _).symm, rfl⟩
  | cons a xs ih =>
    rw [List.map_cons, String.join_cons]
    exact (hf a).bind ih

end Tells

end Host

namespace Checkup

/-! ## The report -/

/-- What is said about a tool. How it ends does not matter. -/
def toolText (h : Host) (name : String) : String :=
  match h.find ⟨name, ["--version"], none⟩ with
  | .ok s =>
    s!"  {name}: " ++ (Text.firstLine? (h.outputAt s.program)).getD "(unknown version)" ++ "\n"
  | .error _ => s!"  {name}: not found\n"

/-- The texts of a report, first things first. -/
def reportTexts (h : Host) (dir : Path) : List String := [
  s!"=== hartctl doctor ===\n\nhartctl version: {version}\n\n--- Build ---\n",
  toolText h "cargo",
  toolText h "rustc",
  "\n--- Emulators ---\n",
  String.join (Isa.all.map fun a => toolText h a.emulator),
  "\n--- Process Control ---\n",
  toolText h "pkill",
  toolText h "pgrep",
  "\n--- Targets ---\n",
  String.join (Isa.all.map archLine),
  "\n--- Project Status ---\n",
  projectLines (Manifest.find h.toFileView dir)]

variable {h g : Host} {name : String}

theorem toolLine_start (hg : h.Unmoved g) (name : String) :
    toolLine name ((start ⟨name, ["--version"], none⟩).run g).1 = toolText h name := by
  obtain ⟨as, hleads⟩ := hg.leads
  unfold toolText
  rw [← hleads.find]
  cases hs : g.find ⟨name, ["--version"], none⟩ with
  | error e =>
    rw [run_start_error hs]
    rfl
  | ok s =>
    dsimp only
    rw [run_start_ok hs, ← hg.output]
    rfl

theorem tells_checkTool (h : Host) (name : String) :
    h.Tells (checkTool name) (toolText h name) := by
  intro g hg
  have hstarted := hg.start ⟨name, ["--version"], none⟩
  obtain ⟨es, hes, hsilent⟩ := events_start g ⟨name, ["--version"], none⟩
  obtain ⟨hmoved, es', hes', htext⟩ := Tells.print h (toolText h name) _ hstarted
  unfold checkTool
  rw [run_bind, toolLine_start hg]
  refine ⟨hmoved, es ++ es', ?_, ?_⟩
  · rw [hes', hes, List.append_assoc]
  · rw [CommandLine.printedText_append, hsilent, htext, String.empty_append]

theorem tells_report (h : Host) (dir : Path) :
    h.Tells (report dir) (String.join (reportTexts h dir)) := by
  unfold reportTexts
  simp only [String.join_cons, String.join_nil, String.append_empty]
  refine .bind (.print h _) ?_
  refine .bind (tells_checkTool h _) ?_
  refine .bind (tells_checkTool h _) ?_
  refine .bind (.print h _) ?_
  refine .bind (.forM fun a => tells_checkTool h _) ?_
  refine .bind (.print h _) ?_
  refine .bind (tells_checkTool h _) ?_
  refine .bind (tells_checkTool h _) ?_
  refine .bind (.print h _) ?_
  refine .bind (.forM fun a => .print h _) ?_
  refine .bind (.print h _) ?_
  intro g hg
  obtain ⟨as, hleads⟩ := hg.leads
  rw [← hleads.view]
  exact Tells.print h _ g hg

/-! ## Tools -/

/-- The tool cannot be started from the working directory. -/
def Lacks (h : Host) (name : String) : Prop :=
  ∃ e, h.find ⟨name, ["--version"], none⟩ = .error e

/-- The tool is there, and it begins like a report that it is not. -/
def SaysNotFound (h : Host) (name : String) : Prop :=
  ∃ s, h.find ⟨name, ["--version"], none⟩ = .ok s ∧
    Text.firstLine? (h.outputAt s.program) = some "not found"

theorem toolText_eq_notFound_iff :
    toolText h name = s!"  {name}: not found\n" ↔ Lacks h name ∨ SaysNotFound h name := by
  unfold toolText Lacks SaysNotFound
  cases h.find ⟨name, ["--version"], none⟩ with
  | error e => simp
  | ok s =>
    have hline (line : String) :
        s!"  {name}: " ++ line ++ "\n" = s!"  {name}: not found\n" ↔ line = "not found" := by
      have htext : s!"  {name}: not found\n" = s!"  {name}: " ++ "not found" ++ "\n" := by
        simp only [String.append_assoc]
        rfl
      rw [htext, String.append_left_inj, String.append_right_inj]
    dsimp only
    rw [hline]
    cases hfirst : Text.firstLine? (h.outputAt s.program) with
    | none => simp [hfirst]
    | some line => simp [hfirst]

/-- The arguments need at least as much room as those of the question for a version. -/
structure NeedsRoom (args : List String) : Prop where
  count : ["--version"].length ≤ args.length
  bytes : wordBytes ["--version"] ≤ wordBytes args

theorem needsRoom_cons (first second : String) (rest : List String)
    (h : 8 ≤ first.utf8ByteSize + second.utf8ByteSize) : NeedsRoom (first :: second :: rest) := by
  have hbytes : wordBytes ["--version"] = 10 := by decide
  refine ⟨Nat.succ_pos _, ?_⟩
  rw [hbytes, wordBytes_cons, wordBytes_cons]
  omega

/-- A call of a program, in a directory that makes no difference, fails exactly if the program
cannot be asked for its version either or the system does not take the words of the call. -/
theorem fails_iff {program : String} {args : List String} {dir : Option Path} {place : Location}
    {as : List Attempt} (hprogram : program.toList.contains '\x00' = false)
    (hargs : ∀ arg ∈ args, arg.toList.contains '\x00' = false) (hroom : NeedsRoom args)
    (hdir : h.childDir ⟨program, args, dir⟩ = .ok place)
    (hplace : place = h.workDir ∨ program.toList.contains '/' = false ∧ h.Anchored)
    (hg : h.Leads as g) :
    (∃ e, g.find ⟨program, args, dir⟩ = .error e) ↔
      Lacks h program ∨ h.Refuses ⟨program, args, dir⟩ := by
  have hversion : ∀ word ∈ program :: ["--version"], word.toList.contains '\x00' = false :=
    List.forall_mem_cons.2 ⟨hprogram, by decide⟩
  have hsame : SameProgram (h.find ⟨program, args, dir⟩)
      (h.find ⟨program, ["--version"], none⟩) :=
    find_same hversion (List.forall_mem_cons.2 ⟨hprogram, hargs⟩) (by decide) hroom.count
      hroom.bytes rfl hdir hplace
  rw [hg.find]
  constructor
  · rintro ⟨e, he⟩
    by_cases hrefused : h.Refuses ⟨program, args, dir⟩
    · exact .inr hrefused
    · exact .inl ⟨e, (hsame.error_iff hrefused).1 he⟩
  · rintro (⟨e, he⟩ | hrefused)
    · by_cases hrefused : h.Refuses ⟨program, args, dir⟩
      · exact ⟨_, hrefused⟩
      · exact ⟨e, (hsame.error_iff hrefused).2 he⟩
    · exact ⟨_, hrefused⟩

/-! ### The emulator -/

theorem launch_fails_iff_find {c : EmulatorCommand} (hfile : g.isFile c.kernel = true) :
    (∃ e, g.find ⟨c.emulator, c.args, none⟩ = .error e) ↔
      (c.run.run g).1 = .error (.emulatorNotFound c.emulator) ∨
        ∃ e, (c.run.run g).1 = .error (.launch c.emulator e) := by
  obtain ⟨answer, hleads, hresult⟩ := leads_launch hfile
  have hanswers (e : SystemError) :
      answer = .error e ↔ g.find ⟨c.emulator, c.args, none⟩ = .error e :=
    hleads.answers _ List.mem_cons_self e
  simp only [← hanswers, hresult]
  cases answer with
  | ok status => simp [EmulatorCommand.verdict]
  | error e =>
    by_cases he : e = .notFound
    · simp [he, EmulatorCommand.verdict]
    · simp [EmulatorCommand.verdict_error he]

theorem needsRoom_emulatorArgs (c : EmulatorCommand) : NeedsRoom c.args := by
  refine needsRoom_cons "-machine" c.machine _ ?_
  have hbytes : "-machine".utf8ByteSize = 8 := by decide
  omega

theorem launch_fails_iff {c : EmulatorCommand} {as : List Attempt} (hg : h.Leads as g)
    (hemulator : c.emulator.toList.contains '\x00' = false)
    (hargs : ∀ arg ∈ c.args, arg.toList.contains '\x00' = false)
    (hfile : g.isFile c.kernel = true) :
    ((c.run.run g).1 = .error (.emulatorNotFound c.emulator) ∨
        ∃ e, (c.run.run g).1 = .error (.launch c.emulator e)) ↔
      Lacks h c.emulator ∨ h.Refuses ⟨c.emulator, c.args, none⟩ := by
  rw [← launch_fails_iff_find hfile]
  exact fails_iff hemulator hargs (needsRoom_emulatorArgs c) rfl (.inl rfl) hg

/-! ### The build program -/

theorem build_fails_iff_find {b : BuildCommand} {buildTarget : String} :
    (∃ e, g.find ⟨b.program, b.args buildTarget, some b.dir⟩ = .error e) ↔
      ∃ e, ((b.run buildTarget).run g).1 = .error (.toolchain b.program e) := by
  obtain ⟨answer, hleads, hresult⟩ := leads_build b buildTarget g
  have hanswers (e : SystemError) :
      answer = .error e ↔ g.find ⟨b.program, b.args buildTarget, some b.dir⟩ = .error e :=
    hleads.answers _ List.mem_cons_self e
  simp only [← hanswers, hresult]
  cases answer with
  | ok status =>
    unfold BuildCommand.verdict
    dsimp only
    split <;> simp
  | error e => simp [BuildCommand.verdict]

theorem needsRoom_buildArgs (b : BuildCommand) (buildTarget : String) :
    NeedsRoom (b.args buildTarget) :=
  needsRoom_cons "build" "--target" _ (by decide)

theorem build_fails_iff {b : BuildCommand} {as : List Attempt} {place : Location}
    {buildTarget : String} (hg : h.Leads as g)
    (hprogram : b.program.toList.contains '\x00' = false)
    (hargs : ∀ arg ∈ b.args buildTarget, arg.toList.contains '\x00' = false)
    (hlocate : h.tree.locate h.workDir b.dir = .ok place)
    (hdirectory : h.tree.get? place = some .directory)
    (hplace : place = h.workDir ∨ b.program.toList.contains '/' = false ∧ h.Anchored) :
    (∃ e, ((b.run buildTarget).run g).1 = .error (.toolchain b.program e)) ↔
      Lacks h b.program ∨ h.Refuses ⟨b.program, b.args buildTarget, some b.dir⟩ := by
  have hdir : h.childDir ⟨b.program, b.args buildTarget, some b.dir⟩ = .ok place := by
    unfold childDir
    dsimp only
    rw [hlocate]
    simp only [bind, Except.bind, hdirectory]
    rfl
  rw [← build_fails_iff_find]
  exact fails_iff hprogram hargs (needsRoom_buildArgs b buildTarget) hdir hplace hg

/-! ### The programs of a sweep -/

theorem course_sweep_onHost (s : Sweeper) (name : String) (h : Host) :
    ∃ n, s.Course name (s.killed name h).1 (s.answers name (s.killed name h).2)
      (fun k => ⟨k * Sweeper.probePause.micros⟩) s.probeLimit
      (some ((s.sweep name : HostM _).run h).1) n := by
  obtain ⟨n, hcourse, -⟩ := Sweeper.course_sweep (s.pausesLast_sceneOf name h) s name
    (s.killed name h).1 (s.answers name (s.killed name h).2)
  rw [s.waited_sceneOf] at hcourse
  have hresult := (s.alike_sweep name h).result
  exact ⟨n, hresult ▸ hcourse⟩

section Sweep

variable {s : Sweeper} {as : List Attempt} {e : SystemError}

theorem killed_error_iff : (s.killed name h).1 = .error e ↔ h.find (s.killCall name) = .error e :=
  (leads_runQuietly _ s.killer ["-f", Sweeper.patternFor name]).answers _ List.mem_cons_self e

theorem killed_eq (s : Sweeper) (name : String) (h : Host) :
    (s.killed name h).1 = ((start (s.killCall name)).run h).1.map Finished.status := by
  unfold Sweeper.killed
  rw [run_runQuietly]
  exact congrArg (·.map Finished.status) (Blind.start (s.killCall name) h _).1

theorem answers_error_iff (k : Nat) :
    s.answers name h k = .error e ↔ h.find (s.probeCall name) = .error e := by
  induction k generalizing h with
  | zero =>
    exact (leads_runQuietly h s.prober _).answers _ List.mem_cons_self e
  | succ k ih =>
    have hnext := (leads_runQuietly h s.prober ["-f", Sweeper.patternFor name]).trans
      (leads_pause _ Sweeper.probePause)
    rw [← hnext.find]
    exact ih

/-- A sweep that cannot run a program has asked for that program. -/
theorem spawn_of_course {kill : Except SystemError WaitStatus}
    {probes : Nat → Except SystemError WaitStatus} {waits : Nat → Duration} {fuel n : Nat}
    {program : String} {result : Except SweepError Swept}
    (h : s.Course name kill probes waits fuel (some result) n)
    (hresult : result = .error (.spawn program e)) :
    program = s.killer ∧ kill = .error e ∨ program = s.prober ∧ ∃ k, probes k = .error e := by
  cases h with
  | notStarted hkill =>
    cases hresult
    exact .inl ⟨rfl, hkill⟩
  | notProbed _ _ hprobe =>
    cases hresult
    exact .inr ⟨rfl, 0, hprobe⟩
  | failed => cases hresult
  | notSignalled => cases hresult
  | notFound => cases hresult
  | reached _ _ hawaits =>
    cases hawaits with
    | @decided k =>
      unfold Sweeper.verdict at hresult
      cases hprobe : probes k with
      | error found =>
        rw [hprobe] at hresult
        cases hresult
        exact .inr ⟨rfl, k, hprobe⟩
      | ok status =>
        rw [hprobe] at hresult
        dsimp only at hresult
        split at hresult <;> cases hresult

theorem contains_escape {cs : List Char} (h : cs.contains '\x00' = false) :
    (Sweeper.escape cs).contains '\x00' = false := by
  unfold Sweeper.escape
  rw [← Bool.not_eq_true, List.contains_iff_mem, List.mem_flatMap]
  rintro ⟨c, hc, hmem⟩
  have hne : '\x00' ≠ c := by
    rintro rfl
    rw [List.contains_iff_mem.2 hc] at h
    cases h
  split at hmem
  · rcases List.mem_pair.1 hmem with hslash | hself
    · cases hslash
    · exact hne hself
  · exact hne (List.mem_singleton.1 hmem)

theorem contains_patternArgs (hname : name.toList.contains '\x00' = false) :
    ∀ arg ∈ ["-f", Sweeper.patternFor name], arg.toList.contains '\x00' = false := by
  have hpattern : (Sweeper.patternFor name).toList.contains '\x00' = false := by
    have hstart : "^([^ ]*/)?".toList.contains '\x00' = false := by decide
    have hend : "( |$)".toList.contains '\x00' = false := by decide
    rw [Sweeper.toList_patternFor, List.contains_append, List.contains_append, hstart,
      contains_escape hname, hend]
    rfl
  exact List.forall_mem_cons.2 ⟨by decide, List.forall_mem_singleton.2 hpattern⟩

theorem needsRoom_patternArgs (name : String) : NeedsRoom ["-f", Sweeper.patternFor name] := by
  refine needsRoom_cons "-f" _ [] ?_
  have hstart : String.utf8Len "^([^ ]*/)?".toList = 10 := by decide
  unfold Sweeper.patternFor
  rw [String.utf8ByteSize_ofList (_ ++ _), String.utf8Len_append, String.utf8Len_append]
  omega

theorem patternCall_fails_iff {program : String} (hg : h.Leads as g)
    (hprogram : program.toList.contains '\x00' = false)
    (hname : name.toList.contains '\x00' = false) :
    (∃ e, g.find ⟨program, ["-f", Sweeper.patternFor name], none⟩ = .error e) ↔
      Lacks h program ∨ h.Refuses ⟨program, ["-f", Sweeper.patternFor name], none⟩ :=
  fails_iff hprogram (contains_patternArgs hname) (needsRoom_patternArgs name) rfl (.inl rfl) hg

theorem sweep_fails_iff_killer (hg : h.Leads as g)
    (hkiller : s.killer.toList.contains '\x00' = false)
    (hname : name.toList.contains '\x00' = false) (hne : s.killer ≠ s.prober) :
    (∃ e, ((s.sweep name : HostM _).run g).1 = .error (.spawn s.killer e)) ↔
      Lacks h s.killer ∨ h.Refuses (s.killCall name) := by
  obtain ⟨n, hcourse⟩ := course_sweep_onHost s name g
  refine Iff.trans ?_ (patternCall_fails_iff hg hkiller hname)
  apply exists_congr
  intro e
  constructor
  · intro he
    rcases spawn_of_course hcourse he with ⟨-, hkill⟩ | ⟨hsame, -⟩
    · exact killed_error_iff.1 hkill
    · exact absurd hsame hne
  · intro he
    obtain ⟨-, hresult⟩ := hcourse.outcome.not_started e (killed_error_iff.2 he)
    exact Option.some.inj hresult

/-- A sweep asks for the probe program only if the kill program ended with 0 or 1. -/
theorem sweep_fails_iff_prober {status : WaitStatus} (hg : h.Leads as g)
    (hprober : s.prober.toList.contains '\x00' = false)
    (hname : name.toList.contains '\x00' = false)
    (hkill : (s.killed name g).1 = .ok status)
    (hcode : status.code? = some 0 ∨ status.code? = some 1) :
    (∃ e, ((s.sweep name : HostM _).run g).1 = .error (.spawn s.prober e)) ↔
      Lacks h s.prober ∨ h.Refuses (s.probeCall name) := by
  obtain ⟨n, hcourse⟩ := course_sweep_onHost s name g
  have hkilled : g.Leads _ (s.killed name g).2 :=
    (leads_log g _).trans (leads_runQuietly _ s.killer ["-f", Sweeper.patternFor name])
  refine Iff.trans ?_ (patternCall_fails_iff (hg.trans hkilled) hprober hname)
  apply exists_congr
  intro e
  constructor
  · intro he
    rcases spawn_of_course hcourse he with ⟨-, hnot⟩ | ⟨-, k, hprobe⟩
    · cases hkill.symm.trans hnot
    · exact (answers_error_iff k).1 hprobe
  · intro he
    have hfirst := (answers_error_iff 0).2 he
    rcases hcode with hcode | hcode
    · have hends : ¬s.GoesOn (s.answers name (s.killed name g).2)
          (fun k => ⟨k * Sweeper.probePause.micros⟩) 0 := by
        rintro ⟨other, hother, -, -⟩
        rw [hfirst] at hother
        cases hother
      obtain ⟨-, hresult⟩ := hcourse.outcome.decided status hkill hcode 0 (Nat.succ_pos _)
        (by simp) hends
      rw [hfirst] at hresult
      exact Option.some.inj hresult
    · obtain ⟨-, hresult⟩ := hcourse.outcome.reached_nothing status hkill hcode
      rw [hfirst] at hresult
      exact Option.some.inj hresult

end Sweep

/-! ## The project -/

end Checkup

/-- The file that could not be loaded. -/
def LoadError.path : LoadError → Path
  | .unreadable path _ => path
  | .malformed path _ => path

theorem LoadError.About.path_eq {p : Path} {content : ByteArray} {e : LoadError}
    (h : e.About p content) : e.path = p := by
  cases h <;> rfl

theorem Path.name_eq_of_join_eq {p q : Path} {name name' : String} (hname : IsName name)
    (hname' : IsName name') (h : p.join ⟨name⟩ = q.join ⟨name'⟩) : name = name' := by
  have hcomponents := congrArg Path.components h
  rw [components_join_name p hname, components_join_name q hname'] at hcomponents
  have hlast := (List.append_inj' hcomponents rfl).2
  exact Component.name.inj (List.cons.inj hlast).1

namespace Checkup

variable {v : FileView} {dir : Path} {request : Request} {e : LoadError}

/-- Resolving fails, and the file that it fails to load is a manifest. -/
def FailsOnManifest (v : FileView) (dir : Path) (request : Request) (e : LoadError) : Prop :=
  Setup.resolve v dir request = .error (.load e) ∧ ∃ d : Path, e.path = d.join Manifest.fileName

theorem find_eq_error_iff (request : Request) :
    Manifest.find v dir = .error e ↔ FailsOnManifest v dir request e := by
  constructor
  · intro hfind
    refine ⟨?_, ?_⟩
    · apply Setup.resolve_of_find_error
      unfold Project.find
      rw [hfind]
      rfl
    · rcases Manifest.nearest_or_absent v dir with ⟨d, content, hnearest⟩ | habsent
      · rw [Manifest.find_of_nearest hnearest] at hfind
        cases hload : Manifest.load v (d.join Manifest.fileName) with
        | error found =>
          rw [hload] at hfind
          obtain rfl := Except.error.inj hfind
          exact ⟨d, (FileView.about_of_load hnearest.content hload).path_eq⟩
        | ok m =>
          rw [hload] at hfind
          cases hfind
      · rw [Manifest.find_of_absent habsent] at hfind
        cases hfind
  · rintro ⟨hresolve, d, hd⟩
    generalize herror : SetupError.load e = error at hresolve
    cases Setup.obstacle_of_resolve hresolve with
    | manifest nearest _ report =>
      obtain rfl := SetupError.load.inj herror
      rw [Manifest.find_of_nearest nearest, report]
      rfl
    | choice => cases herror
    | package _ _ _ file _ report =>
      obtain rfl := SetupError.load.inj herror
      have hpath := (FileView.about_of_load file report).path_eq
      have hnames := Path.name_eq_of_join_eq isName_packageFile Manifest.isName_fileName
        (hpath.symm.trans hd)
      exact absurd hnames (by decide)
    | unnamed => cases herror

theorem projectLines_error (e : LoadError) :
    projectLines (.error e) = "  hartctl.toml: error: " ++ Text.chained e.causes ++ "\n" := rfl

theorem projectLines_none : projectLines (.ok none) = "  hartctl.toml: not found\n" := rfl

theorem projectLines_found (m : Manifest) (d : Path) : ∃ rest,
    projectLines (.ok (some (m, d))) = "  hartctl.toml: found at " ++ d.text ++ "\n" ++ rest := by
  refine ⟨Text.labelled "Default arch: " m.defaults.arch ++
    Text.labelled "Kernel binary:" m.kernel.binary, ?_⟩
  rw [← String.append_assoc]
  rfl

/-- The letter after the name of the file tells which case it is. -/
theorem letter_append {start : String} {c : Char} (h : start.toList[16]? = some c) (rest : String) :
    (start ++ rest).toList[16]? = some c := by
  rw [String.toList_append, List.getElem?_append_left (List.getElem?_eq_some_iff.1 h).1, h]

theorem projectLines_cases (found : Except LoadError (Option (Manifest × Path))) :
    (∃ e, found = .error e) ∧ (projectLines found).toList[16]? = some 'e' ∨
    found = .ok none ∧ (projectLines found).toList[16]? = some 'n' ∨
    (∃ m d, found = .ok (some (m, d))) ∧ (projectLines found).toList[16]? = some 'f' := by
  match found with
  | .error e =>
    refine .inl ⟨⟨e, rfl⟩, ?_⟩
    rw [projectLines_error]
    exact letter_append (letter_append (by decide) _) _
  | .ok none => exact .inr (.inl ⟨rfl, by decide⟩)
  | .ok (some (m, d)) =>
    refine .inr (.inr ⟨⟨m, d, rfl⟩, ?_⟩)
    obtain ⟨rest, hrest⟩ := projectLines_found m d
    rw [hrest]
    exact letter_append (letter_append (letter_append (by decide) _) _) _

/-- The project's lines show an error, or say that there is no manifest, exactly if this is what a
session of the directory meets, and else they show the directory of the manifest that it uses. -/
theorem project_agrees (v : FileView) (dir : Path) (request : Request) :
    ((∃ report, projectLines (Manifest.find v dir) = "  hartctl.toml: error: " ++ report) ↔
      ∃ e, FailsOnManifest v dir request e) ∧
    (∀ e, FailsOnManifest v dir request e → projectLines (Manifest.find v dir) =
      "  hartctl.toml: error: " ++ Text.chained e.causes ++ "\n") ∧
    (projectLines (Manifest.find v dir) = "  hartctl.toml: not found\n" ↔
      Manifest.Absent v dir) ∧
    ((∀ e, ¬FailsOnManifest v dir request e) → ¬Manifest.Absent v dir →
      ∃ d rest, projectLines (Manifest.find v dir) =
          "  hartctl.toml: found at " ++ d.text ++ "\n" ++ rest ∧ d ∈ dir.ancestors ∧
        ∀ s, Setup.resolve v dir request = .ok s →
          s.manifestPath = some (d.join Manifest.fileName)) := by
  refine ⟨⟨?_, ?_⟩, ?_, ⟨?_, ?_⟩, ?_⟩
  · rintro ⟨report, hreport⟩
    have hletter : (projectLines (Manifest.find v dir)).toList[16]? = some 'e' := by
      rw [hreport]
      exact letter_append (by decide) report
    rcases projectLines_cases (Manifest.find v dir) with ⟨⟨e, he⟩, -⟩ | ⟨-, hn⟩ | ⟨-, hf⟩
    · exact ⟨e, (find_eq_error_iff request).1 he⟩
    · cases hn.symm.trans hletter
    · cases hf.symm.trans hletter
  · rintro ⟨e, he⟩
    rw [(find_eq_error_iff request).2 he, projectLines_error, String.append_assoc]
    exact ⟨_, rfl⟩
  · intro e he
    rw [(find_eq_error_iff request).2 he, projectLines_error]
  · intro hline
    have hletter : (projectLines (Manifest.find v dir)).toList[16]? = some 'n' := by
      rw [hline]
      decide
    rcases projectLines_cases (Manifest.find v dir) with ⟨-, he⟩ | ⟨hnone, -⟩ | ⟨-, hf⟩
    · cases he.symm.trans hletter
    · exact Manifest.find_eq_ok_none_iff.1 hnone
    · cases hf.symm.trans hletter
  · intro habsent
    rw [Manifest.find_of_absent habsent, projectLines_none]
  · intro hloads hpresent
    rcases projectLines_cases (Manifest.find v dir) with ⟨⟨e, he⟩, -⟩ | ⟨hnone, -⟩ | ⟨⟨m, d, hd⟩, -⟩
    · exact absurd ((find_eq_error_iff request).1 he) (hloads e)
    · exact absurd (Manifest.find_eq_ok_none_iff.1 hnone) hpresent
    · obtain ⟨rest, hrest⟩ := projectLines_found m d
      refine ⟨d, rest, hd ▸ hrest, (Manifest.findIn_some hd).1, ?_⟩
      intro s hs
      obtain ⟨p, target, binary, hp, -, -, rfl⟩ := Setup.resolve_eq_ok_iff.1 hs
      obtain ⟨found, hfound, rfl⟩ := map_eq_ok_iff.1 hp
      obtain rfl := Except.ok.inj (hd.symm.trans hfound)
      rfl

/-! ## The whole report -/

theorem run_perform_doctor {a : CommandLine.Arguments} (ha : a.command = .doctor) (dir : Path)
    (env : CommandLine.Environment) (h : Host) :
    (CommandLine.perform dir env a).run h = (.ok 0, ((report dir).run h).2) := by
  unfold CommandLine.perform
  dsimp only
  rw [ha]
  dsimp only
  rw [run_bind]
  generalize (report dir).run h = reported
  rfl

/-- A checkup always comes to an end, and its report says of each tool what it prints first, however
it ends, and of a tool that cannot be started that it is not found. Before and after the checkup the
other commands fail to start a tool exactly then, or if the system does not take the words of their
call: the emulator of a launch, the build program in a directory that makes no difference to the
search for it, and the two programs of a sweep as far as it comes to ask for them. The system takes
all words that are short enough and leave a reserve. -/
theorem report_agrees :
    (∀ h dir env a, a.command = .doctor →
      let r := (CommandLine.perform dir env a).run h
      r.1 = .ok 0 ∧ (∃ as, h.Leads as r.2) ∧ ∃ es, r.2.events = h.events ++ es ∧
        CommandLine.printedText es = String.join (reportTexts h dir)) ∧
    (∀ (h : Host) (name : String),
      (toolText h name = s!"  {name}: not found\n" ↔ Lacks h name ∨ SaysNotFound h name) ∧
      ∀ s, h.find ⟨name, ["--version"], none⟩ = .ok s → toolText h name =
        s!"  {name}: " ++ (Text.firstLine? (h.outputAt s.program)).getD "(unknown version)" ++
          "\n") ∧
    (∀ h g as, h.Leads as g →
      (∀ (a : Isa) (c : EmulatorCommand), c.emulator = a.emulator → g.isFile c.kernel = true →
        (∀ arg ∈ c.args, arg.toList.contains '\x00' = false) →
        (((c.run.run g).1 = .error (.emulatorNotFound a.emulator) ∨
            ∃ e, (c.run.run g).1 = .error (.launch a.emulator e)) ↔
          Lacks h a.emulator ∨ h.Refuses ⟨a.emulator, c.args, none⟩)) ∧
      (∀ (b : BuildCommand) (buildTarget : String) (place : Location), b.program = "cargo" →
        (∀ arg ∈ b.args buildTarget, arg.toList.contains '\x00' = false) →
        h.tree.locate h.workDir b.dir = .ok place → h.tree.get? place = some .directory →
        place = h.workDir ∨ h.Anchored →
        ((∃ e, ((b.run buildTarget).run g).1 = .error (.toolchain "cargo" e)) ↔
          Lacks h "cargo" ∨ h.Refuses ⟨"cargo", b.args buildTarget, some b.dir⟩)) ∧
      ∀ (settleTimeout : Duration) (name : String), name.toList.contains '\x00' = false →
        let swept := (({ settleTimeout } : Sweeper).sweep name : HostM _).run g
        let args := ["-f", Sweeper.patternFor name]
        ((∃ e, swept.1 = .error (.spawn "pkill" e)) ↔
          Lacks h "pkill" ∨ h.Refuses ⟨"pkill", args, none⟩) ∧
        ∀ finished, ((start ⟨"pkill", args, none⟩).run g).1 = .ok finished →
          finished.status.code? = some 0 ∨ finished.status.code? = some 1 →
          ((∃ e, swept.1 = .error (.spawn "pgrep" e)) ↔
            Lacks h "pgrep" ∨ h.Refuses ⟨"pgrep", args, none⟩)) ∧
    (∀ (h : Host) (i : Invocation), h.Accepts i.program i.args → ¬h.Refuses i) ∧
    ∀ v dir request,
      ((∃ report, projectLines (Manifest.find v dir) = "  hartctl.toml: error: " ++ report) ↔
        ∃ e, FailsOnManifest v dir request e) ∧
      (∀ e, FailsOnManifest v dir request e → projectLines (Manifest.find v dir) =
        "  hartctl.toml: error: " ++ Text.chained e.causes ++ "\n") ∧
      (projectLines (Manifest.find v dir) = "  hartctl.toml: not found\n" ↔
        Manifest.Absent v dir) ∧
      ((∀ e, ¬FailsOnManifest v dir request e) → ¬Manifest.Absent v dir →
        ∃ d rest, projectLines (Manifest.find v dir) =
            "  hartctl.toml: found at " ++ d.text ++ "\n" ++ rest ∧ d ∈ dir.ancestors ∧
          ∀ s, Setup.resolve v dir request = .ok s →
            s.manifestPath = some (d.join Manifest.fileName)) := by
  refine ⟨?_, ?_, ?_, fun h i => Accepts.not_refuses, project_agrees⟩
  · intro h dir env a ha
    obtain ⟨hmoved, hprinted⟩ := tells_report h dir h (.refl h)
    rw [run_perform_doctor ha]
    dsimp only
    exact ⟨rfl, hmoved.leads, hprinted⟩
  · intro h name
    refine ⟨toolText_eq_notFound_iff, ?_⟩
    intro s hs
    unfold toolText
    rw [hs]
  · intro h g as hg
    refine ⟨?_, ?_, ?_⟩
    · intro a c hemulator hfile hargs
      have hnul : a.emulator.toList.contains '\x00' = false := by
        cases a with
        | rv32 => decide
        | rv64 => decide
      rw [← hemulator] at hnul ⊢
      exact launch_fails_iff hg hnul hargs hfile
    · intro b buildTarget place hprogram hargs hlocate hdirectory hplace
      rw [← hprogram]
      refine build_fails_iff hg ?_ hargs hlocate hdirectory (hplace.imp id ?_)
      · rw [hprogram]
        decide
      · intro hanchored
        rw [hprogram]
        exact ⟨by decide, hanchored⟩
    · intro settleTimeout name hname swept args
      have hne : "pkill" ≠ "pgrep" := by decide
      have hkiller : "pkill".toList.contains '\x00' = false := by decide
      have hprober : "pgrep".toList.contains '\x00' = false := by decide
      refine ⟨sweep_fails_iff_killer (s := { settleTimeout }) hg hkiller hname hne, ?_⟩
      intro finished hstart hcode
      refine sweep_fails_iff_prober (s := { settleTimeout }) hg hprober hname ?_ hcode
      rw [killed_eq]
      exact congrArg (·.map Finished.status) hstart

/-- A host whose directory `/bin` holds these tools. -/
def toolHost (searchPath : List Path) (tools : List (String × Script)) : Host where
  tree := ⟨(["bin"], .directory) :: (["w"], .directory) ::
    tools.map fun tool => (["bin", tool.1], .file ⟨#[]⟩ true)⟩
  searchPath := searchPath
  scripts := tools.map fun tool => (["bin", tool.1], tool.2)

theorem anchored_toolHost {searchPath : List Path}
    (h : ∀ dir ∈ searchPath, dir.isAbsolute = true) (tools : List (String × Script)) :
    (toolHost searchPath tools).Anchored := by
  refine ⟨h, ?_⟩
  intro place content i hget hinterpreter
  have hcontent : content = ⟨#[]⟩ := by
    unfold FileTree.get? at hget
    split at hget
    · cases hget
    · obtain ⟨before, after, hentries, -⟩ := List.lookup_eq_some_iff.1 hget
      have hmem : (place, Entry.file content true) ∈ (toolHost searchPath tools).tree.entries := by
        rw [hentries]
        simp
      simp only [toolHost, List.mem_cons, List.mem_map, Prod.mk.injEq] at hmem
      rcases hmem with ⟨-, hfile⟩ | ⟨-, hfile⟩ | ⟨tool, -, -, hfile⟩
      · cases hfile
      · cases hfile
      · cases hfile
        rfl
  rw [hcontent] at hinterpreter
  cases hinterpreter

theorem report_agrees_sample :
    let h := toolHost [⟨"/bin"⟩] [("cargo", {}), ("pkill", { endings := [.exited 1] })]
    let launch := (BootPlan.mk {} ⟨"/bin/cargo"⟩ {}).command.run.run h
    let build := (({ dir := ⟨"/w"⟩ } : BuildCommand).run "t").run h
    let sweep := (({} : Sweeper).sweep "qemu-system-riscv64" : HostM _).run h
    ((CommandLine.perform ⟨"/"⟩ {} ⟨.doctor, {}, false, 0, none, []⟩).run h).1 = .ok 0 ∧
      toolText h "qemu-system-riscv64" = "  qemu-system-riscv64: not found\n" ∧
      (launch.1 = .error (.emulatorNotFound "qemu-system-riscv64") ∨
        ∃ e, launch.1 = .error (.launch "qemu-system-riscv64" e)) ∧
      toolText h "cargo" = "  cargo: (unknown version)\n" ∧
      (¬∃ e, build.1 = .error (.toolchain "cargo" e)) ∧
      (¬∃ e, sweep.1 = .error (.spawn "pkill" e)) ∧ ∃ e, sweep.1 = .error (.spawn "pgrep" e) := by
  intro h launch build sweep
  obtain ⟨hdoctor, htools, hcommands, haccepts, -⟩ := report_agrees
  obtain ⟨hlaunch, hbuild, hsweep⟩ := hcommands h h [] (.refl h)
  have hqemu : Lacks h "qemu-system-riscv64" := ⟨.notFound, rfl⟩
  have hfind : h.find ⟨"cargo", ["--version"], none⟩ =
      .ok ⟨["bin", "cargo"], ["--version"], []⟩ := rfl
  have hcargo : ¬Lacks h "cargo" := by
    rintro ⟨e, he⟩
    cases hfind.symm.trans he
  have hpkill : ¬Lacks h "pkill" := by
    have hfound : h.find ⟨"pkill", ["--version"], none⟩ =
        .ok ⟨["bin", "pkill"], ["--version"], []⟩ := rfl
    rintro ⟨e, he⟩
    cases hfound.symm.trans he
  have hpgrep : Lacks h "pgrep" := ⟨.notFound, rfl⟩
  have hanchored : h.Anchored := anchored_toolHost (by decide) _
  have hbuildTaken :
      ¬h.Refuses ⟨"cargo", ({ dir := ⟨"/w"⟩ } : BuildCommand).args "t", some ⟨"/w"⟩⟩ :=
    haccepts h _ (by decide)
  have hkillTaken : ¬h.Refuses ⟨"pkill", ["-f", Sweeper.patternFor "qemu-system-riscv64"], none⟩ :=
    haccepts h _ (by decide)
  obtain ⟨hkiller, hprober⟩ :=
    hsweep Duration.usualSettleTime "qemu-system-riscv64" (by decide)
  refine ⟨(hdoctor h ⟨"/"⟩ {} _ rfl).1, (htools h _).1.2 (.inl hqemu), ?_, ?_, ?_, ?_, ?_⟩
  · exact (hlaunch .rv64 (BootPlan.mk {} ⟨"/bin/cargo"⟩ {}).command rfl (by decide) (by decide)).2
      (.inl hqemu)
  · exact (htools h "cargo").2 _ hfind
  · intro hfails
    have hcause := (hbuild _ "t" ["w"] rfl (by decide) rfl rfl (.inr hanchored)).1 hfails
    exact hcause.elim hcargo hbuildTaken
  · exact fun hfails => (hkiller.1 hfails).elim hpkill hkillTaken
  · exact (hprober ⟨.exited 1, ""⟩ rfl (.inr (by decide))).2 (.inl hpgrep)

/-! What the report leaves out: a tool may say that it is not found, the build program is looked for
in the directory of the build, a launch may be refused for one of its arguments or for all of them
together, and a sweep stops at the first program that it cannot run. -/

def wideWord (n : Nat) : String := String.ofList (List.replicate n 'a')

theorem utf8ByteSize_wideWord (n : Nat) : (wideWord n).utf8ByteSize = n := by
  unfold wideWord
  rw [String.utf8ByteSize_ofList]
  induction n with
  | zero => rfl
  | succ n ih =>
    rw [List.replicate_succ, String.utf8Len_cons, ih]
    rfl

theorem contains_wideWord (n : Nat) : (wideWord n).toList.contains '\x00' = false := by
  unfold wideWord
  rw [String.toList_ofList, List.contains_replicate]
  simp

/-- A launch with these arguments besides the usual ones. -/
def wordyPlan (extraArgs : List String) : BootPlan :=
  ⟨{}, ⟨"/bin/qemu-system-riscv64"⟩, { extraArgs }⟩

theorem args_wordyPlan (extraArgs : List String) :
    (wordyPlan extraArgs).command.args = (wordyPlan []).command.args ++ extraArgs := by
  have husual : (wordyPlan []).command.args = ["-machine", "virt", "-smp", "4", "-nographic",
    "-serial", "mon:stdio", "-kernel", "/bin/qemu-system-riscv64"] := rfl
  rw [husual]
  rfl

theorem contains_wordyPlan {n m : Nat} :
    ∀ arg ∈ (wordyPlan (List.replicate n (wideWord m))).command.args,
      arg.toList.contains '\x00' = false := by
  have husual : ∀ arg ∈ (wordyPlan []).command.args, arg.toList.contains '\x00' = false := by
    decide
  intro arg harg
  rw [args_wordyPlan] at harg
  rcases List.mem_append.1 harg with harg | harg
  · exact husual arg harg
  · rw [List.eq_of_mem_replicate harg]
    exact contains_wideWord m

theorem report_misleads :
    let loud := toolHost [⟨"/bin"⟩] [("cargo", { output := "not found\n", endings := [.exited 1] })]
    let relative := toolHost [⟨"bin"⟩] [("cargo", {})]
    let emulator := toolHost [⟨"/bin"⟩] [("qemu-system-riscv64", {})]
    let long := wordyPlan (List.replicate 1 (wideWord argumentLimit))
    let many := wordyPlan (List.replicate 16 (wideWord (argumentLimit - 1)))
    (toolText loud "cargo" = "  cargo: not found\n" ∧
      ((({ dir := ⟨"/"⟩ } : BuildCommand).run "t").run loud).1 =
        .error (.buildFailed "t" (some 1))) ∧
    (toolText relative "cargo" = "  cargo: (unknown version)\n" ∧
      ((({ dir := ⟨"/w"⟩ } : BuildCommand).run "t").run relative).1 =
        .error (.toolchain "cargo" .notFound)) ∧
    (toolText emulator "qemu-system-riscv64" = "  qemu-system-riscv64: (unknown version)\n" ∧
      (∀ arg ∈ many.command.args, arg.utf8ByteSize < argumentLimit) ∧
      ∀ plan ∈ [long, many], plan.command.emulator = "qemu-system-riscv64" ∧
        emulator.isFile plan.command.kernel = true ∧
        (∀ arg ∈ plan.command.args, arg.toList.contains '\x00' = false) ∧
        ((plan.command.run.run emulator).1 = .error (.emulatorNotFound plan.command.emulator) ∨
          ∃ e, (plan.command.run.run emulator).1 = .error (.launch plan.command.emulator e))) ∧
    toolText {} "pgrep" = "  pgrep: not found\n" ∧
      ((({} : Sweeper).sweep "qemu-system-riscv64" : HostM _).run {}).1 =
        .error (.spawn "pkill" .notFound) := by
  intro loud relative emulator long many
  have hloud : loud.find ⟨"cargo", ["--version"], none⟩ =
      .ok ⟨["bin", "cargo"], ["--version"], []⟩ := rfl
  refine ⟨⟨?_, by decide⟩, ⟨rfl, rfl⟩, ⟨rfl, ?_, ?_⟩, rfl, rfl⟩
  · exact toolText_eq_notFound_iff.2 (.inr ⟨_, hloud, by decide⟩)
  · have husual : ∀ arg ∈ (wordyPlan []).command.args, arg.utf8ByteSize < argumentLimit := by
      decide
    intro arg harg
    rw [args_wordyPlan] at harg
    rcases List.mem_append.1 harg with harg | harg
    · exact husual arg harg
    · rw [List.eq_of_mem_replicate harg, utf8ByteSize_wideWord]
      decide
  · intro plan hplan
    rcases List.mem_pair.1 hplan with rfl | rfl
    · have hlong : ∃ arg ∈ long.command.args, argumentLimit ≤ arg.utf8ByteSize := by
        refine ⟨wideWord argumentLimit, ?_, (utf8ByteSize_wideWord _).ge⟩
        rw [args_wordyPlan]
        exact List.mem_append_right _ List.mem_cons_self
      exact ⟨rfl, by decide, contains_wordyPlan,
        (launch_fails_iff_find (by decide)).1 (find_of_long hlong)⟩
    · have hroom : emulator.argumentRoom = 16 * (argumentLimit - 1 + 1) := by decide
      have hmany : emulator.argumentRoom ≤ wordBytes many.command.args := by
        rw [args_wordyPlan, wordBytes_append, wordBytes_replicate, utf8ByteSize_wideWord, hroom]
        exact Nat.le_add_left _ _
      exact ⟨rfl, by decide, contains_wordyPlan,
        (launch_fails_iff_find (by decide)).1 (find_of_many hmany)⟩

end Checkup

end RiscvBoot
