import RiscvBoot.Proofs.Command.Files
import RiscvBoot.Proofs.Command.Init

/-!
# A sequence of commands

A `Turn` is one command given in some directory, and a session is any number of them, one after the
other on the same host. Each turn puts a template where nothing was, or leaves the tree as it is
(`Turn.step_cases`). So a session only adds templates, where an existing directory had no manifest,
and no later turn touches them (`CommandLine.session_adds_templates`).
-/

set_option autoImplicit false

namespace RiscvBoot.CommandLine

open Host

/-- One command: the directory it is given in, as the system and as the command know it, and what it
is given. -/
structure Turn where
  workDir : Location
  dir : Path
  env : Environment
  args : Arguments

namespace Turn

/-- What the command answers, and the host after it. -/
def step (u : Turn) (h : Host) : Except CommandError Int × Host :=
  (perform u.dir u.env u.args).run { h with workDir := u.workDir }

/-- The path of the manifest leads here. -/
def LeadsTo (u : Turn) (t : FileTree) (place : Location) : Prop :=
  t.locate u.workDir (u.dir.join Manifest.fileName) = .ok place

/-- The command starts a project and succeeds, and this is the place of its manifest. -/
structure Plants (u : Turn) (h : Host) (place : Location) : Prop where
  command : u.args.command = .init
  answer : (u.step h).1 = .ok 0
  leads : u.LeadsTo h.tree place

variable {u : Turn} {h : Host} {place : Location}

theorem step_of_init (hu : u.args.command = .init) :
    u.step h = (((Command.init u.dir).run { h with workDir := u.workDir }).1.map fun () => 0,
      ((Command.init u.dir).run { h with workDir := u.workDir }).2) := by
  unfold step perform
  rw [hu]
  rfl

theorem step_init_cases (hu : u.args.command = .init) (h : Host) :
    (∃ place, u.LeadsTo h.tree place ∧ h.tree.get? place = none ∧ (u.step h).1 = .ok 0 ∧
      (u.step h).2.tree = h.tree.put place Manifest.templateEntry) ∨
    (¬∃ place, u.LeadsTo h.tree place ∧ h.tree.get? place = none) ∧
      (∃ e, (u.step h).1 = .error e) ∧ (u.step h).2.tree = h.tree := by
  rw [step_of_init hu]
  rcases Command.init_cases u.dir { h with workDir := u.workDir } with
    ⟨place, hroom, hrun⟩ | ⟨hnone, e, hrun⟩
  · rw [hrun]
    exact .inl ⟨place, hroom.locate, hroom.free, rfl, rfl⟩
  · rw [hrun]
    refine .inr ⟨?_, ⟨e, rfl⟩, rfl⟩
    rintro ⟨place, hlocate, hfree⟩
    exact hnone ⟨place, hlocate, hfree⟩

/-- A turn puts a template where nothing was, or leaves the tree as it is. -/
theorem step_cases (u : Turn) (h : Host) :
    (∃ place, u.Plants h place ∧ h.tree.get? place = none ∧
      (u.step h).2.tree = h.tree.put place Manifest.templateEntry) ∨
    (∀ place, ¬u.Plants h place) ∧ (u.step h).2.tree = h.tree := by
  by_cases hu : u.args.command = .init
  · rcases step_init_cases hu h with ⟨place, hleads, hfree, hok, htree⟩ | ⟨-, ⟨e, he⟩, htree⟩
    · exact .inl ⟨place, ⟨hu, hok, hleads⟩, hfree, htree⟩
    · refine .inr ⟨?_, htree⟩
      intro place hplants
      cases he.symm.trans hplants.answer
  · refine .inr ⟨fun place hplants => hu hplants.command, ?_⟩
    have hview : (u.step h).2.toFileView = ⟨h.tree, u.workDir⟩ := leavesFiles_perform hu _ _ _
    rw [hview]

theorem LeadsTo.unique {t : FileTree} {there : Location} (h : u.LeadsTo t place)
    (h' : u.LeadsTo t there) : place = there :=
  Except.ok.inj (h.symm.trans h')

theorem sameDirectories_step (u : Turn) (h : Host) :
    FileTree.SameDirectories h.tree (u.step h).2.tree := by
  rcases u.step_cases h with ⟨place, -, hfree, htree⟩ | ⟨-, htree⟩
  · rw [htree]
    exact (FileTree.alikeBut_put (by rw [hfree]; simp)).sameDirectories
  · rw [htree]
    exact .refl _

/-- What is there stays there. -/
theorem get?_step {e : Entry} (he : h.tree.get? place = some e) :
    (u.step h).2.tree.get? place = some e := by
  rcases u.step_cases h with ⟨there, -, hfree, htree⟩ | ⟨-, htree⟩
  · have hne : place ≠ there := by
      rintro rfl
      rw [hfree] at he
      cases he
    rw [htree, FileTree.get?_put_of_ne hne, he]
  · rw [htree, he]

end Turn

/-! ## Sessions -/

variable {h : Host} {us : List Turn} {place : Location}

/-- The host after a session. -/
def after (h : Host) (us : List Turn) : Host := us.foldl (fun h u => (u.step h).2) h

/-- Some turn of the session puts a template here. -/
def Planted (h : Host) (us : List Turn) (place : Location) : Prop :=
  ∃ before u later, us = before ++ u :: later ∧ u.Plants (after h before) place

theorem planted_cons {u : Turn} :
    Planted h (u :: us) place ↔ u.Plants h place ∨ Planted (u.step h).2 us place := by
  constructor
  · rintro ⟨before, w, later, hsplit, hplants⟩
    cases before with
    | nil =>
      cases hsplit
      exact .inl hplants
    | cons x before =>
      cases hsplit
      exact .inr ⟨before, w, later, rfl, hplants⟩
  · rintro (hplants | ⟨before, w, later, rfl, hplants⟩)
    · exact ⟨[], u, us, rfl, hplants⟩
    · exact ⟨u :: before, w, later, rfl, hplants⟩

theorem sameDirectories_after (h : Host) (us : List Turn) :
    FileTree.SameDirectories h.tree (after h us).tree := by
  induction us generalizing h with
  | nil => exact .refl _
  | cons u us ih => exact (u.sameDirectories_step h).trans (ih (u.step h).2)

theorem get?_after {e : Entry} (he : h.tree.get? place = some e) (us : List Turn) :
    (after h us).tree.get? place = some e := by
  induction us generalizing h with
  | nil => exact he
  | cons u us ih => exact ih (Turn.get?_step he)

theorem leadsTo_after {u : Turn} (h : Host) (us : List Turn) :
    u.LeadsTo (after h us).tree place ↔ u.LeadsTo h.tree place :=
  (sameDirectories_after h us).locate

theorem get?_of_planted (hplanted : Planted h us place) :
    h.tree.get? place = none ∧ (after h us).tree.get? place = some Manifest.templateEntry := by
  induction us generalizing h with
  | nil =>
    obtain ⟨before, u, later, hsplit, -⟩ := hplanted
    simp at hsplit
  | cons u us ih =>
    rcases planted_cons.1 hplanted with hplants | hlater
    · rcases u.step_cases h with ⟨there, hthere, hfree, htree⟩ | ⟨hnone, -⟩
      · obtain rfl := hplants.leads.unique hthere.leads
        refine ⟨hfree, get?_after ?_ us⟩
        rw [htree, FileTree.get?_put_self (Manifest.ne_root_of_locate hplants.leads)]
      · exact absurd hplants (hnone place)
    · obtain ⟨hfree, hfinal⟩ := ih hlater
      refine ⟨?_, hfinal⟩
      cases he : h.tree.get? place with
      | none => rfl
      | some e =>
        rw [Turn.get?_step he] at hfree
        cases hfree

theorem get?_of_not_planted (hplanted : ¬Planted h us place) :
    (after h us).tree.get? place = h.tree.get? place := by
  induction us generalizing h with
  | nil => rfl
  | cons u us ih =>
    obtain ⟨hplants, hlater⟩ := not_or.1 (planted_cons.not.1 hplanted)
    refine (ih hlater).trans ?_
    rcases u.step_cases h with ⟨there, hthere, -, htree⟩ | ⟨-, htree⟩
    · have hne : place ≠ there := by
        rintro rfl
        exact hplants hthere
      rw [htree, FileTree.get?_put_of_ne hne]
    · rw [htree]

/-- Once a template is there, it is the manifest of its directory, and no project is started there
again. -/
theorem Turn.Plants.settled {u : Turn} (hplants : u.Plants h place) (us : List Turn) :
    Manifest.find ⟨(after (u.step h).2 us).tree, u.workDir⟩ u.dir =
        .ok (some (Manifest.ofTemplate, u.dir)) ∧
      ∀ w : Turn, w.args.command = .init → w.LeadsTo h.tree place →
        (w.step (after (u.step h).2 us)).1 =
          .error (.alreadyExists (w.dir.join Manifest.fileName)) := by
  have hsame := (u.sameDirectories_step h).trans (sameDirectories_after (u.step h).2 us)
  have hentry : (after (u.step h).2 us).tree.get? place = some Manifest.templateEntry := by
    have hplanted : Planted h (u :: us) place := ⟨[], u, us, rfl, hplants⟩
    exact (get?_of_planted hplanted).2
  constructor
  · exact Manifest.find_of_templateEntry (hsame.locate.2 hplants.leads) hentry
  · intro w hw hleads
    have hfound : FileView.entry ⟨(after (u.step h).2 us).tree, w.workDir⟩
        (w.dir.join Manifest.fileName) = .ok Manifest.templateEntry :=
      FileView.entry_eq_ok_iff.2 ⟨place, hsame.locate.2 hleads, hentry⟩
    have hoccupied : FileView.isOccupied ⟨(after (u.step h).2 us).tree, w.workDir⟩
        (w.dir.join Manifest.fileName) = true := by
      unfold FileView.isOccupied
      rw [hfound]
    rw [Turn.step_of_init hw, Command.run_init, if_pos hoccupied]
    rfl

/-- A session adds a template in each directory in which it has started a project, and changes
nothing else. -/
theorem session_adds_templates (h : Host) (us : List Turn) :
    (∀ place, Planted h us place →
      (∃ dir, place = dir ++ ["hartctl.toml"] ∧ h.tree.get? dir = some .directory) ∧
      h.tree.get? place = none ∧
      (after h us).tree.get? place = some (.file Manifest.template.toUTF8 false)) ∧
    (∀ place, ¬Planted h us place → (after h us).tree.get? place = h.tree.get? place) ∧
    (∀ place e, h.tree.get? place = some e → (after h us).tree.get? place = some e) ∧
    (∀ before u later, us = before ++ u :: later →
      let k := after h before
      (∀ e, (u.step k).1 = .error e → (u.step k).2.tree = k.tree) ∧
      (u.args.command ≠ .init → (u.step k).2.tree = k.tree) ∧
      (u.args.command = .init →
        ((u.step k).1 = .ok 0 ∨ ∃ e, (u.step k).1 = .error e) ∧
        ((u.step k).1 = .ok 0 ↔ ∃ place, u.LeadsTo h.tree place ∧ k.tree.get? place = none) ∧
        ((u.step k).1 = .ok 0 →
          (∀ e, FileView.entry ⟨k.tree, u.workDir⟩ (u.dir.join Manifest.fileName) ≠ .ok e) ∧
          ∃ place, u.LeadsTo h.tree place ∧ Planted h us place ∧
            ∀ middle rest, later = middle ++ rest →
              Manifest.find ⟨(after (u.step k).2 middle).tree, u.workDir⟩ u.dir =
                .ok (some (Manifest.ofTemplate, u.dir)) ∧
              ∀ w : Turn, w.args.command = .init → w.LeadsTo h.tree place →
                (w.step (after (u.step k).2 middle)).1 =
                  .error (.alreadyExists (w.dir.join Manifest.fileName))))) ∧
    ∀ env args, ((run env args).run h).2.tree = match read env args with
      | .ok a => ((Turn.mk h.workDir h.workDir.toPath env a).step h).2.tree
      | .error _ => h.tree := by
  refine ⟨?_, ?_, ?_, ?_, ?_⟩
  · intro place hplanted
    refine ⟨?_, get?_of_planted hplanted⟩
    obtain ⟨before, u, later, -, hplants⟩ := hplanted
    obtain ⟨dir, hplace, hdir, -⟩ :=
      FileTree.locate_join_name Manifest.isName_fileName hplants.leads
    exact ⟨dir, hplace, (sameDirectories_after h before dir).1 hdir⟩
  · intro place hplanted
    exact get?_of_not_planted hplanted
  · intro place e he
    exact get?_after he us
  · intro before u later hsplit k
    refine ⟨?_, ?_, ?_⟩
    · intro e he
      rcases u.step_cases k with ⟨place, hplants, -, -⟩ | ⟨-, htree⟩
      · cases he.symm.trans hplants.answer
      · exact htree
    · intro hu
      rcases u.step_cases k with ⟨place, hplants, -, -⟩ | ⟨-, htree⟩
      · exact absurd hplants.command hu
      · exact htree
    · intro hu
      rcases Turn.step_init_cases hu k with ⟨place, hleads, hfree, hok, -⟩ | ⟨hnone, ⟨e, he⟩, -⟩
      · have hleads' := (leadsTo_after h before).1 hleads
        refine ⟨.inl hok, ⟨fun _ => ⟨place, hleads', hfree⟩, fun _ => hok⟩, fun _ => ?_⟩
        refine ⟨?_, place, hleads', ⟨before, u, later, hsplit, hu, hok, hleads⟩, ?_⟩
        · intro e he
          obtain ⟨here, hhere, hentry⟩ := FileView.entry_eq_ok_iff.1 he
          obtain rfl := hleads.unique hhere
          cases hfree.symm.trans hentry
        · intro middle rest _
          obtain ⟨hfind, hagain⟩ := Turn.Plants.settled ⟨hu, hok, hleads⟩ middle
          exact ⟨hfind, fun w hw hw' => hagain w hw ((leadsTo_after h before).2 hw')⟩
      · have hnot : (u.step k).1 ≠ .ok 0 := by
          rw [he]
          nofun
        refine ⟨.inr ⟨e, he⟩, ⟨fun hok => absurd hok hnot, ?_⟩, fun hok => absurd hok hnot⟩
        rintro ⟨place, hleads, hfree⟩
        exact absurd ⟨place, (leadsTo_after h before).2 hleads, hfree⟩ hnone
  · intro env args
    cases hread : read env args with
    | error stop =>
      unfold run
      rw [hread]
      rfl
    | ok a =>
      obtain ⟨out, err, hrun⟩ := run_of_read hread h
      rw [hrun]
      rfl

def initTurn : Turn where
  workDir := ["w"]
  dir := ⟨"/w"⟩
  env := {}
  args := ⟨.init, {}, false, 0, none, []⟩

/-- A project is started twice in one directory. -/
theorem session_adds_templates_sample :
    (initTurn.step packageHost).1 = .ok 0 ∧
      (initTurn.step (initTurn.step packageHost).2).1 =
        .error (.alreadyExists ⟨"/w/hartctl.toml"⟩) ∧
      (after packageHost [initTurn, initTurn]).tree.get? ["w"] = some .directory ∧
      (after packageHost [initTurn, initTurn]).tree.get? ["w", "hartctl.toml"] =
        some (.file Manifest.template.toUTF8 false) := by
  obtain ⟨hplanted, -, hkept, hturns, -⟩ :=
    session_adds_templates packageHost [initTurn, initTurn]
  obtain ⟨-, -, hinit⟩ := hturns [] initTurn [initTurn] rfl
  obtain ⟨-, hiff, hsettled⟩ := hinit rfl
  have hok := hiff.2 ⟨_, Manifest.hasRoom_packageHost.locate, rfl⟩
  obtain ⟨-, place, hleads, hplace, hlater⟩ := hsettled hok
  obtain rfl := hleads.unique Manifest.hasRoom_packageHost.locate
  refine ⟨hok, ?_, hkept _ _ rfl, (hplanted _ hplace).2.2⟩
  exact (hlater [] [initTurn] rfl).2 initTurn rfl hleads

end RiscvBoot.CommandLine
