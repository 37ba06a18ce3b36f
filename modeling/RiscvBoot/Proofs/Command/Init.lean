import RiscvBoot.Proofs.Manifest.Template

/-!
# Starting a project

The command that starts a project either writes one file where nothing was, or it fails and leaves
the host as it is (`Command.init_cases`). The manifest that it writes says what holds without any
manifest, so everything resolves as before (`Command.init_keeps_meaning`).
-/

set_option autoImplicit false

namespace RiscvBoot

open Host

variable {d : Path} {h g : Host} {place : Location}

/-! ## The file that is written -/

theorem FileView.writeText_join {v : FileView} {name text : String} {t : FileTree}
    (hname : Path.IsName name) (hfree : v.isOccupied (d.join ⟨name⟩) = false) :
    v.writeText (d.join ⟨name⟩) text = .ok t ↔
      ∃ place, v.tree.locate v.workDir (d.join ⟨name⟩) = .ok place ∧ v.tree.get? place = none ∧
        t = v.tree.put place (.file text.toUTF8 false) := by
  obtain ⟨hslashes, hlast⟩ := d.withoutEndSlashes_join hname
  unfold writeText writeBytes
  rw [hslashes, bind_eq_ok_iff]
  apply exists_congr
  intro place
  apply and_congr_right
  intro hplace
  have hnone : v.tree.get? place = none := by
    cases hentry : v.tree.get? place with
    | none => rfl
    | some e =>
      have hfound : v.entry (d.join ⟨name⟩) = .ok e := entry_eq_ok_iff.2 ⟨place, hplace, hentry⟩
      exact (isOccupied_eq_false_iff.1 hfree e hfound).elim
  rw [if_neg hlast, hnone]
  constructor
  · intro hput
    exact ⟨rfl, (Except.ok.inj hput).symm⟩
  · rintro ⟨-, rfl⟩
    rfl

namespace Manifest

def templateEntry : Entry := .file template.toUTF8 false

/-- The manifest of a directory would be at this place, and nothing is there. -/
structure HasRoom (v : FileView) (d : Path) (place : Location) : Prop where
  locate : v.tree.locate v.workDir (d.join fileName) = .ok place
  free : v.tree.get? place = none

theorem HasRoom.isOccupied {v : FileView} (hroom : HasRoom v d place) :
    v.isOccupied (d.join fileName) = false := by
  rw [FileView.isOccupied_eq_false_iff]
  intro e he
  obtain ⟨here, hhere, hentry⟩ := FileView.entry_eq_ok_iff.1 he
  obtain rfl := Except.ok.inj (hhere.symm.trans hroom.locate)
  rw [hroom.free] at hentry
  cases hentry

end Manifest

namespace Command

/-- The host with the template at a place, and with the line that says so. -/
def planted (h : Host) (d : Path) (place : Location) : Host :=
  { h with
    tree := h.tree.put place Manifest.templateEntry
    events := h.events ++ [.printed s!"Created {(d.join Manifest.fileName).text}\n"] }

theorem run_init (d : Path) (h : Host) : (init d).run h =
    if h.isOccupied (d.join Manifest.fileName) then
      (.error (.alreadyExists (d.join Manifest.fileName)), h)
    else
      match h.writeText (d.join Manifest.fileName) Manifest.template with
      | .error source => (.error (.unwritable (d.join Manifest.fileName) source), h)
      | .ok tree => (.ok (), { h with
          tree
          events := h.events ++ [.printed s!"Created {(d.join Manifest.fileName).text}\n"] }) := by
  unfold init
  rw [run_bind, run_get]
  dsimp only
  split
  · rfl
  · cases h.writeText (d.join Manifest.fileName) Manifest.template with
    | error source => rfl
    | ok tree => rfl

theorem run_init_of_room (hroom : Manifest.HasRoom h.toFileView d place) :
    (init d).run h = (.ok (), planted h d place) := by
  have hfree := hroom.isOccupied
  have hwrite : h.writeText (d.join Manifest.fileName) Manifest.template =
      .ok (h.tree.put place Manifest.templateEntry) :=
    (FileView.writeText_join Manifest.isName_fileName hfree).2
      ⟨place, hroom.locate, hroom.free, rfl⟩
  rw [run_init, if_neg (by rw [hfree]; decide), hwrite]
  rfl

/-- Starting a project writes one new file, or it fails and does nothing. -/
theorem init_cases (d : Path) (h : Host) :
    (∃ place, Manifest.HasRoom h.toFileView d place ∧
      (init d).run h = (.ok (), planted h d place)) ∨
    (¬∃ place, Manifest.HasRoom h.toFileView d place) ∧ ∃ e, (init d).run h = (.error e, h) := by
  by_cases hroom : ∃ place, Manifest.HasRoom h.toFileView d place
  · obtain ⟨place, hroom⟩ := hroom
    exact .inl ⟨place, hroom, run_init_of_room hroom⟩
  · refine .inr ⟨hroom, ?_⟩
    rw [run_init]
    split
    · exact ⟨_, rfl⟩
    · rename_i hoccupied
      cases hwrite : h.writeText (d.join Manifest.fileName) Manifest.template with
      | error source => exact ⟨_, rfl⟩
      | ok tree =>
        have hnobody := Bool.eq_false_iff.2 hoccupied
        obtain ⟨place, hlocate, hfree, -⟩ :=
          (FileView.writeText_join Manifest.isName_fileName hnobody).1 hwrite
        exact (hroom ⟨place, hlocate, hfree⟩).elim

theorem init_eq_ok_iff :
    (init d).run h = (.ok (), g) ↔
      ∃ place, Manifest.HasRoom h.toFileView d place ∧ g = planted h d place := by
  constructor
  · intro hinit
    rcases init_cases d h with ⟨place, hroom, hrun⟩ | ⟨-, e, hrun⟩
    · exact ⟨place, hroom, (Prod.ext_iff.1 (hinit.symm.trans hrun)).2⟩
    · cases hinit.symm.trans hrun
  · rintro ⟨place, hroom, rfl⟩
    exact run_init_of_room hroom

end Command

/-! ## The project that is started -/

theorem Manifest.HasRoom.alikeBut (hroom : Manifest.HasRoom h.toFileView d place) :
    FileTree.AlikeBut h.tree (Command.planted h d place).tree place :=
  FileTree.alikeBut_put (by rw [hroom.free]; simp)

/-- A template is found from its own directory. -/
theorem Manifest.find_of_templateEntry {v : FileView}
    (hlocate : v.tree.locate v.workDir (d.join fileName) = .ok place)
    (hplace : v.tree.get? place = some templateEntry) : find v d = .ok (some (ofTemplate, d)) := by
  have hentry : v.entry (d.join fileName) = .ok templateEntry :=
    FileView.entry_eq_ok_iff.2 ⟨place, hlocate, hplace⟩
  unfold find
  rw [Path.ancestors, findIn, if_pos (FileView.isFile_of_entry hentry),
    load_of_entry hentry ofText?_template]
  rfl

theorem Manifest.HasRoom.find_planted (hroom : Manifest.HasRoom h.toFileView d place) :
    Manifest.find (Command.planted h d place).toFileView d =
      .ok (some (Manifest.ofTemplate, d)) := by
  have hlocate := hroom.alikeBut.sameDirectories.locate.2 hroom.locate
  exact find_of_templateEntry hlocate (FileTree.get?_put_self (ne_root_of_locate hroom.locate) _)

/-- A new manifest changes nothing but the path of the manifest, so the same is built, stopped and
booted as without it. -/
theorem Command.init_keeps_meaning (habsent : Manifest.Absent h.toFileView d)
    (hinit : (init d).run h = (.ok (), g)) :
    (∀ request,
      (∀ s, Setup.resolve h.toFileView d request = .ok s → s.manifestPath = none) ∧
      Setup.resolve g.toFileView d request =
        (Setup.resolve h.toFileView d request).map
          (Setup.withManifestPath · (some (d.join Manifest.fileName))) ∧
      Setup.doubts g.toFileView d request = Setup.doubts h.toFileView d request) ∧
    (∀ given strict,
      SweepOrder.resolve g.toFileView d given strict =
        SweepOrder.resolve h.toFileView d given strict ∧
      SweepOrder.warnings g.toFileView d given strict =
        SweepOrder.warnings h.toFileView d given strict) ∧
    ∀ request s s', Setup.resolve h.toFileView d request = .ok s →
      Setup.resolve g.toFileView d request = .ok s' →
      build s' = build s ∧ run s' = run s ∧ ∀ extraArgs, s'.plan extraArgs = s.plan extraArgs := by
  obtain ⟨place, hroom, rfl⟩ := init_eq_ok_iff.1 hinit
  have hbefore : Project.find h.toFileView d = .ok ⟨{}, none, d⟩ := by
    unfold Project.find
    rw [Manifest.find_of_absent habsent]
    rfl
  have hafter : Project.find (planted h d place).toFileView d =
      .ok ⟨Manifest.ofTemplate, some (d.join Manifest.fileName), d⟩ := by
    unfold Project.find
    rw [hroom.find_planted]
    rfl
  have hpackage (dir : Path) : packageName? (planted h d place).toFileView dir =
      packageName? h.toFileView dir :=
    packageName?_congr (content?_packageFile_of_alikeBut hroom.alikeBut
      (by rw [Manifest.getLast?_of_locate hroom.locate]; decide) dir)
  have hsame := Manifest.interchangeable_ofTemplate
  have hresolve (request : Request) : Setup.resolve (planted h d place).toFileView d request =
      (Setup.resolve h.toFileView d request).map
        (Setup.withManifestPath · (some (d.join Manifest.fileName))) := by
    rw [Setup.resolve_of_project hbefore, Setup.resolve_of_project hafter]
    exact Setup.ofProject_congr hsame (hpackage _) none _ request
  refine ⟨?_, ?_, ?_⟩
  · intro request
    refine ⟨?_, hresolve request, ?_⟩
    · intro s hs
      obtain ⟨p, target, binary, hp, -, -, rfl⟩ := Setup.resolve_eq_ok_iff.1 hs
      obtain rfl := Except.ok.inj (hp.symm.trans hbefore)
      rfl
    · rw [Setup.doubts_of_project hbefore, Setup.doubts_of_project hafter]
      dsimp only
      rw [hsame.policy, hsame.doubts]
  · intro given strict
    exact SweepOrder.resolve_congr hsame (SweepOrder.manifest_of_project hbefore)
      (SweepOrder.manifest_of_project hafter) given strict
  · intro request s s' hs hs'
    rw [hresolve, hs] at hs'
    obtain rfl := Except.ok.inj hs'
    exact ⟨rfl, rfl, fun _ => rfl⟩

/-- A directory that holds a package and no manifest. -/
def packageHost : Host where
  tree := ⟨[(["w"], .directory),
    (["w", "Cargo.toml"], .file "[package]\nname = \"k\"\n".toUTF8 false)]⟩
  workDir := ["w"]

theorem Manifest.hasRoom_packageHost :
    HasRoom packageHost.toFileView ⟨"/w"⟩ ["w", "hartctl.toml"] where
  locate := by
    have hlocate : packageHost.tree.locate packageHost.workDir ⟨"/w/hartctl.toml"⟩ =
        packageHost.tree.walk [] ["", "w", "hartctl.toml"] :=
      FileTree.locate_of_pieces (by cbv) (by decide) (by cbv) (by cbv)
    exact hlocate.trans rfl
  free := rfl

theorem Manifest.absent_packageHost : Absent packageHost.toFileView ⟨"/w"⟩ := by
  apply absent_of_none
  · rw [FileView.content?_of_pieces ["", "w", "hartctl.toml"] (by cbv) (by decide) (by cbv)
      (by cbv)]
    rfl
  · rw [FileView.content?_of_pieces ["", "hartctl.toml"] (by cbv) (by decide) (by cbv) (by cbv)]
    rfl

theorem packageName?_packageHost :
    packageName? packageHost.toFileView ⟨"/w"⟩ = .ok (some "k") := by
  have hpieces : (Text.pieces '/' (Path.mk "/w/Cargo.toml").chars).map String.ofList =
      ["", "w", "Cargo.toml"] := by cbv
  have hentry : packageHost.entry ⟨"/w/Cargo.toml"⟩ =
      .ok (.file "[package]\nname = \"k\"\n".toUTF8 false) :=
    FileView.entry_of_pieces (by cbv) (by decide) (by cbv) hpieces rfl rfl
  have hload : packageHost.load openTables ⟨"/w/Cargo.toml"⟩ =
      .ok (.record [("package", .record [("name", .text "k")])]) := by
    unfold FileView.load
    rw [FileView.readText_of_entry hentry]
    cbv
  exact packageName?_eq_some_iff.2
    ⟨FileView.isFile_of_entry hentry, _, _, _, hload, rfl, rfl, rfl⟩

/-- The project of the directory before it has a manifest. -/
def packageSetup : Setup := Setup.assemble ⟨"/w"⟩ ⟨{}, none, ⟨"/w"⟩⟩ {} {} "k"

theorem resolve_packageHost :
    Setup.resolve packageHost.toFileView ⟨"/w"⟩ {} = .ok packageSetup := by
  have hfind : Project.find packageHost.toFileView ⟨"/w"⟩ = .ok ⟨{}, none, ⟨"/w"⟩⟩ := by
    unfold Project.find
    rw [Manifest.find_of_absent Manifest.absent_packageHost]
    rfl
  refine Setup.resolve_eq_ok_iff.2 ⟨_, {}, "k", hfind, rfl, ?_, rfl⟩
  exact Manifest.binaryName_eq_ok_iff.2 (.inr ⟨rfl, packageName?_packageHost⟩)

theorem Command.init_keeps_meaning_sample :
    let g := planted packageHost ⟨"/w"⟩ ["w", "hartctl.toml"]
    let after := packageSetup.withManifestPath (some ⟨"/w/hartctl.toml"⟩)
    Manifest.Absent packageHost.toFileView ⟨"/w"⟩ ∧
      (init ⟨"/w"⟩).run packageHost = (.ok (), g) ∧
      Manifest.find g.toFileView ⟨"/w"⟩ = .ok (some (Manifest.ofTemplate, ⟨"/w"⟩)) ∧
      (∀ request, Setup.resolve g.toFileView ⟨"/w"⟩ request =
        (Setup.resolve packageHost.toFileView ⟨"/w"⟩ request).map
          (Setup.withManifestPath · (some ⟨"/w/hartctl.toml"⟩))) ∧
      (∀ given strict, SweepOrder.resolve g.toFileView ⟨"/w"⟩ given strict =
        SweepOrder.resolve packageHost.toFileView ⟨"/w"⟩ given strict) ∧
      Setup.resolve packageHost.toFileView ⟨"/w"⟩ {} = .ok packageSetup ∧
      Setup.resolve g.toFileView ⟨"/w"⟩ {} = .ok after ∧
      after.image = packageSetup.image ∧ build after = build packageSetup ∧
      run after = run packageSetup := by
  intro g after
  have hinit := run_init_of_room Manifest.hasRoom_packageHost
  obtain ⟨hsetup, horder, hcommands⟩ := init_keeps_meaning Manifest.absent_packageHost hinit
  have hafter : Setup.resolve g.toFileView ⟨"/w"⟩ {} = .ok after := by
    rw [(hsetup {}).2.1, resolve_packageHost]
    rfl
  obtain ⟨hbuild, hrun, hplan⟩ := hcommands {} _ _ resolve_packageHost hafter
  refine ⟨Manifest.absent_packageHost, hinit, Manifest.hasRoom_packageHost.find_planted, ?_, ?_,
    resolve_packageHost, hafter, congrArg BootPlan.image (hplan []), hbuild, hrun⟩
  · intro request
    exact (hsetup request).2.1
  · intro given strict
    exact (horder given strict).1

end RiscvBoot
