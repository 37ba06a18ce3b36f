import RiscvBoot.Proofs.Project.Frame
import RiscvBoot.Proofs.Toml.OpenTables

/-!
# Why there is no setup

Resolving goes through the manifest, the policy, and the package file if the manifest names no
executable. An `Obstacle` is what the first of them that fails reports, and there is a setup exactly
if there is none (`Setup.resolve_eq_error_iff`).
-/

set_option autoImplicit false

namespace RiscvBoot

variable {v v' : FileView} {cwd p dir : Path} {request : Request} {content : ByteArray}
  {t : Tree} {name : String} {e : LoadError}

/-! ## The package file -/

/-- The bytes are a document, and no table below it begins with the reserved name and holds no
date-time. -/
structure HoldsPackage (content : ByteArray) (t : Tree) : Prop where
  document : ∃ text, String.fromUTF8? content = some text ∧ Toml.read text = .ok t
  dated : ∀ entries, t = .record entries → ∀ entry ∈ entries, ¬Toml.IllDated entry.2

/-- The document has a table for the package, with a text for its name. A table that begins with the
reserved name is a date-time. -/
def NamesPackage (t : Tree) (name : String) : Prop :=
  ∃ table, t.get? "package" = some (.record table) ∧ ¬Toml.Reserved table ∧
    table.lookup "name" = some (.text name)

theorem HoldsPackage.opened (h : HoldsPackage content t) :
    ∃ t', Toml.withOpenTables? t = some t' := by
  rw [← Option.isSome_iff_exists, ← Option.ne_none_iff_isSome]
  intro hnone
  cases t with
  | record entries =>
    obtain ⟨entry, hentry, hill⟩ := Toml.withOpenTables?_eq_none_iff.1 hnone
    exact h.dated entries rfl entry hentry hill
  | _ => cases hnone

theorem holdsPackage_of_opened {text : String} {t' : Tree}
    (htext : String.fromUTF8? content = some text) (hread : Toml.read text = .ok t)
    (hopen : Toml.withOpenTables? t = some t') : HoldsPackage content t := by
  refine ⟨⟨text, htext, hread⟩, ?_⟩
  rintro entries rfl entry hentry hill
  rw [Toml.withOpenTables?_eq_none_iff.2 ⟨entry, hentry, hill⟩] at hopen
  cases hopen

theorem HoldsPackage.unique {t' : Tree} (h : HoldsPackage content t)
    (h' : HoldsPackage content t') : t = t' := by
  obtain ⟨text, htext, hread⟩ := h.document
  obtain ⟨text', htext', hread'⟩ := h'.document
  obtain rfl := Option.some.inj (htext.symm.trans htext')
  exact Except.ok.inj (hread.symm.trans hread')

/-- What loading a settings file reports. -/
inductive LoadError.About (p : Path) (content : ByteArray) : LoadError → Prop where
  | notText (htext : String.fromUTF8? content = none) : About p content (.unreadable p .notText)
  | malformed {text : String} (htext : String.fromUTF8? content = some text) (report : String) :
      About p content (.malformed p report)

theorem FileView.about_of_load {α : Type} {use : Tree → Except String α}
    (hcontent : v.content? p = some content) (h : v.load use p = .error e) : e.About p content := by
  unfold load at h
  rw [readText_of_content? hcontent] at h
  cases htext : String.fromUTF8? content with
  | none =>
    rw [htext] at h
    obtain rfl := Except.error.inj h
    exact .notText htext
  | some text =>
    rw [htext] at h
    dsimp only at h
    cases hread : Toml.read text with
    | error fault =>
      rw [hread] at h
      obtain rfl := Except.error.inj h
      exact .malformed htext _
    | ok t =>
      rw [hread] at h
      dsimp only at h
      cases huse : use t with
      | error complaint =>
        rw [huse] at h
        obtain rfl := Except.error.inj h
        exact .malformed htext _
      | ok a =>
        rw [huse] at h
        cases h

theorem openTables_eq_ok_iff {t' : Tree} :
    openTables t = .ok t' ↔ Toml.withOpenTables? t = some t' := by
  unfold openTables
  cases Toml.withOpenTables? t with
  | none => simp
  | some opened => simp

theorem load_openTables_of_holds (hcontent : v.content? p = some content)
    (h : HoldsPackage content t) :
    ∃ t', v.load openTables p = .ok t' ∧ Toml.withOpenTables? t = some t' := by
  obtain ⟨text, htext, hread⟩ := h.document
  obtain ⟨t', ht'⟩ := h.opened
  have hopen := openTables_eq_ok_iff.2 ht'
  exact ⟨t', (FileView.load_eq_ok_iff hcontent).2 ⟨text, t, htext, hread, hopen⟩, ht'⟩

theorem holds_of_load_openTables {t' : Tree} (hcontent : v.content? p = some content)
    (h : v.load openTables p = .ok t') : ∃ t, HoldsPackage content t := by
  obtain ⟨text, t, htext, hread, hopen⟩ := (FileView.load_eq_ok_iff hcontent).1 h
  exact ⟨t, holdsPackage_of_opened htext hread (openTables_eq_ok_iff.1 hopen)⟩

/-- The package is looked for in a file that is not there, in one that cannot be used, or in the
data of one. -/
inductive PackageCourse (v : FileView) (dir : Path) : Except LoadError (Option String) → Prop where
  | noFile (file : v.content? (dir.join packageFile) = none) : PackageCourse v dir (.ok none)
  | unusable {content : ByteArray} {e : LoadError}
      (file : v.content? (dir.join packageFile) = some content)
      (bad : ∀ t, ¬HoldsPackage content t)
      (report : v.load openTables (dir.join packageFile) = .error e) :
      PackageCourse v dir (.error e)
  | data {content : ByteArray} {t : Tree} {found : Option String}
      (file : v.content? (dir.join packageFile) = some content) (holds : HoldsPackage content t)
      (names : ∀ name, found = some name ↔ NamesPackage t name) : PackageCourse v dir (.ok found)

theorem course_packageName? (v : FileView) (dir : Path) :
    PackageCourse v dir (packageName? v dir) := by
  unfold packageName?
  rw [FileView.isFile_eq_isSome_content?]
  cases hcontent : v.content? (dir.join packageFile) with
  | none => exact .noFile hcontent
  | some content =>
    rw [if_pos Option.isSome_some]
    by_cases hholds : ∃ t, HoldsPackage content t
    · obtain ⟨t, hholds⟩ := hholds
      obtain ⟨t', hload, hopen⟩ := load_openTables_of_holds hcontent hholds
      rw [hload]
      refine .data hcontent hholds fun name => ?_
      exact Iff.trans (by simp [Option.bind_assoc]) (Toml.text?_of_opened hopen "package" "name")
    · cases hload : v.load openTables (dir.join packageFile) with
      | error e => exact .unusable hcontent (not_exists.1 hholds) hload
      | ok t' => exact (hholds (holds_of_load_openTables hcontent hload)).elim

/-! ## The obstacles -/

/-- What stands in the way of a setup, with the error that is reported for it. Each one but the
first supposes that those before it are passed. -/
inductive Obstacle (v : FileView) (cwd : Path) (request : Request) : SetupError → Prop where
  /-- The nearest manifest is no text, or it is no manifest. -/
  | manifest {dir : Path} {content : ByteArray} {e : LoadError}
      (nearest : Manifest.Nearest v cwd dir content)
      (bad : (String.fromUTF8? content).bind Manifest.ofText? = none)
      (report : Manifest.load v (dir.join Manifest.fileName) = .error e) :
      Obstacle v cwd request (.load e)
  /-- The policy is strict, and it rejects the choice. -/
  | choice {p : Project} {e : Rejection} (project : Project.find v cwd = .ok p)
      (strict : p.manifest.policyFor request.strict = .strict)
      (rejected : (p.manifest.choiceFor request.choice).resolve .strict = .error e) :
      Obstacle v cwd request (.choice e)
  /-- The package file has to name the executable, and it cannot be used. -/
  | package {p : Project} {target : Target} {content : ByteArray} {e : LoadError}
      (project : Project.find v cwd = .ok p)
      (accepted : (p.manifest.choiceFor request.choice).resolve
        (p.manifest.policyFor request.strict) = .ok target)
      (unset : p.manifest.kernel.binary = none)
      (file : v.content? ((p.manifest.kernelDir p.dir).join packageFile) = some content)
      (bad : ∀ t, ¬HoldsPackage content t)
      (report : v.load openTables ((p.manifest.kernelDir p.dir).join packageFile) = .error e) :
      Obstacle v cwd request (.load e)
  /-- The package file has to name the executable, and it is missing or does not. -/
  | unnamed {p : Project} {target : Target} (project : Project.find v cwd = .ok p)
      (accepted : (p.manifest.choiceFor request.choice).resolve
        (p.manifest.policyFor request.strict) = .ok target)
      (unset : p.manifest.kernel.binary = none)
      (nameless : ∀ content,
        v.content? ((p.manifest.kernelDir p.dir).join packageFile) = some content →
          ∃ t, HoldsPackage content t ∧ ∀ name, ¬NamesPackage t name) :
      Obstacle v cwd request (.noBinary ((p.manifest.kernelDir p.dir).join packageFile))

namespace Setup

theorem resolve_of_find_error (h : Project.find v cwd = .error e) :
    resolve v cwd request = .error (.load e) := by
  unfold resolve
  rw [h]
  rfl

theorem resolve_of_rejected {project : Project} {rejection : Rejection}
    (h : Project.find v cwd = .ok project)
    (hchoice : (project.manifest.choiceFor request.choice).resolve
      (project.manifest.policyFor request.strict) = .error rejection) :
    resolve v cwd request = .error (.choice rejection) := by
  rw [resolve_of_project h, ofProject, hchoice]
  rfl

theorem resolve_of_accepted {project : Project} {target : Target}
    (h : Project.find v cwd = .ok project)
    (hchoice : (project.manifest.choiceFor request.choice).resolve
      (project.manifest.policyFor request.strict) = .ok target) :
    resolve v cwd request =
      (project.manifest.binaryName v (project.manifest.kernelDir project.dir)).map
        (assemble cwd project request target) := by
  rw [resolve_of_project h, ofProject, hchoice]
  change Except.bind (project.manifest.binaryName v (project.manifest.kernelDir project.dir))
    (fun binary => .ok (assemble cwd project request target binary)) = _
  cases project.manifest.binaryName v (project.manifest.kernelDir project.dir) with
  | error e => rfl
  | ok binary => rfl

theorem binaryName_of_unset {m : Manifest} (hunset : m.kernel.binary = none) (dir : Path) :
    m.binaryName v dir = match packageName? v dir with
      | .error e => .error (.load e)
      | .ok (some name) => .ok name
      | .ok none => .error (.noBinary (dir.join packageFile)) := by
  unfold Manifest.binaryName
  split
  · rename_i name hname
    cases hunset.symm.trans hname
  · rfl

theorem resolve_of_obstacle {error : SetupError} (h : Obstacle v cwd request error) :
    resolve v cwd request = .error error := by
  cases h with
  | manifest nearest _ report =>
    refine resolve_of_find_error ?_
    unfold Project.find
    rw [Manifest.find_of_nearest nearest, report]
    rfl
  | choice project strict rejected => exact resolve_of_rejected project (strict ▸ rejected)
  | @package p target content e project accepted unset file bad report =>
    have hpackage : packageName? v (p.manifest.kernelDir p.dir) = .error e := by
      have hcourse := course_packageName? v (p.manifest.kernelDir p.dir)
      generalize packageName? v (p.manifest.kernelDir p.dir) = result at hcourse
      cases hcourse with
      | noFile hnone => cases hnone.symm.trans file
      | unusable _ _ hreport => rw [Except.error.inj (hreport.symm.trans report)]
      | data hfile holds =>
        obtain rfl := Option.some.inj (hfile.symm.trans file)
        exact absurd holds (bad _)
    rw [resolve_of_accepted project accepted, binaryName_of_unset unset, hpackage]
    rfl
  | @unnamed p target project accepted unset nameless =>
    have hpackage : packageName? v (p.manifest.kernelDir p.dir) = .ok none := by
      have hcourse := course_packageName? v (p.manifest.kernelDir p.dir)
      generalize packageName? v (p.manifest.kernelDir p.dir) = result at hcourse
      cases hcourse with
      | noFile => rfl
      | unusable hfile bad =>
        obtain ⟨t, holds, -⟩ := nameless _ hfile
        exact absurd holds (bad t)
      | @data _ _ found hfile holds names =>
        obtain ⟨t, holds', hnone⟩ := nameless _ hfile
        obtain rfl := holds.unique holds'
        cases found with
        | none => rfl
        | some name => exact absurd ((names name).1 rfl) (hnone name)
    rw [resolve_of_accepted project accepted, binaryName_of_unset unset, hpackage]
    rfl

theorem obstacle_of_find {e : LoadError} (h : Project.find v cwd = .error e) :
    Obstacle v cwd request (.load e) := by
  have hfind : Manifest.find v cwd = .error e := by
    unfold Project.find at h
    cases hfound : Manifest.find v cwd with
    | error found =>
      rw [hfound] at h
      rw [Except.error.inj h]
    | ok found =>
      rw [hfound] at h
      cases h
  rcases Manifest.nearest_or_absent v cwd with ⟨dir, content, hnearest⟩ | habsent
  · rw [Manifest.find_of_nearest hnearest] at hfind
    have hreads := Manifest.reads_load hnearest.content
    cases hload : Manifest.load v (dir.join Manifest.fileName) with
    | error found =>
      rw [hload] at hfind hreads
      obtain rfl := Except.error.inj hfind
      refine .manifest hnearest ?_ hload
      cases hreads with
      | notText htext => rw [htext, Option.bind_none]
      | malformed htext hm => rw [htext, Option.bind_some, hm]
    | ok m =>
      rw [hload] at hfind
      cases hfind
  · rw [Manifest.find_of_absent habsent] at hfind
    cases hfind

theorem obstacle_of_resolve {error : SetupError} (h : resolve v cwd request = .error error) :
    Obstacle v cwd request error := by
  cases hproject : Project.find v cwd with
  | error e =>
    rw [resolve_of_find_error hproject] at h
    obtain rfl := Except.error.inj h
    exact obstacle_of_find hproject
  | ok p =>
    cases hchoice : (p.manifest.choiceFor request.choice).resolve
        (p.manifest.policyFor request.strict) with
    | error e =>
      rw [resolve_of_rejected hproject hchoice] at h
      obtain rfl := Except.error.inj h
      cases hpolicy : p.manifest.policyFor request.strict with
      | lenient =>
        rw [hpolicy] at hchoice
        cases hchoice
      | strict =>
        rw [hpolicy] at hchoice
        exact .choice hproject hpolicy hchoice
    | ok target =>
      rw [resolve_of_accepted hproject hchoice] at h
      cases hbinary : p.manifest.kernel.binary with
      | some name =>
        unfold Manifest.binaryName at h
        rw [hbinary] at h
        cases h
      | none =>
        rw [binaryName_of_unset hbinary] at h
        have hcourse := course_packageName? v (p.manifest.kernelDir p.dir)
        generalize packageName? v (p.manifest.kernelDir p.dir) = result at h hcourse
        cases hcourse with
        | noFile hfile =>
          obtain rfl := Except.error.inj h
          refine .unnamed hproject hchoice hbinary fun content hcontent => ?_
          cases hfile.symm.trans hcontent
        | unusable hfile bad hreport =>
          obtain rfl := Except.error.inj h
          exact .package hproject hchoice hbinary hfile bad hreport
        | @data content t found hfile holds names =>
          cases found with
          | some name => cases h
          | none =>
            obtain rfl := Except.error.inj h
            refine .unnamed hproject hchoice hbinary fun content' hcontent => ?_
            obtain rfl := Option.some.inj (hfile.symm.trans hcontent)
            exact ⟨t, holds, fun name hname => by cases (names name).2 hname⟩

theorem resolve_eq_error_iff {error : SetupError} :
    resolve v cwd request = .error error ↔ Obstacle v cwd request error :=
  ⟨obstacle_of_resolve, resolve_of_obstacle⟩

/-- No obstacle depends on where the build is told to write. -/
theorem obstacle_targetDir {error : SetupError} (targetDir : Option Path)
    (h : Obstacle v cwd request error) : Obstacle v cwd { request with targetDir } error := by
  cases h with
  | manifest nearest bad report => exact .manifest nearest bad report
  | choice project strict rejected => exact .choice project strict rejected
  | package project accepted unset file bad report =>
    exact .package project accepted unset file bad report
  | unnamed project accepted unset nameless => exact .unnamed project accepted unset nameless

/-- When the manifest names the executable, nothing but the manifest is read. -/
theorem resolve_of_binary {project : Project} {name : String}
    (h : Project.find v cwd = .ok project) (hbinary : project.manifest.kernel.binary = some name)
    (hagree : Manifest.AgreeOn v v' cwd.ancestors) :
    resolve v' cwd request = resolve v cwd request := by
  have h' : Project.find v' cwd = .ok project := by
    rw [← h]
    unfold Project.find
    rw [Manifest.find_congr hagree]
  have hname : project.manifest.binaryName v' (project.manifest.kernelDir project.dir) =
      project.manifest.binaryName v (project.manifest.kernelDir project.dir) := by
    unfold Manifest.binaryName
    rw [hbinary]
  cases hchoice : (project.manifest.choiceFor request.choice).resolve
      (project.manifest.policyFor request.strict) with
  | error e => rw [resolve_of_rejected h hchoice, resolve_of_rejected h' hchoice]
  | ok target => rw [resolve_of_accepted h hchoice, resolve_of_accepted h' hchoice, hname]

/-- Resolving fails exactly with the first obstacle. The package file is none if the manifest names
the executable, and where the build is told to write is never one. -/
theorem resolve_fails_at_first_obstacle (v : FileView) (cwd : Path) (request : Request) :
    (∀ error, resolve v cwd request = .error error ↔ Obstacle v cwd request error) ∧
    (∀ p content e, v.content? p = some content →
      (Manifest.load v p = .error e ∨ v.load openTables p = .error e) → e.About p content) ∧
    (∀ project name, Project.find v cwd = .ok project →
      project.manifest.kernel.binary = some name →
      (∀ v', Manifest.AgreeOn v v' cwd.ancestors →
        resolve v' cwd request = resolve v cwd request) ∧
      ∀ tree place, FileTree.AlikeBut v.tree tree place →
        place.getLast? ≠ some "hartctl.toml" →
        resolve { v with tree } cwd request = resolve v cwd request) ∧
    ∀ targetDir error,
      resolve v cwd { request with targetDir } = .error error ↔
        resolve v cwd request = .error error := by
  refine ⟨fun error => resolve_eq_error_iff, ?_, ?_, ?_⟩
  · intro p content e hcontent herror
    rcases herror with hload | hload
    · exact FileView.about_of_load hcontent hload
    · exact FileView.about_of_load hcontent hload
  · intro project name hproject hbinary
    refine ⟨fun v' hagree => resolve_of_binary hproject hbinary hagree, ?_⟩
    intro tree place halike hplace
    exact resolve_of_binary hproject hbinary (Manifest.agreeOn_of_alikeBut halike hplace _)
  · intro targetDir error
    rw [resolve_eq_error_iff, resolve_eq_error_iff]
    exact ⟨obstacle_targetDir request.targetDir, obstacle_targetDir targetDir⟩

/-- A directory that holds nothing but a package file with this text. -/
def packageView (text : String) : FileView where
  tree := ⟨[(["w"], .directory), (["w", "Cargo.toml"], .file text.toUTF8 false)]⟩
  workDir := ["w"]

def reservedText : String :=
  "[package]\nname = \"k\"\n[x]\n\"$__toml_private_datetime\" = \"no\"\n"

def reservedData : Tree :=
  .record [("package", .record [("name", .text "k")]),
    ("x", .record [("$__toml_private_datetime", .text "no")])]

theorem content?_packageView (text : String) :
    (packageView text).content? ⟨"/w/Cargo.toml"⟩ = some text.toUTF8 := by
  rw [FileView.content?_of_pieces ["", "w", "Cargo.toml"] (by cbv) (by decide) (by cbv) (by cbv)]
  rfl

theorem absent_packageView (text : String) : Manifest.Absent (packageView text) ⟨"/w"⟩ := by
  apply Manifest.absent_of_none
  · rw [FileView.content?_of_pieces ["", "w", "hartctl.toml"] (by cbv) (by decide) (by cbv)
      (by cbv)]
    rfl
  · rw [FileView.content?_of_pieces ["", "hartctl.toml"] (by cbv) (by decide) (by cbv) (by cbv)]
    rfl

/-- A document with a name for the package is of no use if a table elsewhere in it has the reserved
name. -/
theorem reserved_name_is_an_obstacle :
    Manifest.Absent (packageView reservedText) ⟨"/w"⟩ ∧
      (packageView reservedText).content? ⟨"/w/Cargo.toml"⟩ = some reservedText.toUTF8 ∧
      Toml.read reservedText = .ok reservedData ∧ NamesPackage reservedData "k" ∧
      resolve (packageView reservedText) ⟨"/w"⟩ {} =
        .error (.load (.malformed ⟨"/w/Cargo.toml"⟩ "TOML parse error\ninvalid datetime\n")) := by
  have hread : Toml.read reservedText = .ok reservedData := by cbv
  have hfile := content?_packageView reservedText
  have habsent := absent_packageView reservedText
  have hproject : Project.find (packageView reservedText) ⟨"/w"⟩ = .ok ⟨{}, none, ⟨"/w"⟩⟩ := by
    unfold Project.find
    rw [Manifest.find_of_absent habsent]
    rfl
  have hnames : NamesPackage reservedData "k" := by
    refine ⟨[("name", .text "k")], rfl, ?_, rfl⟩
    exact Toml.not_reserved_of_ne (by decide)
  have hload : (packageView reservedText).load openTables ⟨"/w/Cargo.toml"⟩ =
      .error (.malformed ⟨"/w/Cargo.toml"⟩ "TOML parse error\ninvalid datetime\n") := by
    unfold FileView.load
    rw [FileView.readText_of_content? hfile, FileView.fromUTF8?_toUTF8]
    dsimp only
    rw [hread]
    have hopen : Toml.withOpenTables? reservedData = none := by cbv
    dsimp only
    unfold openTables
    rw [hopen]
    rfl
  have hpackage : packageName? (packageView reservedText) ⟨"/w"⟩ =
      .error (.malformed ⟨"/w/Cargo.toml"⟩ "TOML parse error\ninvalid datetime\n") := by
    unfold packageName?
    rw [FileView.isFile_eq_isSome_content?, show (Path.mk "/w").join packageFile =
      ⟨"/w/Cargo.toml"⟩ from rfl, hfile, if_pos Option.isSome_some, hload]
    rfl
  have haccepted : (({} : Manifest).choiceFor ({} : Request).choice).resolve
      (({} : Manifest).policyFor false) = .ok {} := rfl
  refine ⟨habsent, hfile, hread, hnames, ?_⟩
  rw [resolve_of_accepted hproject haccepted, binaryName_of_unset rfl,
    show ({} : Manifest).kernelDir ⟨"/w"⟩ = ⟨"/w"⟩ from rfl, hpackage]
  rfl

end Setup

end RiscvBoot
