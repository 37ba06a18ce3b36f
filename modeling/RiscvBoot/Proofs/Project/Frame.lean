import RiscvBoot.Proofs.Command.Kill
import RiscvBoot.Proofs.Host.Places
import RiscvBoot.Proofs.Project.Precedence

/-!
# What a setup is read from

A setup is read from manifest files and from one package file, so a file of another name has no
effect on it. Two manifests that say the same in different words are interchangeable
(`Manifest.Interchangeable`): they lead to the same setups, warnings and sweep orders.
-/

set_option autoImplicit false

namespace RiscvBoot

variable {v v' : FileView} {t : FileTree} {p cwd : Path} {place : Location}

/-! ## Files of other names -/

theorem Manifest.isName_fileName : Path.IsName "hartctl.toml" := by
  constructor <;> decide

theorem isName_packageFile : Path.IsName "Cargo.toml" := by
  constructor <;> decide

theorem FileView.content?_of_alikeBut (h : FileTree.AlikeBut v.tree t place)
    (hp : v.tree.locate v.workDir p ≠ .ok place) :
    { v with tree := t }.content? p = v.content? p := by
  apply Option.ext
  intro content
  rw [content?_eq_some_iff, content?_eq_some_iff]
  apply exists_congr
  intro executable
  exact entry_of_alikeBut h hp

theorem Manifest.agreeOn_of_alikeBut (h : FileTree.AlikeBut v.tree t place)
    (hplace : place.getLast? ≠ some "hartctl.toml") (dirs : List Path) :
    AgreeOn v { v with tree := t } dirs := by
  intro nearer dir farther _ _
  exact FileView.content?_of_alikeBut h (FileView.locate_join_ne isName_fileName hplace)

theorem content?_packageFile_of_alikeBut (h : FileTree.AlikeBut v.tree t place)
    (hplace : place.getLast? ≠ some "Cargo.toml") (dir : Path) :
    { v with tree := t }.content? (dir.join packageFile) = v.content? (dir.join packageFile) :=
  FileView.content?_of_alikeBut h (FileView.locate_join_ne isName_packageFile hplace)

theorem Manifest.getLast?_of_locate {workDir : Location} {dir : Path}
    (h : t.locate workDir (dir.join fileName) = .ok place) :
    place.getLast? = some "hartctl.toml" := by
  obtain ⟨inside, rfl, -, -⟩ := FileTree.locate_join_name isName_fileName h
  exact List.getLast?_concat

theorem Manifest.ne_root_of_locate {workDir : Location} {dir : Path}
    (h : t.locate workDir (dir.join fileName) = .ok place) : place ≠ [] := by
  rintro rfl
  cases getLast?_of_locate h

/-! ## Manifests that say the same -/

namespace Manifest

/-- Whatever is resolved under one manifest comes out the same under the other. -/
structure Interchangeable (m m' : Manifest) : Prop where
  kernelDir : m'.kernelDir = m.kernelDir
  targetDir : m'.targetDir = m.targetDir
  binary : m'.kernel.binary = m.kernel.binary
  package : m'.kernel.package = m.kernel.package
  buildArgs : m'.kernel.buildArgs = m.kernel.buildArgs
  emulator : m'.emulator = m.emulator
  onError : m'.sweeper.onError = m.sweeper.onError
  settleTimeout : m'.settleTimeout = m.settleTimeout
  policy : m'.policyFor = m.policyFor
  resolve : ∀ given policy, (m'.choiceFor given).resolve policy = (m.choiceFor given).resolve policy
  doubts : ∀ given policy, (m'.choiceFor given).doubts policy = (m.choiceFor given).doubts policy

end Manifest

variable {m m' : Manifest}

namespace Setup

/-- The setup as it would be with its manifest at another path. -/
def withManifestPath (s : Setup) (path : Option Path) : Setup := { s with manifestPath := path }

theorem ofProject_congr (h : Manifest.Interchangeable m m') {dir : Path}
    (hpackage : packageName? v' (m.kernelDir dir) = packageName? v (m.kernelDir dir))
    (path path' : Option Path) (request : Request) :
    ofProject v' cwd ⟨m', path', dir⟩ request =
      (ofProject v cwd ⟨m, path, dir⟩ request).map (withManifestPath · path') := by
  have hbinary : m'.binaryName v' (m.kernelDir dir) = m.binaryName v (m.kernelDir dir) := by
    unfold Manifest.binaryName
    rw [h.binary, hpackage]
  unfold ofProject
  simp only [h.kernelDir, h.targetDir, h.policy, h.resolve, hbinary, h.emulator, h.onError,
    h.settleTimeout, h.package, h.binary, h.buildArgs]
  cases (m.choiceFor request.choice).resolve (m.policyFor request.strict) with
  | error e => rfl
  | ok target =>
    cases m.binaryName v (m.kernelDir dir) with
    | error e => rfl
    | ok binary => rfl

theorem resolve_of_project {project : Project} (h : Project.find v cwd = .ok project)
    (request : Request) : resolve v cwd request = ofProject v cwd project request := by
  unfold resolve
  rw [h]
  rfl

theorem doubts_of_project {project : Project} (h : Project.find v cwd = .ok project)
    (request : Request) : doubts v cwd request = (project.manifest.choiceFor request.choice).doubts
      (project.manifest.policyFor request.strict) := by
  unfold doubts
  rw [h]

end Setup

namespace SweepOrder

theorem resolve_congr (h : Manifest.Interchangeable m m') (hm : manifest v cwd = (m, []))
    (hm' : manifest v' cwd = (m', [])) (given : Choice) (strict : Bool) :
    resolve v' cwd given strict = resolve v cwd given strict ∧
      warnings v' cwd given strict = warnings v cwd given strict := by
  have hlenient := Except.ok.inj (h.resolve given .lenient)
  constructor
  · rw [resolve_eq, resolve_eq, hm, hm', hlenient, h.settleTimeout]
  · unfold warnings
    simp only [hm, hm', h.resolve, h.doubts, h.policy]

end SweepOrder

end RiscvBoot
