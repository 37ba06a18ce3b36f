import Mathlib
import RiscvBoot.Project.Setup
import RiscvBoot.Proofs.Except
import RiscvBoot.Proofs.Path.Absolute

/-!
# What a setup is made of

A setup comes from a project, a target and the name of an executable (`Setup.resolve_eq_ok_iff`).
The project is that of a directory above the working directory, and the executable is named by
the manifest or else by the package of the kernel crate.
-/

set_option autoImplicit false

namespace RiscvBoot

variable {v : FileView} {cwd : Path}

/-! ## Files -/

/-- An absolute path is followed from the root, piece by piece. -/
theorem FileTree.locate_of_pieces {t : FileTree} {workDir : Location} {p : Path}
    {pieces : List String} (hnul : p.chars.contains '\x00' = false)
    (hsize : p.text.utf8ByteSize < pathLimit) (habsolute : p.isAbsolute = true)
    (hpieces : (Text.pieces '/' p.chars).map String.ofList = pieces) :
    t.locate workDir p = t.walk [] pieces := by
  have hne : p.text ≠ "" := by
    intro hempty
    obtain ⟨rest, hrest⟩ := Path.isAbsolute_iff.1 habsolute
    rw [Path.chars, hempty] at hrest
    cases hrest
  unfold locate
  rw [if_neg (by rw [hnul]; decide), if_neg hne, if_neg (Nat.not_le.2 hsize)]
  dsimp only
  rw [if_pos habsolute, hpieces]

namespace FileView

variable {p : Path} {text : String} {executable : Bool}

theorem entry_of_pieces {pieces : List String} {here : Location} {e : Entry}
    (hnul : p.chars.contains '\x00' = false)
    (hsize : p.text.utf8ByteSize < FileTree.pathLimit) (habsolute : p.isAbsolute = true)
    (hpieces : (Text.pieces '/' p.chars).map String.ofList = pieces)
    (hwalk : v.tree.walk [] pieces = .ok here) (hget : v.tree.get? here = some e) :
    v.entry p = .ok e := by
  unfold entry
  rw [FileTree.locate_of_pieces hnul hsize habsolute hpieces, hwalk]
  dsimp only [bind, Except.bind]
  rw [hget]
  rfl

theorem isFile_of_entry {content : ByteArray} (h : v.entry p = .ok (.file content executable)) :
    v.isFile p = true := by
  unfold isFile
  rw [h]
  rfl

theorem fromUTF8?_toUTF8 (text : String) : String.fromUTF8? text.toUTF8 = some text := by
  unfold String.fromUTF8?
  exact dif_pos text.isValidUTF8

theorem readText_of_entry (h : v.entry p = .ok (.file text.toUTF8 executable)) :
    v.readText p = .ok text := by
  unfold readText
  rw [h]
  simp only [bind, Except.bind, fromUTF8?_toUTF8]
  rfl

end FileView

/-! ## The project -/

namespace Manifest

theorem load_of_entry {p : Path} {text : String} {executable : Bool} {m : Manifest}
    (h : v.entry p = .ok (.file text.toUTF8 executable)) (hm : ofText? text = some m) :
    load v p = .ok m := by
  unfold load FileView.load
  rw [FileView.readText_of_entry h]
  dsimp only
  obtain ⟨t, ht, hm⟩ := Option.bind_eq_some_iff.1 hm
  cases hread : Toml.read text with
  | error fault => simp [hread, Except.toOption] at ht
  | ok data =>
    obtain rfl : data = t := by simpa [hread, Except.toOption] using ht
    have hdata : ofTree data = .ok m := by
      unfold ofTree
      rw [hm]
    exact mapError_eq_ok_iff.2 hdata

theorem findIn_some {dirs : List Path} {m : Manifest} {dir : Path}
    (h : findIn v dirs = .ok (some (m, dir))) :
    dir ∈ dirs ∧ v.isFile (dir.join fileName) = true ∧ load v (dir.join fileName) = .ok m := by
  induction dirs with
  | nil => simp [findIn] at h
  | cons first dirs ih =>
    unfold findIn at h
    split at h
    · rename_i hfile
      obtain ⟨found, hload, hfound⟩ := bind_eq_ok_iff.1 h
      cases hfound
      exact ⟨List.mem_cons_self, hfile, hload⟩
    · obtain ⟨hdir, hfile, hload⟩ := ih h
      exact ⟨List.mem_cons_of_mem first hdir, hfile, hload⟩

end Manifest

theorem Project.isAbsolute_dir {p : Project} (hcwd : cwd.isAbsolute = true)
    (h : Project.find v cwd = .ok p) : p.dir.isAbsolute = true := by
  obtain ⟨found, hfound, rfl⟩ := map_eq_ok_iff.1 h
  match found with
  | none => exact hcwd
  | some (m, dir) =>
    exact Path.isAbsolute_of_mem_ancestors hcwd (Manifest.findIn_some hfound).1

/-! ## The executable -/

/-- The package name is the text at `package.name` in the package file. -/
theorem packageName?_eq_some_iff {dir : Path} {name : String} :
    packageName? v dir = .ok (some name) ↔ v.isFile (dir.join packageFile) = true ∧
      ∃ t package entry, v.load openTables (dir.join packageFile) = .ok t ∧
        t.get? "package" = some package ∧ package.get? "name" = some entry ∧
        entry.text? = some name := by
  unfold packageName?
  split
  · rename_i hfile
    rw [and_iff_right hfile, bind_eq_ok_iff]
    constructor
    · rintro ⟨t, hload, hname⟩
      obtain ⟨package, hpackage, hrest⟩ := Option.bind_eq_some_iff.1 (Except.ok.inj hname)
      obtain ⟨entry, hentry, htext⟩ := Option.bind_eq_some_iff.1 hrest
      exact ⟨t, package, entry, hload, hpackage, hentry, htext⟩
    · rintro ⟨t, package, entry, hload, hpackage, hentry, htext⟩
      refine ⟨t, hload, ?_⟩
      simp only [hpackage, hentry, Option.bind_eq_bind, Option.bind_some, htext]
      rfl
  · rename_i hfile
    simp [hfile]

theorem Manifest.binaryName_eq_ok_iff {m : Manifest} {kernelDir : Path} {name : String} :
    m.binaryName v kernelDir = .ok name ↔ m.kernel.binary = some name ∨
      m.kernel.binary = none ∧ packageName? v kernelDir = .ok (some name) := by
  unfold binaryName
  cases m.kernel.binary with
  | some given => simp
  | none =>
    match packageName? v kernelDir with
    | .error e => simp
    | .ok none => simp
    | .ok (some found) => simp

/-! ## The setup -/

namespace Setup

/-- The setup of a project for a target and an executable. -/
def assemble (cwd : Path) (p : Project) (request : Request) (target : Target) (binary : String) :
    Setup where
  manifestPath := p.manifestPath
  kernelDir := p.manifest.kernelDir p.dir
  target := target
  policy := p.manifest.policyFor request.strict
  layout := ⟨p.manifest.targetDir cwd (p.manifest.kernelDir p.dir) request.targetDir, binary⟩
  tuning := p.manifest.emulator
  sweepPolicy := p.manifest.sweeper.onError
  settleTimeout := p.manifest.settleTimeout
  package := p.manifest.kernel.package
  binary := p.manifest.kernel.binary
  buildArgs := p.manifest.kernel.buildArgs

theorem resolve_eq_ok_iff {request : Request} {s : Setup} :
    resolve v cwd request = .ok s ↔ ∃ p target binary, Project.find v cwd = .ok p ∧
      (p.manifest.choiceFor request.choice).resolve (p.manifest.policyFor request.strict) =
        .ok target ∧
      p.manifest.binaryName v (p.manifest.kernelDir p.dir) = .ok binary ∧
      s = assemble cwd p request target binary := by
  unfold resolve ofProject
  simp only [bind_eq_ok_iff, mapError_eq_ok_iff]
  constructor
  · rintro ⟨p, hp, target, htarget, binary, hbinary, hs⟩
    exact ⟨p, target, binary, hp, htarget, hbinary, (Except.ok.inj hs).symm⟩
  · rintro ⟨p, target, binary, hp, htarget, hbinary, rfl⟩
    exact ⟨p, hp, target, htarget, binary, hbinary, rfl⟩

/-- A manifest of the working directory that names the executable decides everything but the
target. -/
theorem resolve_of_manifest {request : Request} {text : String} {executable : Bool} {m : Manifest}
    {name : String} {target : Target}
    (hentry : v.entry (cwd.join Manifest.fileName) = .ok (.file text.toUTF8 executable))
    (hm : Manifest.ofText? text = some m) (hname : m.kernel.binary = some name)
    (htarget : (m.choiceFor request.choice).resolve (m.policyFor request.strict) = .ok target) :
    resolve v cwd request =
      .ok (assemble cwd ⟨m, some (cwd.join Manifest.fileName), cwd⟩ request target name) := by
  have hfind : Manifest.find v cwd = .ok (some (m, cwd)) := by
    unfold Manifest.find
    rw [Path.ancestors, Manifest.findIn, if_pos (FileView.isFile_of_entry hentry),
      Manifest.load_of_entry hentry hm]
    rfl
  have hproject : Project.find v cwd = .ok ⟨m, some (cwd.join Manifest.fileName), cwd⟩ := by
    unfold Project.find
    rw [hfind]
    rfl
  refine resolve_eq_ok_iff.2 ⟨_, target, name, hproject, htarget, ?_, rfl⟩
  exact Manifest.binaryName_eq_ok_iff.2 (.inl hname)

/-- A directory that holds nothing but a manifest. -/
def sampleView : FileView where
  tree := ⟨[(["w"], .directory),
    (["w", "hartctl.toml"], .file "[kernel]\nbinary = \"k\"\n".toUTF8 false)]⟩
  workDir := ["w"]

def sampleManifest : Manifest := { kernel := { binary := some "k" } }

def sample : Setup :=
  assemble ⟨"/w"⟩ ⟨sampleManifest, some ⟨"/w/hartctl.toml"⟩, ⟨"/w"⟩⟩ {} {} "k"

/-- A directory that holds nothing but a manifest with this text. -/
def manifestView (text : String) : FileView where
  tree := ⟨[(["w"], .directory), (["w", "hartctl.toml"], .file text.toUTF8 false)]⟩
  workDir := ["w"]

theorem locate_manifestView (text : String) :
    (manifestView text).tree.locate (manifestView text).workDir ⟨"/w/hartctl.toml"⟩ =
      .ok ["w", "hartctl.toml"] := by
  have hlocate : (manifestView text).tree.locate ["w"] ⟨"/w/hartctl.toml"⟩ =
      (manifestView text).tree.walk [] ["", "w", "hartctl.toml"] :=
    FileTree.locate_of_pieces (by cbv) (by decide) (by cbv) (by cbv)
  exact hlocate.trans rfl

theorem entry_manifestView (text : String) :
    (manifestView text).entry ⟨"/w/hartctl.toml"⟩ = .ok (.file text.toUTF8 false) := by
  unfold FileView.entry
  rw [locate_manifestView]
  rfl

theorem entry_sampleView :
    sampleView.entry ⟨"/w/hartctl.toml"⟩ = .ok (.file "[kernel]\nbinary = \"k\"\n".toUTF8 false) :=
  entry_manifestView _

theorem ofText?_sampleManifest :
    Manifest.ofText? "[kernel]\nbinary = \"k\"\n" = some sampleManifest := by
  cbv

def strictText : String := "[kernel]\nbinary = \"k\"\n[defaults]\nstrict = true\n"

def strictManifest : Manifest := { sampleManifest with defaults := { strict := true } }

theorem ofText?_strictText : Manifest.ofText? strictText = some strictManifest := by
  cbv

theorem resolve_sampleView : resolve sampleView ⟨"/w"⟩ {} = .ok sample :=
  resolve_of_manifest entry_sampleView ofText?_sampleManifest rfl rfl

end Setup

end RiscvBoot
