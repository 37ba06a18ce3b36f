import RiscvBoot.Proofs.Path.Steps
import RiscvBoot.Proofs.Project.Frame

/-!
# The directory of the kernel crate

A manifest may say where the kernel crate is, seen from the project. However it spells the project's
own directory (`Path.components_eq_current_iff`), the crate is where joining leads, and the setup is
the one of a manifest that says nothing.
-/

set_option autoImplicit false

namespace RiscvBoot

/-! ## Spellings of the current directory -/

theorem Text.join_cons {sep : Char} {pieces : List (List Char)} (piece : List Char)
    (h : pieces ≠ []) : join sep (piece :: pieces) = piece ++ sep :: join sep pieces := by
  cases pieces with
  | nil => exact absurd rfl h
  | cons next pieces => rfl

namespace Path

variable {d p : Path}

theorem ofPiece?_eq_none_iff {piece : List Char} :
    Component.ofPiece? piece = none ↔ piece = [] ∨ piece = ['.'] := by
  unfold Component.ofPiece?
  split <;> simp_all

theorem steps_join_blanks {blanks : List (List Char)}
    (h : ∀ b ∈ blanks, b = [] ∨ b = ['.']) : steps (Text.join '/' blanks) = [] := by
  induction blanks with
  | nil => rfl
  | cons b blanks ih =>
    have hfirst : steps b = [] := by
      rcases h b List.mem_cons_self with rfl | rfl <;> rfl
    by_cases hlast : blanks = []
    · rw [hlast]
      exact hfirst
    · rw [Text.join_cons b hlast, steps_append, hfirst]
      exact ih fun c hc => h c (List.mem_cons_of_mem b hc)

theorem eq_current_append (h : d.components = [.current]) :
    lead d.chars = [.current] ∧ steps d.chars = [] := by
  rw [components_eq] at h
  rcases List.append_eq_cons_iff.1 h with ⟨-, hsteps⟩ | ⟨rest, hlead, hrest⟩
  · exact absurd (hsteps ▸ List.mem_cons_self) (current_not_mem_steps d.chars)
  · obtain ⟨rfl, hsteps⟩ := List.append_eq_nil_iff.1 hrest.symm
    exact ⟨hlead, hsteps⟩

/-- A path whose only step is the current directory begins with a point, and nothing but points
follows between its slashes. -/
theorem components_eq_current_iff : d.components = [.current] ↔
    ∃ blanks : List (List Char), (∀ b ∈ blanks, b = [] ∨ b = ['.']) ∧
      d.chars = Text.join '/' (['.'] :: blanks) := by
  constructor
  · intro hcurrent
    obtain ⟨hlead, hsteps⟩ := eq_current_append hcurrent
    rcases d.split_cases with ⟨body, hchars, -⟩ | ⟨body, hchars, -, hbody⟩ | ⟨hnoLead, -⟩
    · rw [hchars] at hlead
      cases hlead
    · rcases hbody with rfl | ⟨rest, rfl⟩
      · exact ⟨[], by simp, hchars⟩
      · have hrest : steps rest = [] := by
          rw [hchars] at hsteps
          exact (steps_append ['.'] rest).symm.trans hsteps
        refine ⟨Text.pieces '/' rest, ?_, ?_⟩
        · intro b hb
          exact ofPiece?_eq_none_iff.1 (List.filterMap_eq_nil_iff.1 hrest b hb)
        · rw [hchars, Text.join_cons _ (Text.pieces_ne_nil '/' rest), Text.join_pieces]
          rfl
    · rw [(lead_eq_nil_iff _).2 hnoLead] at hlead
      cases hlead
  · rintro ⟨blanks, hblanks, hchars⟩
    have hsteps : steps d.chars = [] := by
      rw [hchars]
      exact steps_join_blanks (by simpa using hblanks)
    rw [components_eq, hsteps, hchars]
    by_cases hnone : blanks = []
    · rw [hnone]
      rfl
    · rw [Text.join_cons _ hnone]
      rfl

theorem isAbsolute_of_current (h : d.components = [.current]) : d.isAbsolute = false := by
  rw [Bool.eq_false_iff]
  intro habsolute
  obtain ⟨rest, hrest⟩ := isAbsolute_iff.1 habsolute
  have hlead := (eq_current_append h).1
  rw [hrest] at hlead
  cases hlead

theorem components_join_current (hp : p.isAbsolute = true) (h : d.components = [.current]) :
    (p.join d).components = p.components := by
  have hne : p.chars ≠ [] := by
    obtain ⟨rest, hrest⟩ := isAbsolute_iff.1 hp
    rw [hrest]
    exact List.cons_ne_nil '/' rest
  rw [components_join (isAbsolute_of_current h) (.inl hne), (eq_current_append h).2,
    List.append_nil]

theorem sameAs_current_iff : d.sameAs ⟨"."⟩ = true ↔ d.components = [.current] :=
  decide_eq_true_iff

end Path

/-! ## The crate -/

namespace Manifest

variable {m : Manifest} {d projectDir : Path}

/-- The manifest with another setting for the directory of the kernel crate. -/
def withKernelDir (m : Manifest) (dir : Option Path) : Manifest :=
  { m with kernel := { m.kernel with dir } }

theorem components_kernelDir (habsolute : projectDir.isAbsolute = true)
    (hdir : m.kernel.dir = some d) :
    (m.kernelDir projectDir).components = (projectDir.join d).components := by
  unfold kernelDir
  rw [hdir]
  dsimp only
  split
  · rename_i hcurrent
    exact (Path.components_join_current habsolute (Path.sameAs_current_iff.1 hcurrent)).symm
  · rfl

theorem kernelDir_of_none (hdir : m.kernel.dir = none) : m.kernelDir projectDir = projectDir := by
  unfold kernelDir
  rw [hdir]

theorem kernelDir_withKernelDir_current (m : Manifest) (projectDir : Path)
    (hd : d.components = [.current]) :
    (m.withKernelDir (some d)).kernelDir projectDir = projectDir :=
  if_pos (Path.sameAs_current_iff.2 hd)

theorem Interchangeable.refl (m : Manifest) : Interchangeable m m where
  kernelDir := rfl
  targetDir := rfl
  binary := rfl
  package := rfl
  buildArgs := rfl
  emulator := rfl
  onError := rfl
  settleTimeout := rfl
  policy := rfl
  resolve _ _ := rfl
  doubts _ _ := rfl

theorem interchangeable_withKernelDir (m : Manifest) (hd : d.components = [.current]) :
    Interchangeable (m.withKernelDir none) (m.withKernelDir (some d)) where
  kernelDir := funext fun projectDir => kernelDir_withKernelDir_current m projectDir hd
  targetDir := rfl
  binary := rfl
  package := rfl
  buildArgs := rfl
  emulator := rfl
  onError := rfl
  settleTimeout := rfl
  policy := rfl
  resolve _ _ := rfl
  doubts _ _ := rfl

end Manifest

/-- A project whose manifest has another setting for the directory of the kernel crate. -/
def Project.withKernelDir (p : Project) (dir : Option Path) : Project :=
  { p with manifest := p.manifest.withKernelDir dir }

namespace Setup

variable {v v' : FileView} {cwd d : Path} {p : Project} {request : Request} {s : Setup}

theorem ofProject_withKernelDir (hd : d.components = [.current])
    (hpackage : v'.content? (p.dir.join packageFile) = v.content? (p.dir.join packageFile)) :
    ofProject v' cwd (p.withKernelDir (some d)) request =
      ofProject v cwd (p.withKernelDir none) request := by
  have hm := p.manifest.interchangeable_withKernelDir hd
  calc ofProject v' cwd (p.withKernelDir (some d)) request
      = (ofProject v cwd (p.withKernelDir none) request).map
          (withManifestPath · p.manifestPath) :=
        ofProject_congr hm (packageName?_congr hpackage) p.manifestPath p.manifestPath request
    _ = ofProject v cwd (p.withKernelDir none) request :=
        (ofProject_congr (.refl _) rfl p.manifestPath p.manifestPath request).symm

theorem eq_assemble_of_ofProject (h : ofProject v cwd p request = .ok s) :
    ∃ target binary, s = assemble cwd p request target binary := by
  obtain ⟨target, -, h⟩ := bind_eq_ok_iff.1 h
  obtain ⟨binary, -, h⟩ := bind_eq_ok_iff.1 h
  exact ⟨target, binary, (Except.ok.inj h).symm⟩

/-- The crate is the directory that joining leads to, step by step, also where a setting that means
the project's directory is passed over. Such a setting is a point followed by points and slashes,
and then the setup, with all its paths and the arguments of the build, is that of a manifest without
a setting, text by text. -/
theorem kernelDir_spelling :
    (∀ v cwd (p : Project) request s d, p.dir.isAbsolute = true → p.manifest.kernel.dir = some d →
      ofProject v cwd p request = .ok s →
      s.kernelDir.components = (p.dir.join d).components) ∧
    (∀ v cwd request s, cwd.isAbsolute = true → resolve v cwd request = .ok s →
      ∃ p, Project.find v cwd = .ok p ∧ p.dir.isAbsolute = true ∧
        s.kernelDir.components = ((p.manifest.kernel.dir.map p.dir.join).getD p.dir).components) ∧
    (∀ d : Path, d.components = [.current] ↔
      ∃ blanks : List (List Char), (∀ b ∈ blanks, b = [] ∨ b = ['.']) ∧
        d.chars = Text.join '/' (['.'] :: blanks)) ∧
    (∀ v cwd (p : Project) request (d : Path), d.components = [.current] →
      ofProject v cwd (p.withKernelDir (some d)) request =
        ofProject v cwd (p.withKernelDir none) request) ∧
    (∀ v cwd (p : Project) request (d : Path) s, d.components = [.current] →
      ofProject v cwd (p.withKernelDir (some d)) request = .ok s →
      s.kernelDir = p.dir ∧ s.builder.dir = p.dir ∧
        (request.targetDir = none →
          s.layout.targetDir = p.dir.join (p.manifest.kernel.targetDir.getD ⟨"target"⟩))) ∧
    ∀ v v' cwd (p : Project) request (d : Path), d.components = [.current] →
      Project.find v cwd = .ok (p.withKernelDir none) →
      Project.find v' cwd = .ok (p.withKernelDir (some d)) →
      v'.content? (p.dir.join packageFile) = v.content? (p.dir.join packageFile) →
      resolve v' cwd request = resolve v cwd request ∧
        doubts v' cwd request = doubts v cwd request := by
  refine ⟨?_, ?_, fun d => Path.components_eq_current_iff, ?_, ?_, ?_⟩
  · intro v cwd p request s d habsolute hdir hs
    obtain ⟨target, binary, rfl⟩ := eq_assemble_of_ofProject hs
    exact Manifest.components_kernelDir habsolute hdir
  · intro v cwd request s hcwd hs
    obtain ⟨p, target, binary, hp, -, -, rfl⟩ := resolve_eq_ok_iff.1 hs
    have habsolute := Project.isAbsolute_dir hcwd hp
    refine ⟨p, hp, habsolute, ?_⟩
    cases hdir : p.manifest.kernel.dir with
    | none => exact congrArg Path.components (Manifest.kernelDir_of_none hdir)
    | some d => exact Manifest.components_kernelDir habsolute hdir
  · intro v cwd p request d hd
    exact ofProject_withKernelDir hd rfl
  · intro v cwd p request d s hd hs
    obtain ⟨target, binary, rfl⟩ := eq_assemble_of_ofProject hs
    have hdir : (p.withKernelDir (some d)).manifest.kernelDir p.dir = p.dir :=
      p.manifest.kernelDir_withKernelDir_current p.dir hd
    refine ⟨hdir, hdir, fun hnone => ?_⟩
    change Manifest.targetDir _ cwd (Manifest.kernelDir _ p.dir) request.targetDir = _
    rw [hdir, hnone]
    rfl
  · intro v v' cwd p request d hd hp hp' hpackage
    constructor
    · rw [resolve_of_project hp, resolve_of_project hp']
      exact ofProject_withKernelDir hd hpackage
    · rw [doubts_of_project hp, doubts_of_project hp']
      rfl

/-- Joining would leave the points in the text of the directory, and the setup has none of them. -/
theorem kernelDir_spelling_sample :
    let dotted := manifestView "[kernel]\nbinary = \"k\"\ndir = \".//./\"\n"
    resolve dotted ⟨"/w"⟩ {} = .ok sample ∧ sample.kernelDir = ⟨"/w"⟩ ∧
      (Path.mk "/w").join ⟨".//./"⟩ = ⟨"/w/.//./"⟩ ∧
      sample.kernelDir.components = ((Path.mk "/w").join ⟨".//./"⟩).components := by
  intro dotted
  obtain ⟨hjoin, -, -, -, hpaths, htrees⟩ := kernelDir_spelling
  let p : Project := ⟨sampleManifest, some ⟨"/w/hartctl.toml"⟩, ⟨"/w"⟩⟩
  have hcurrent : (Path.mk ".//./").components = [.current] := by cbv
  have hfind : Project.find sampleView ⟨"/w"⟩ = .ok (p.withKernelDir none) :=
    find_of_manifestView ofText?_sampleManifest
  have hfind' : Project.find dotted ⟨"/w"⟩ = .ok (p.withKernelDir (some ⟨".//./"⟩)) :=
    find_of_manifestView (m := (p.withKernelDir (some ⟨".//./"⟩)).manifest) (by cbv)
  have hcontent : dotted.content? ((Path.mk "/w").join packageFile) =
      sampleView.content? ((Path.mk "/w").join packageFile) := by
    have hjoin : (Path.mk "/w").join packageFile = ⟨"/w/Cargo.toml"⟩ := rfl
    rw [hjoin, content?_packageFile_manifestView]
    exact (content?_packageFile_manifestView "[kernel]\nbinary = \"k\"\n").symm
  have hresolve : resolve dotted ⟨"/w"⟩ {} = .ok sample :=
    (htrees _ _ _ p {} _ hcurrent hfind hfind' hcontent).1.trans resolve_sampleView
  have hproject := (resolve_of_project hfind' {}).symm.trans hresolve
  have hsteps := hjoin _ _ (p.withKernelDir (some ⟨".//./"⟩)) _ _ _ (by cbv) rfl hproject
  exact ⟨hresolve, (hpaths _ _ p {} _ _ hcurrent hproject).1, by cbv, hsteps⟩

end Setup

end RiscvBoot
