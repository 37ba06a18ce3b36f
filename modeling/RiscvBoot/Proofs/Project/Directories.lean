import RiscvBoot.Proofs.Boot.Order
import RiscvBoot.Proofs.Project.Resolve

/-!
# One directory for the build and the boot

The build program is told in the directory of the kernel crate where to write, and the emulator is
started from the working directory on what it has left there. Both mean the same place because
every directory of a setup is absolute.
-/

set_option autoImplicit false

namespace RiscvBoot

variable {cwd : Path}

theorem Manifest.isAbsolute_kernelDir (m : Manifest) {projectDir : Path}
    (h : projectDir.isAbsolute = true) : (m.kernelDir projectDir).isAbsolute = true := by
  unfold kernelDir
  split
  · split
    · exact h
    · exact Path.isAbsolute_join h _
  · exact h

theorem Manifest.isAbsolute_targetDir (m : Manifest) {kernelDir : Path}
    (hcwd : cwd.isAbsolute = true) (hkernel : kernelDir.isAbsolute = true)
    (given : Option Path) : (m.targetDir cwd kernelDir given).isAbsolute = true := by
  unfold targetDir
  split
  · exact Path.isAbsolute_join hcwd _
  · exact Path.isAbsolute_join hkernel _

namespace Setup

theorem args_builder (s : Setup) (buildTarget : String) :
    s.builder.args buildTarget =
      ["build", "--target", buildTarget, "--target-dir", s.layout.targetDir.text] ++
        Text.option "--package" s.package ++ Text.option "--bin" s.binary ++ s.buildArgs := rfl

/-- The kernel that the emulator is given is where the build is told to write, whatever directory
that is seen from. -/
theorem directories_agree {v : FileView} {request : Request} {s : Setup}
    (hcwd : cwd.isAbsolute = true) (hs : resolve v cwd request = .ok s) :
    s.kernelDir.isAbsolute = true ∧ s.layout.targetDir.isAbsolute = true ∧
    (∃ p, Project.find v cwd = .ok p ∧ s.kernelDir = p.manifest.kernelDir p.dir ∧
      s.layout.targetDir = (match request.targetDir with
        | some dir => cwd.join dir
        | none => s.kernelDir.join (p.manifest.kernel.targetDir.getD ⟨"target"⟩)) ∧
      (∀ buildTarget, s.builder.args buildTarget =
        ["build", "--target", buildTarget, "--target-dir", s.layout.targetDir.text] ++
          Text.option "--package" p.manifest.kernel.package ++
          Text.option "--bin" p.manifest.kernel.binary ++ p.manifest.kernel.buildArgs) ∧
      match p.manifest.kernel.binary with
      | some name => s.layout.binary = name
      | none => ∃ t package entry,
          v.isFile (s.kernelDir.join ⟨"Cargo.toml"⟩) = true ∧
          v.load openTables (s.kernelDir.join ⟨"Cargo.toml"⟩) = .ok t ∧
          t.get? "package" = some package ∧ package.get? "name" = some entry ∧
          entry.text? = some s.layout.binary) ∧
    s.builder.dir = s.kernelDir ∧ s.kernelDir.join s.layout.targetDir = s.layout.targetDir ∧
    ∀ extraArgs,
      let image := ((s.layout.targetDir.join ⟨s.target.buildTarget⟩).join ⟨"debug"⟩).join
        ⟨s.layout.binary⟩
      s.image = image ∧ (s.plan extraArgs).image = image ∧
      (s.plan extraArgs).command.kernel = image ∧
      (s.plan extraArgs).command.args =
        ["-machine", "virt", "-smp", s.target.harts.text, "-nographic", "-serial", "mon:stdio"] ++
          Text.option "-m" s.tuning.memory ++ Text.option "-bios" s.tuning.bios ++
          ["-kernel", image.text] ++ s.tuning.extraArgs ++ extraArgs := by
  obtain ⟨p, target, binary, hp, htarget, hbinary, rfl⟩ := resolve_eq_ok_iff.1 hs
  have hproject := Project.isAbsolute_dir hcwd hp
  have hkernel := p.manifest.isAbsolute_kernelDir hproject
  have hdir := p.manifest.isAbsolute_targetDir hcwd hkernel request.targetDir
  refine ⟨hkernel, hdir, ⟨p, hp, rfl, rfl, fun buildTarget => args_builder _ buildTarget, ?_⟩, rfl,
    Path.join_of_isAbsolute _ hdir, ?_⟩
  · rcases Manifest.binaryName_eq_ok_iff.1 hbinary with hgiven | ⟨hnone, hpackage⟩
    · rw [hgiven]
      rfl
    · obtain ⟨hfile, t, package, entry, hload, ht, hname, htext⟩ :=
        packageName?_eq_some_iff.1 hpackage
      rw [hnone]
      exact ⟨t, package, entry, hfile, hload, ht, hname, htext⟩
  · intro extraArgs
    exact ⟨rfl, rfl, rfl, args_plan _ extraArgs⟩

theorem directories_agree_sample :
    (Path.mk "/w").isAbsolute = true ∧ resolve sampleView ⟨"/w"⟩ {} = .ok sample ∧
      sample.kernelDir.isAbsolute = true ∧ sample.layout.targetDir.isAbsolute = true ∧
      sample.kernelDir.join sample.layout.targetDir = sample.layout.targetDir ∧
      ∀ extraArgs, (sample.plan extraArgs).command.kernel = sample.image := by
  have hcwd : (Path.mk "/w").isAbsolute = true := by cbv
  obtain ⟨hkernel, htarget, -, -, hjoin, himage⟩ := directories_agree hcwd resolve_sampleView
  refine ⟨hcwd, resolve_sampleView, hkernel, htarget, hjoin, fun extraArgs => ?_⟩
  obtain ⟨hsetup, -, hcommand, -⟩ := himage extraArgs
  exact hcommand.trans hsetup.symm

end Setup

end RiscvBoot
