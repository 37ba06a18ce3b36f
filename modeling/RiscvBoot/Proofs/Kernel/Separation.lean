import RiscvBoot.Proofs.Host.Places
import RiscvBoot.Proofs.Path.Steps
import RiscvBoot.Proofs.Project.Resolve

/-!
# One image for each family

The image of a relative executable stands below a directory that is named for the build target
(`Layout.components_image`), so the images of the two families are never the same file name, not
even under different target directories. An absolute executable replaces all that is before it, and
then there is one image for both families.
-/

set_option autoImplicit false

namespace RiscvBoot

/-! ## Names as steps -/

namespace Path

variable {name : String}

theorem IsName.lead_eq_nil (hname : IsName name) : lead name.toList = [] := by
  rw [lead_eq_nil_iff]
  refine ⟨?_, ?_, ?_⟩
  · intro hhead
    exact hname.noSlash (List.mem_of_mem_head? hhead)
  · intro hdot
    exact hname.not_point (String.toList_inj.1 hdot)
  · intro rest hrest
    apply hname.noSlash
    rw [hrest]
    simp

theorem IsName.steps_eq (hname : IsName name) : steps name.toList = [.name name] := by
  unfold steps
  rw [Text.pieces_of_not_mem hname.noSlash, List.filterMap_cons, List.filterMap_nil]
  have hpiece : Component.ofPiece? name.toList = some (.name name) := by
    unfold Component.ofPiece?
    split
    · rename_i hnil
      exact absurd (String.toList_eq_nil_iff.1 hnil) hname.not_empty
    · rename_i hdot
      exact absurd (String.toList_inj.1 hdot) hname.not_point
    · rename_i hdots
      exact absurd (String.toList_inj.1 hdots) hname.not_points
    · rw [String.ofList_toList]
  rw [hpiece]

/-- The steps of a name that is joined to a path come last, even if the path has no text. -/
theorem components_join_name (p : Path) (hname : IsName name) :
    (p.join ⟨name⟩).components = p.components ++ [.name name] := by
  rw [components_join hname.not_isAbsolute (.inr hname.lead_eq_nil)]
  exact congrArg _ hname.steps_eq

theorem chars_join_name_ne_nil (p : Path) (hname : IsName name) :
    (p.join ⟨name⟩).chars ≠ [] := by
  rw [chars_join p hname]
  intro hnil
  exact hname.not_empty (String.toList_eq_nil_iff.1 (List.append_eq_nil_iff.1 hnil).2)

end Path

/-! ## Images -/

namespace Isa

theorem isName_buildTarget (a : Isa) : Path.IsName a.buildTarget := by
  cases a <;> constructor <;> decide

theorem buildTarget_injective {a a' : Isa} (h : a.buildTarget = a'.buildTarget) : a = a' := by
  cases a <;> cases a' <;> first | rfl | exact absurd h (by decide)

end Isa

namespace Layout

variable {l l' : Layout} {a a' : Isa}

theorem isName_profileDir : Path.IsName profileDir.text := by
  constructor <;> decide

theorem image_of_isAbsolute (habsolute : (Path.mk l.binary).isAbsolute = true)
    (buildTarget : String) : l.image buildTarget = ⟨l.binary⟩ :=
  Path.join_of_isAbsolute _ habsolute

theorem components_image (hrelative : (Path.mk l.binary).isAbsolute = false) (a : Isa) :
    (l.image a.buildTarget).components =
      l.targetDir.components ++ [.name a.buildTarget, .name "debug"] ++
        Path.steps l.binary.toList := by
  unfold image
  rw [Path.components_join hrelative (.inl (Path.chars_join_name_ne_nil _ isName_profileDir)),
    Path.components_join_name _ isName_profileDir,
    Path.components_join_name _ a.isName_buildTarget, List.append_assoc l.targetDir.components]
  rfl

/-- The same executable has images of its own for each family, wherever the two builds write to. -/
theorem arch_eq_of_sameAs (hrelative : (Path.mk l.binary).isAbsolute = false)
    (hbinary : l'.binary = l.binary)
    (hsame : (l.image a.buildTarget).sameAs (l'.image a'.buildTarget) = true) : a = a' := by
  have hcomponents : (l.image a.buildTarget).components = (l'.image a'.buildTarget).components :=
    of_decide_eq_true hsame
  rw [components_image hrelative, components_image (hbinary ▸ hrelative), hbinary,
    List.append_cancel_right_eq] at hcomponents
  have hlast := (List.append_inj' hcomponents rfl).2
  exact Isa.buildTarget_injective (Path.Component.name.inj (List.cons.inj hlast).1)

end Layout

/-! ## Setups -/

namespace Setup

variable {v : FileView} {cwd : Path} {request request' : Request} {s s' : Setup}

/-- What is asked for has no say in which executable is booted. -/
theorem binary_eq_of_resolve (hs : resolve v cwd request = .ok s)
    (hs' : resolve v cwd request' = .ok s') : s'.layout.binary = s.layout.binary := by
  obtain ⟨p, target, binary, hp, -, hbinary, rfl⟩ := resolve_eq_ok_iff.1 hs
  obtain ⟨p', target', binary', hp', -, hbinary', rfl⟩ := resolve_eq_ok_iff.1 hs'
  obtain rfl := Except.ok.inj (hp.symm.trans hp')
  exact Except.ok.inj (hbinary'.symm.trans hbinary)

end Setup

/-- The two families share an image exactly if the executable is absolute. A relative one stands
below the target directory and the build target of its family, so two setups of one directory that
boot the same file boot it on the same family, whatever target directories they are given. -/
theorem Layout.images_apart :
    (∀ l : Layout, (l.image Isa.rv32.buildTarget).sameAs (l.image Isa.rv64.buildTarget) = true ↔
      (Path.mk l.binary).isAbsolute = true) ∧
    (∀ (l : Layout) (a : Isa), (Path.mk l.binary).isAbsolute = false →
      l.targetDir.components ++ [.name a.buildTarget, .name "debug"] <+:
        (l.image a.buildTarget).components) ∧
    (∀ (l l' : Layout) (a a' : Isa), (Path.mk l.binary).isAbsolute = false →
      l'.binary = l.binary →
      (l.image a.buildTarget).sameAs (l'.image a'.buildTarget) = true → a = a') ∧
    ∀ v cwd request request' s s', Setup.resolve v cwd request = .ok s →
      Setup.resolve v cwd request' = .ok s' →
      s'.layout.binary = s.layout.binary ∧
      ((Path.mk s.layout.binary).isAbsolute = false → s.image.sameAs s'.image = true →
        s.target.arch = s'.target.arch) ∧
      ((Path.mk s.layout.binary).isAbsolute = true → s.image = s'.image) := by
  refine ⟨?_, ?_, fun _ _ _ _ => arch_eq_of_sameAs, ?_⟩
  · intro l
    constructor
    · intro hsame
      cases habsolute : (Path.mk l.binary).isAbsolute with
      | true => rfl
      | false =>
        have harch := arch_eq_of_sameAs habsolute rfl hsame
        cases harch
    · intro habsolute
      rw [image_of_isAbsolute habsolute, image_of_isAbsolute habsolute]
      exact decide_eq_true rfl
  · intro l a hrelative
    rw [components_image hrelative]
    exact List.prefix_append _ _
  · intro v cwd request request' s s' hs hs'
    have hbinary := Setup.binary_eq_of_resolve hs hs'
    refine ⟨hbinary, fun hrelative => arch_eq_of_sameAs hrelative hbinary, ?_⟩
    intro habsolute
    unfold Setup.image
    rw [image_of_isAbsolute habsolute, image_of_isAbsolute (hbinary ▸ habsolute), hbinary]

/-- Two files for a relative executable; one file for an absolute one, which a manifest may name. -/
theorem Layout.images_apart_sample :
    let rv32 : Request := { choice := ⟨some "rv32", none⟩, targetDir := some ⟨"target/."⟩ }
    let absolute := Setup.manifestView "[kernel]\nbinary = \"/k\"\n"
    (∃ s, Setup.resolve Setup.sampleView ⟨"/w"⟩ rv32 = .ok s ∧
      Setup.resolve Setup.sampleView ⟨"/w"⟩ {} = .ok Setup.sample ∧
      s.image.sameAs Setup.sample.image = false) ∧
    ∃ s s', Setup.resolve absolute ⟨"/w"⟩ rv32 = .ok s ∧
      Setup.resolve absolute ⟨"/w"⟩ {} = .ok s' ∧
      s.target.arch = .rv32 ∧ s'.target.arch = .rv64 ∧ s.image = s'.image := by
  intro rv32 absolute
  obtain ⟨-, -, -, hsetups⟩ := images_apart
  have htarget : ({ choice := ⟨some "rv32", none⟩ } : Request).choice.resolve .lenient =
      .ok { arch := .rv32 } := rfl
  constructor
  · have hs : Setup.resolve Setup.sampleView ⟨"/w"⟩ rv32 = .ok _ :=
      Setup.resolve_of_manifest Setup.entry_sampleView Setup.ofText?_sampleManifest rfl htarget
    refine ⟨_, hs, Setup.resolve_sampleView, ?_⟩
    obtain ⟨-, harch, -⟩ := hsetups _ _ _ _ _ _ hs Setup.resolve_sampleView
    rw [Bool.eq_false_iff]
    intro hsame
    have hfamilies : Isa.rv32 = Isa.rv64 := harch (by decide) hsame
    cases hfamilies
  · have hm : Manifest.ofText? "[kernel]\nbinary = \"/k\"\n" =
        some { kernel := { binary := some "/k" } } := by cbv
    have hentry := Setup.entry_manifestView "[kernel]\nbinary = \"/k\"\n"
    have hs : Setup.resolve absolute ⟨"/w"⟩ rv32 = .ok _ :=
      Setup.resolve_of_manifest hentry hm rfl htarget
    have hs' : Setup.resolve absolute ⟨"/w"⟩ {} = .ok _ :=
      Setup.resolve_of_manifest hentry hm rfl rfl
    obtain ⟨-, -, hsame⟩ := hsetups _ _ _ _ _ _ hs hs'
    exact ⟨_, _, hs, hs', rfl, rfl, hsame (by decide)⟩

end RiscvBoot
