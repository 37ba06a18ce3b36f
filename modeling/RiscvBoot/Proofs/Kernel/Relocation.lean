import RiscvBoot.Kernel.Layout
import RiscvBoot.Proofs.Path.Join

/-!
# Layouts seen from elsewhere

Seeing a layout from a directory joins that directory to its target directory, and nothing else
(`Layout.within_eq`), because an absolute target directory replaces what is before it. Joining is
associative, so a row of directories is one directory, and seeing a layout from elsewhere moves
the image along.
-/

set_option autoImplicit false

namespace RiscvBoot.Layout

variable (l : Layout)

/-- The case of an absolute target directory is no case of its own. -/
theorem within_eq (base : Path) :
    l.within base = { l with targetDir := base.join l.targetDir } := by
  unfold within
  split
  · rename_i habsolute
    rw [Path.join_of_isAbsolute base habsolute]
  · rfl

theorem image_within (base : Path) (buildTarget : String) :
    (l.within base).image buildTarget = base.join (l.image buildTarget) := by
  rw [within_eq]
  unfold image
  simp only [Path.join_assoc]

theorem foldl_within (bases : List Path) :
    bases.foldl within l = { l with targetDir := bases.reverse.foldr Path.join l.targetDir } := by
  induction bases generalizing l with
  | nil => rfl
  | cons base bases ih =>
    rw [List.foldl_cons, ih, within_eq, List.reverse_cons, List.foldr_append]
    rfl

theorem foldl_within_of_isAbsolute (bases : List Path) (habsolute : l.targetDir.isAbsolute = true) :
    bases.foldl within l = l := by
  induction bases with
  | nil => rfl
  | cons base bases ih =>
    have hsame : l.within base = l := if_pos habsolute
    rw [List.foldl_cons, hsame, ih]

/-- A row of directories, nearest first, is the one directory that they join to. Nothing after an
absolute one counts, an absolute target directory stays where it is, and the image moves along. -/
theorem within_bases :
    (∀ (nearer : List Path) (last : Path), (nearer ++ [last]).foldl within l =
      l.within (nearer.reverse.foldl Path.join last)) ∧
    (∀ (nearer : List Path) (base : Path) (further : List Path), base.isAbsolute = true →
      (nearer ++ base :: further).foldl within l = (nearer ++ [base]).foldl within l) ∧
    (∀ bases : List Path, l.targetDir.isAbsolute = true → bases.foldl within l = l) ∧
    (∀ bases : List Path, (bases.foldl within l).binary = l.binary) ∧
    ∀ (base : Path) (buildTarget : String),
      (l.within base).image buildTarget = base.join (l.image buildTarget) := by
  refine ⟨?_, ?_, fun bases habsolute => l.foldl_within_of_isAbsolute bases habsolute, ?_,
    l.image_within⟩
  · intro nearer last
    rw [foldl_within, within_eq, Path.foldl_join, List.reverse_append]
    rfl
  · intro nearer base further habsolute
    have hdir : ((nearer ++ [base]).foldl within l).targetDir.isAbsolute = true := by
      rw [foldl_within, List.reverse_append]
      exact Path.isAbsolute_join habsolute _
    rw [← foldl_within_of_isAbsolute _ further hdir, ← List.foldl_append, List.append_assoc]
    rfl
  · intro bases
    rw [foldl_within]

theorem within_bases_sample :
    let l : Layout := ⟨⟨"t"⟩, "k"⟩
    (Path.mk "/w").isAbsolute = true ∧
      [⟨"a/"⟩, ⟨"/w"⟩, ⟨"b"⟩].foldl within l = [⟨"a/"⟩, ⟨"/w"⟩].foldl within l ∧
      [⟨"a/"⟩, ⟨"/w"⟩].foldl within l = l.within (Path.join ⟨"/w"⟩ ⟨"a/"⟩) ∧
      Path.join ⟨"/w"⟩ ⟨"a/"⟩ = ⟨"/w/a/"⟩ ∧
      (Path.mk "/t").isAbsolute = true ∧ [⟨"b"⟩].foldl within ⟨⟨"/t"⟩, "k"⟩ = ⟨⟨"/t"⟩, "k"⟩ := by
  intro l
  have hbase : (Path.mk "/w").isAbsolute = true := by decide
  have hdir : (Path.mk "/t").isAbsolute = true := by decide
  obtain ⟨hone, hcut, -, -, -⟩ := within_bases l
  obtain ⟨-, -, hfixed, -, -⟩ := within_bases ⟨⟨"/t"⟩, "k"⟩
  exact ⟨hbase, hcut [⟨"a/"⟩] ⟨"/w"⟩ [⟨"b"⟩] hbase, hone [⟨"a/"⟩] ⟨"/w"⟩, by decide, hdir,
    hfixed [⟨"b"⟩] hdir⟩

end RiscvBoot.Layout
