import RiscvBoot.Host.FileTree
import RiscvBoot.Proofs.Except
import RiscvBoot.Proofs.Path.Join

/-!
# Where paths lead

Following a path needs a directory at every step, so where it leads is decided by the directories
of the tree (`FileTree.SameDirectories`). A file that comes, goes or changes at one place is seen
only by the paths that lead to this very place (`FileTree.AlikeBut`). The path of a name in a
directory leads right below the place of the directory (`FileTree.locate_join_name`).
-/

set_option autoImplicit false

namespace RiscvBoot

/-! ## Names in a directory -/

namespace Path

variable {p d : Path} {name : String}

/-- A text that can be the last step of a path. -/
structure IsName (name : String) : Prop where
  noSlash : '/' ∉ name.toList
  not_empty : name ≠ ""
  not_point : name ≠ "."
  not_points : name ≠ ".."

theorem IsName.not_isAbsolute (hname : IsName name) : (Path.mk name).isAbsolute = false := by
  rw [Bool.eq_false_iff]
  intro habsolute
  obtain ⟨rest, hrest⟩ := isAbsolute_iff.1 habsolute
  apply hname.noSlash
  change '/' ∈ (Path.mk name).chars
  rw [hrest]
  exact List.mem_cons_self

theorem chars_join (d : Path) (hname : IsName name) :
    (d.join ⟨name⟩).chars = d.stem ++ name.toList :=
  chars_join_of_relative d hname.not_isAbsolute

theorem text_join (d : Path) (hname : IsName name) :
    ∃ rest, (d.join ⟨name⟩).text = d.text ++ rest := by
  unfold join
  rw [if_neg (by simp [hname.not_isAbsolute])]
  split
  · exact ⟨name, rfl⟩
  · exact ⟨"/" ++ name, String.append_assoc⟩

theorem stem_cases (d : Path) : d.chars = [] ∧ d.stem = [] ∨
    (∃ front, d.chars = front ++ ['/'] ∧ d.stem = front ++ ['/']) ∨
    d.stem = d.chars ++ ['/'] := by
  unfold stem
  split
  · rename_i hlast
    rcases List.eq_nil_or_concat d.chars with hnil | ⟨front, c, hfront⟩
    · exact .inl ⟨hnil, hnil⟩
    · rw [hfront, List.concat_eq_append, List.getLast?_append, List.getLast?_singleton] at hlast
      have hc : c = '/' := by simpa using hlast
      rw [hc, List.concat_eq_append] at hfront
      exact .inr (.inl ⟨front, hfront, hfront⟩)
  · exact .inr (.inr rfl)

/-- The pieces of a joined path are those of the directory, but for an empty last one, and the
name. -/
theorem pieces_join (d : Path) (hname : IsName name) :
    ∃ front, Text.pieces '/' (d.join ⟨name⟩).chars = front ++ [name.toList] ∧
      (d.chars = [] ∨ Text.pieces '/' d.chars = front ∨
        Text.pieces '/' d.chars = front ++ [[]]) := by
  have hlast := Text.pieces_of_not_mem hname.noSlash
  rw [chars_join d hname]
  rcases d.stem_cases with ⟨hnil, hstem⟩ | ⟨front, hfront, hstem⟩ | hstem
  · exact ⟨[], by rw [hstem, List.nil_append, hlast]; rfl, .inl hnil⟩
  · refine ⟨Text.pieces '/' front, ?_, .inr (.inr ?_)⟩
    · rw [hstem, List.append_assoc, List.singleton_append, Text.pieces_append, hlast]
    · rw [hfront, Text.pieces_append]
      rfl
  · refine ⟨Text.pieces '/' d.chars, ?_, .inr (.inl rfl)⟩
    rw [hstem, List.append_assoc, List.singleton_append, Text.pieces_append, hlast]

theorem withoutEndSlashes_join (d : Path) (hname : IsName name) :
    (d.join ⟨name⟩).withoutEndSlashes = d.join ⟨name⟩ ∧
      (d.join ⟨name⟩).chars.getLast? ≠ some '/' := by
  have hchars := chars_join d hname
  obtain ⟨c, cs, hreverse⟩ : ∃ c cs, name.toList.reverse = c :: cs := by
    apply List.exists_cons_of_ne_nil
    intro hnil
    exact hname.not_empty (String.toList_eq_nil_iff.1 (List.reverse_eq_nil_iff.1 hnil))
  have hc : c ≠ '/' := by
    rintro rfl
    apply hname.noSlash
    rw [← List.mem_reverse, hreverse]
    exact List.mem_cons_self
  have hback : (d.join ⟨name⟩).chars.reverse = c :: (cs ++ d.stem.reverse) := by
    rw [hchars, List.reverse_append, hreverse, List.cons_append]
  constructor
  · unfold withoutEndSlashes
    rw [hback, List.dropWhile_cons_of_neg (by simpa using hc), ← hback, List.reverse_reverse]
    split
    · rename_i hnil
      rw [hnil] at hback
      cases hback
    · exact congrArg Path.mk String.ofList_toList
  · rw [List.getLast?_eq_head?_reverse, hback]
    simpa using hc

end Path

/-! ## Following a path -/

namespace FileTree

variable {t t' : FileTree} {workDir here there place : Location} {pieces : List String} {p : Path}

theorem walk_append (t : FileTree) (here : Location) (xs ys : List String) :
    t.walk here (xs ++ ys) = (t.walk here xs).bind fun there => t.walk there ys := by
  induction xs generalizing here with
  | nil => rfl
  | cons x xs ih =>
    rw [List.cons_append, walk, walk]
    match t.get? here with
    | none => rfl
    | some (.file _ _) => rfl
    | some .directory =>
      dsimp only
      split
      · rfl
      · exact ih (step here x)

theorem walk_cons_eq_ok_iff {piece : String} : t.walk here (piece :: pieces) = .ok there ↔
    t.get? here = some .directory ∧ piece.utf8ByteSize ≤ nameLimit ∧
      t.walk (step here piece) pieces = .ok there := by
  rw [walk]
  match t.get? here with
  | none => simp
  | some (.file _ _) => simp
  | some .directory =>
    dsimp only
    split
    · rename_i hlong
      simp [Nat.not_le.2 hlong]
    · rename_i hshort
      simp [Nat.not_lt.1 hshort]

/-- The text of a path can be followed at all. -/
structure Followable (p : Path) : Prop where
  noNul : '\x00' ∉ p.chars
  not_empty : p.text ≠ ""
  short : p.text.utf8ByteSize < pathLimit

theorem locate_eq_ok_iff : t.locate workDir p = .ok there ↔ Followable p ∧
    t.walk (if p.isAbsolute then [] else workDir)
      ((Text.pieces '/' p.chars).map String.ofList) = .ok there := by
  unfold locate
  constructor
  · intro h
    split at h
    · cases h
    · rename_i hnul
      split at h
      · cases h
      · rename_i hempty
        split at h
        · cases h
        · rename_i hlong
          refine ⟨⟨by simpa using hnul, hempty, Nat.not_le.1 hlong⟩, ?_⟩
          dsimp only at h
          split at h
          · rename_i habsolute
            rwa [if_pos habsolute]
          · rename_i habsolute
            rwa [if_neg habsolute]
  · rintro ⟨⟨hnul, hempty, hshort⟩, hwalk⟩
    rw [if_neg (by simpa using hnul), if_neg hempty, if_neg (Nat.not_le.2 hshort)]
    dsimp only
    split at hwalk
    · rename_i habsolute
      rwa [if_pos habsolute]
    · rename_i habsolute
      rwa [if_neg habsolute]

/-! ## The same directories -/

def SameDirectories (t t' : FileTree) : Prop :=
  ∀ here, t'.get? here = some .directory ↔ t.get? here = some .directory

theorem SameDirectories.walk (h : SameDirectories t t') :
    t'.walk here pieces = .ok there ↔ t.walk here pieces = .ok there := by
  induction pieces generalizing here with
  | nil => rfl
  | cons piece pieces ih => rw [walk_cons_eq_ok_iff, walk_cons_eq_ok_iff, h here, ih]

theorem SameDirectories.locate (h : SameDirectories t t') :
    t'.locate workDir p = .ok there ↔ t.locate workDir p = .ok there := by
  rw [locate_eq_ok_iff, locate_eq_ok_iff, h.walk]

theorem SameDirectories.refl (t : FileTree) : SameDirectories t t := fun _ => Iff.rfl

theorem SameDirectories.trans {t'' : FileTree} (h : SameDirectories t t')
    (h' : SameDirectories t' t'') : SameDirectories t t'' := fun here => (h' here).trans (h here)

/-- Two trees that differ at one place at most, where neither has a directory. -/
structure AlikeBut (t t' : FileTree) (place : Location) : Prop where
  elsewhere : ∀ here, here ≠ place → t'.get? here = t.get? here
  left : t.get? place ≠ some .directory
  right : t'.get? place ≠ some .directory

theorem AlikeBut.sameDirectories (h : AlikeBut t t' place) : SameDirectories t t' := by
  intro here
  by_cases hhere : here = place
  · subst hhere
    exact ⟨fun hright => absurd hright h.right, fun hleft => absurd hleft h.left⟩
  · rw [h.elsewhere here hhere]

theorem alikeBut_put {content : ByteArray} {executable : Bool}
    (h : t.get? place ≠ some .directory) :
    AlikeBut t (t.put place (.file content executable)) place := by
  have hplace : place ≠ [] := by
    rintro rfl
    exact h rfl
  refine ⟨fun here hhere => get?_put_of_ne hhere _, h, ?_⟩
  rw [get?_put_self hplace]
  simp

/-! ## Names below a place -/

theorem step_name {name : String} (hname : Path.IsName name) : step here name = here ++ [name] := by
  unfold step
  rw [if_neg (by simp [hname.not_empty, hname.not_point]), if_neg hname.not_points]

theorem Followable.of_join {d : Path} {name : String} (hname : Path.IsName name)
    (h : Followable (d.join ⟨name⟩)) (hd : d.text ≠ "") :
    Followable d ∧ d.isAbsolute = (d.join ⟨name⟩).isAbsolute := by
  obtain ⟨rest, hrest⟩ := d.text_join hname
  obtain ⟨hnul, -, hshort⟩ := h
  have hchars : (d.join ⟨name⟩).chars = d.chars ++ rest.toList := by
    rw [Path.chars, hrest, String.toList_append]
    rfl
  refine ⟨⟨?_, hd, ?_⟩, ?_⟩
  · intro hmem
    apply hnul
    rw [hchars]
    exact List.mem_append_left _ hmem
  · rw [hrest, String.utf8ByteSize_append] at hshort
    omega
  · obtain ⟨c, cs, hcs⟩ : ∃ c cs, d.chars = c :: cs := by
      apply List.exists_cons_of_ne_nil
      intro hnil
      exact hd (String.toList_eq_nil_iff.1 hnil)
    unfold Path.isAbsolute
    rw [hchars, hcs]
    rfl

/-- The path of a name in a directory leads right below the directory. -/
theorem locate_join_name {d : Path} {name : String} (hname : Path.IsName name)
    (h : t.locate workDir (d.join ⟨name⟩) = .ok place) :
    ∃ dir, place = dir ++ [name] ∧ t.get? dir = some .directory ∧
      (d.text ≠ "" → t.locate workDir d = .ok dir) := by
  obtain ⟨hfollow, hwalk⟩ := locate_eq_ok_iff.1 h
  obtain ⟨front, hpieces, hdir⟩ := d.pieces_join hname
  rw [hpieces, List.map_append, walk_append] at hwalk
  obtain ⟨dir, hfront, hlast⟩ := bind_eq_ok_iff.1 hwalk
  rw [List.map_singleton, String.ofList_toList, walk_cons_eq_ok_iff] at hlast
  obtain ⟨hdirectory, -, hplace⟩ := hlast
  rw [step_name hname] at hplace
  refine ⟨dir, (Except.ok.inj hplace).symm, hdirectory, ?_⟩
  intro hd
  obtain ⟨hfollow, habsolute⟩ := hfollow.of_join hname hd
  rw [locate_eq_ok_iff]
  refine ⟨hfollow, ?_⟩
  rw [habsolute]
  rcases hdir with hnil | hsame | hslash
  · exact absurd (String.toList_eq_nil_iff.1 hnil) hd
  · rwa [hsame]
  · -- The empty piece after a last slash stays in the directory.
    rw [hslash, List.map_append, walk_append, hfront]
    exact walk_cons_eq_ok_iff.2 ⟨hdirectory, by decide, rfl⟩

end FileTree

/-! ## What is seen at a path -/

namespace FileView

variable {v : FileView} {t : FileTree} {p d : Path} {e : Entry} {place : Location}

theorem entry_eq_ok_iff : v.entry p = .ok e ↔
    ∃ here, v.tree.locate v.workDir p = .ok here ∧ v.tree.get? here = some e := by
  unfold entry
  rw [bind_eq_ok_iff]
  apply exists_congr
  intro here
  apply and_congr_right
  intro _
  cases v.tree.get? here with
  | none => exact ⟨nofun, nofun⟩
  | some found =>
    constructor
    · intro h
      exact congrArg some (Except.ok.inj h)
    · intro h
      exact congrArg Except.ok (Option.some.inj h)

theorem isOccupied_eq_false_iff : v.isOccupied p = false ↔ ∀ e, v.entry p ≠ .ok e := by
  unfold isOccupied
  cases v.entry p with
  | error e => simp
  | ok e => simp

/-- A change at one place is seen only by the paths that lead there. -/
theorem entry_of_alikeBut (h : FileTree.AlikeBut v.tree t place)
    (hp : v.tree.locate v.workDir p ≠ .ok place) :
    { v with tree := t }.entry p = .ok e ↔ v.entry p = .ok e := by
  rw [entry_eq_ok_iff, entry_eq_ok_iff]
  apply exists_congr
  intro here
  dsimp only
  rw [h.sameDirectories.locate]
  apply and_congr_right
  intro hhere
  have hne : here ≠ place := by
    rintro rfl
    exact hp hhere
  rw [h.elsewhere here hne]

theorem locate_join_ne {name : String} (hname : Path.IsName name)
    (hplace : place.getLast? ≠ some name) :
    v.tree.locate v.workDir (d.join ⟨name⟩) ≠ .ok place := by
  intro h
  obtain ⟨dir, rfl, -, -⟩ := FileTree.locate_join_name hname h
  exact hplace (by simp)

end FileView

end RiscvBoot
