import RiscvBoot.Path

/-!
# Absolute paths

Being absolute is kept by joining anything to a path and by going to its parents, and an absolute
path seen from anywhere is itself.
-/

set_option autoImplicit false

namespace RiscvBoot.Path

variable {p q : Path}

theorem isAbsolute_iff : p.isAbsolute = true ↔ ∃ rest, p.chars = '/' :: rest := by
  unfold isAbsolute
  cases p.chars with
  | nil => simp
  | cons c rest => simp

theorem isAbsolute_ofChars (rest : List Char) : (ofChars ('/' :: rest)).isAbsolute = true := by
  refine isAbsolute_iff.2 ⟨rest, ?_⟩
  exact String.toList_ofList

theorem join_of_isAbsolute (p : Path) (hq : q.isAbsolute = true) : p.join q = q := by
  unfold join
  exact if_pos hq

theorem isAbsolute_join (hp : p.isAbsolute = true) (q : Path) : (p.join q).isAbsolute = true := by
  obtain ⟨rest, hrest⟩ := isAbsolute_iff.1 hp
  unfold chars at hrest
  unfold join
  split
  · assumption
  · split
    · refine isAbsolute_iff.2 ⟨rest ++ q.text.toList, ?_⟩
      rw [chars, String.toList_append, hrest, List.cons_append]
    · refine isAbsolute_iff.2 ⟨rest ++ "/".toList ++ q.text.toList, ?_⟩
      rw [chars, String.toList_append, String.toList_append, hrest, List.cons_append,
        List.cons_append]

theorem isAbsolute_parent (hp : p.isAbsolute = true) (hq : p.parent? = some q) :
    q.isAbsolute = true := by
  obtain ⟨body, hbody⟩ := isAbsolute_iff.1 hp
  have hsplit : p.split = (['/'], body) := by
    unfold split
    rw [hbody]
    rfl
  unfold parent? at hq
  rw [hsplit] at hq
  dsimp only at hq
  split at hq
  · simp at hq
  · obtain rfl := Option.some.inj hq
    exact isAbsolute_ofChars _

theorem isAbsolute_of_mem_ancestors (hp : p.isAbsolute = true) (hq : q ∈ p.ancestors) :
    q.isAbsolute = true := by
  induction p using ancestors.induct with
  | case1 p ih =>
    rw [ancestors] at hq
    rcases List.mem_cons.1 hq with rfl | hq
    · exact hp
    · split at hq
      · simp at hq
      · rename_i parent hparent
        exact ih parent hparent (isAbsolute_parent hp hparent) hq

end RiscvBoot.Path
