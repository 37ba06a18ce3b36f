import RiscvBoot.Proofs.Path.Join

/-!
# The steps of a joined path

The first two characters of a path decide how its steps begin (`Path.lead`), and the rest of its
steps stand between its slashes. A relative path that is joined to a path adds its own steps to
those of the path (`Path.components_join`), so spellings of one directory stay spellings of one
directory below it.
-/

set_option autoImplicit false

namespace RiscvBoot.Path

variable {p q : Path}

/-! ## The first step -/

/-- The step that a text begins with when it is not a name. -/
def lead : List Char → List Component
  | '/' :: _ => [.root]
  | ['.'] => [.current]
  | '.' :: '/' :: _ => [.current]
  | _ => []

theorem lead_eq_nil_iff (cs : List Char) : lead cs = [] ↔ HasNoLead cs := by
  unfold lead HasNoLead
  split
  · simp
  · simp
  · simp
  · rename_i hslash hdot hdotslash
    refine ⟨fun _ => ⟨?_, hdot, hdotslash⟩, fun _ => rfl⟩
    intro hhead
    obtain ⟨rest, hrest⟩ := List.head?_eq_some_iff.1 hhead
    exact hslash rest hrest

theorem steps_cons_slash (cs : List Char) : steps ('/' :: cs) = steps cs := steps_append [] cs

theorem components_eq (p : Path) : p.components = lead p.chars ++ steps p.chars := by
  rcases p.split_cases with ⟨body, hchars, hsplit⟩ | ⟨body, hchars, hsplit, hbody⟩ |
    ⟨hnoLead, hsplit⟩
  · rw [components_of_split hsplit, hchars, steps_cons_slash]
    rfl
  · rw [components_of_split hsplit, hchars]
    rcases hbody with rfl | ⟨rest, rfl⟩
    · rfl
    · have hrest : steps ('.' :: '/' :: rest) = steps rest := steps_append ['.'] rest
      rw [steps_cons_slash, hrest]
      rfl
  · rw [components_of_split hsplit, (lead_eq_nil_iff _).2 hnoLead]
    rfl

/-! ## Joining -/

theorem steps_stem_append (p : Path) (cs : List Char) :
    steps (p.stem ++ cs) = steps p.chars ++ steps cs := by
  unfold stem
  split
  · rename_i hlast
    rcases List.eq_nil_or_concat p.chars with hnil | ⟨front, c, hfront⟩
    · rw [hnil]
      rfl
    · rw [List.concat_eq_append] at hfront
      obtain rfl : c = '/' := by simpa [hfront] using hlast
      rw [hfront, steps_append_slash, List.append_assoc]
      exact steps_append front cs
  · rw [List.append_assoc]
    exact steps_append p.chars cs

/-- A slash comes behind a path before anything else does, so a first point stays a step. -/
theorem lead_stem_append (hp : p.chars ≠ []) (cs : List Char) :
    lead (p.stem ++ cs) = lead p.chars := by
  obtain ⟨more, hmore, hslash⟩ : ∃ more, p.stem = p.chars ++ more ∧
      (p.chars = ['.'] → more = ['/']) := by
    unfold stem
    split
    · rename_i hlast
      refine ⟨[], (List.append_nil _).symm, fun hdot => ?_⟩
      rw [hdot] at hlast
      simp at hlast
    · exact ⟨['/'], rfl, fun _ => rfl⟩
  rw [hmore, List.append_assoc]
  match hchars : p.chars with
  | [] => exact absurd hchars hp
  | [c] =>
    by_cases hc : c = '.'
    · rw [hslash (hc ▸ hchars), hc]
      rfl
    · unfold lead
      split <;> simp_all
  | c :: d :: rest =>
    unfold lead
    split <;> simp_all

/-- A relative path adds its steps to those of the path that it is joined to. Only a path without
any text lets a first point of the other one stay. -/
theorem components_join (hq : q.isAbsolute = false) (h : p.chars ≠ [] ∨ lead q.chars = []) :
    (p.join q).components = p.components ++ steps q.chars := by
  rw [components_eq, components_eq, chars_join_of_relative p hq, steps_stem_append,
    ← List.append_assoc]
  by_cases hp : p.chars = []
  · rw [stem_of_chars_eq_nil hp, hp, List.nil_append, h.resolve_left (not_not_intro hp)]
    rfl
  · rw [lead_stem_append hp]

end RiscvBoot.Path
