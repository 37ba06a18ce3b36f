import RiscvBoot.Proofs.Path.Components

/-!
# Joining paths

A relative path is put behind the stem of the path that it is joined to, and the stem of a joined
path is one stem behind the other. So joining is associative, text by text (`Path.join_assoc`), and
a chain of joins can be read from either end.
-/

set_option autoImplicit false

namespace RiscvBoot.Path

variable {p q : Path}

/-! ## Stems -/

/-- What a relative path is put behind when it is joined to a path. -/
def stem (p : Path) : List Char :=
  if p.chars.getLast?.all (· = '/') then p.chars else p.chars ++ ['/']

theorem eq_of_chars (h : p.chars = q.chars) : p = q := by
  cases p
  cases q
  exact congrArg Path.mk (String.toList_inj.1 h)

theorem chars_join_of_relative (p : Path) (hq : q.isAbsolute = false) :
    (p.join q).chars = p.stem ++ q.chars := by
  unfold join stem
  rw [if_neg (by simp [hq])]
  split
  · exact String.toList_append
  · rw [chars, String.toList_append, String.toList_append]
    rfl

theorem stem_of_chars_eq_nil (hp : p.chars = []) : p.stem = [] := by
  unfold stem
  rw [hp]
  rfl

/-- A stem is empty or ends in a slash. -/
theorem stem_closed (p : Path) : p.stem.getLast?.all (· = '/') = true := by
  unfold stem
  split
  · assumption
  · rw [List.getLast?_concat]
    rfl

theorem stem_join_of_relative (p : Path) (hq : q.isAbsolute = false) :
    (p.join q).stem = p.stem ++ q.stem := by
  have hchars := chars_join_of_relative p hq
  by_cases hempty : q.chars = []
  · rw [hempty, List.append_nil] at hchars
    have hclosed : (p.join q).chars.getLast?.all (· = '/') = true := by
      rw [hchars]
      exact p.stem_closed
    rw [stem_of_chars_eq_nil hempty, List.append_nil, ← hchars]
    exact if_pos hclosed
  · have hlast : (p.join q).chars.getLast? = q.chars.getLast? := by
      rw [hchars, List.getLast?_append, List.getLast?_eq_some_getLast hempty, Option.some_or]
    unfold stem at hchars ⊢
    rw [hlast]
    split
    · exact hchars
    · rw [hchars, List.append_assoc]

/-! ## The laws of joining -/

/-- Relative paths join to a relative one, also when the left one is empty. -/
theorem isAbsolute_join_of_relative (hp : p.isAbsolute = false) (hq : q.isAbsolute = false) :
    (p.join q).isAbsolute = false := by
  have hchars := chars_join_of_relative p hq
  unfold isAbsolute at hp hq ⊢
  rw [hchars]
  cases hcs : p.chars with
  | nil =>
    rw [stem_of_chars_eq_nil hcs]
    exact hq
  | cons c rest =>
    rw [hcs] at hp
    have hhead : p.stem.head? = some c := by
      unfold stem
      rw [hcs]
      split <;> rfl
    rw [List.head?_append, hhead]
    exact hp

theorem join_assoc (p q r : Path) : (p.join q).join r = p.join (q.join r) := by
  cases hr : r.isAbsolute with
  | true => rw [join_of_isAbsolute _ hr, join_of_isAbsolute q hr, join_of_isAbsolute p hr]
  | false =>
    cases hq : q.isAbsolute with
    | true => rw [join_of_isAbsolute p hq, join_of_isAbsolute p (isAbsolute_join hq r)]
    | false =>
      -- Nothing is replaced, so both sides are the last text behind the two stems.
      apply eq_of_chars
      calc ((p.join q).join r).chars
          = (p.join q).stem ++ r.chars := chars_join_of_relative _ hr
        _ = p.stem ++ q.stem ++ r.chars := by rw [stem_join_of_relative p hq]
        _ = p.stem ++ (q.join r).chars := by
          rw [List.append_assoc, chars_join_of_relative q hr]
        _ = (p.join (q.join r)).chars :=
          (chars_join_of_relative p (isAbsolute_join_of_relative hq hr)).symm

/-- A chain of joins can be begun at its right end. -/
theorem foldl_join (ps : List Path) (p q : Path) :
    (ps.foldl join p).join q = p.join (ps.foldr join q) := by
  induction ps generalizing p with
  | nil => rfl
  | cons r ps ih => rw [List.foldl_cons, List.foldr_cons, ih, join_assoc]

end RiscvBoot.Path
