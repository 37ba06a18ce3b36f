import RiscvBoot.Proofs.Regex.Syntax

/-!
# What an extended regular expression matches

`Matches e before text after` says that `e` matches `text` where it stands between `before` and
`after`, so that an anchor can see whether it is at an end of the line. A program that looks for
`e` in a line accepts the line if some part of it is matched (`OccursIn`).
-/

set_option autoImplicit false

namespace RiscvBoot.Regex

/-- The expression matches the middle text between the two others. -/
inductive Matches : Regex → List Char → List Char → List Char → Prop where
  | literal (c : Char) (before after : List Char) : Matches (.literal c) before [c] after
  | anyChar (c : Char) (before after : List Char) : Matches .anyChar before [c] after
  | bracket {negated : Bool} {ranges : List CharRange} {c : Char}
      (h : ranges.any (·.contains c) = !negated) (before after : List Char) :
      Matches (.bracket negated ranges) before [c] after
  | lineStart (after : List Char) : Matches .lineStart [] [] after
  | lineEnd (before : List Char) : Matches .lineEnd before [] []
  | group {e : Regex} {before text after : List Char} :
      Matches e before text after → Matches (.group e) before text after
  | seq {e f : Regex} {before text more after : List Char} :
      Matches e before text (more ++ after) → Matches f (before ++ text) more after →
      Matches (.seq e f) before (text ++ more) after
  | altLeft {e : Regex} (f : Regex) {before text after : List Char} :
      Matches e before text after → Matches (.alt e f) before text after
  | altRight (e : Regex) {f : Regex} {before text after : List Char} :
      Matches f before text after → Matches (.alt e f) before text after
  | repeatNone (e : Regex) (most : Option Nat) (before after : List Char) :
      Matches (.repeated e 0 most) before [] after
  | repeatMore {e : Regex} {least : Nat} {most : Option Nat}
      {before text more after : List Char} (h : most ≠ some 0) :
      Matches e before text (more ++ after) →
      Matches (.repeated e (least - 1) (most.map (· - 1))) (before ++ text) more after →
      Matches (.repeated e least most) before (text ++ more) after

/-- The expression matches some part of the line. -/
def OccursIn (e : Regex) (line : List Char) : Prop :=
  ∃ before text after, line = before ++ text ++ after ∧ e.Matches before text after

/-- A program that is given this pattern accepts this line. -/
def Accepts (pattern line : String) : Prop :=
  ∃ e, parse? pattern = some e ∧ e.OccursIn line.toList

variable {e f : Regex} {before text after : List Char}

theorem matches_literal_iff {c : Char} :
    Matches (.literal c) before text after ↔ text = [c] := by
  constructor
  · intro h
    cases h
    rfl
  · rintro rfl
    exact .literal c before after

theorem matches_bracket_iff {negated : Bool} {ranges : List CharRange} :
    Matches (.bracket negated ranges) before text after ↔
      ∃ c, text = [c] ∧ ranges.any (·.contains c) = !negated := by
  constructor
  · intro h
    cases h with
    | bracket h => exact ⟨_, rfl, h⟩
  · rintro ⟨c, rfl, h⟩
    exact .bracket h before after

theorem matches_lineStart_iff :
    Matches .lineStart before text after ↔ before = [] ∧ text = [] := by
  constructor
  · intro h
    cases h
    exact ⟨rfl, rfl⟩
  · rintro ⟨rfl, rfl⟩
    exact .lineStart after

theorem matches_lineEnd_iff :
    Matches .lineEnd before text after ↔ text = [] ∧ after = [] := by
  constructor
  · intro h
    cases h
    exact ⟨rfl, rfl⟩
  · rintro ⟨rfl, rfl⟩
    exact .lineEnd before

theorem matches_group_iff : Matches (.group e) before text after ↔ Matches e before text after := by
  constructor
  · intro h
    cases h with
    | group h => exact h
  · exact .group

theorem matches_seq_iff :
    Matches (.seq e f) before text after ↔
      ∃ u v, text = u ++ v ∧ Matches e before u (v ++ after) ∧ Matches f (before ++ u) v after := by
  constructor
  · intro h
    cases h with
    | seq he hf => exact ⟨_, _, rfl, he, hf⟩
  · rintro ⟨u, v, rfl, he, hf⟩
    exact .seq he hf

theorem matches_alt_iff :
    Matches (.alt e f) before text after ↔
      Matches e before text after ∨ Matches f before text after := by
  constructor
  · intro h
    cases h with
    | altLeft _ h => exact .inl h
    | altRight _ h => exact .inr h
  · rintro (h | h)
    · exact .altLeft f h
    · exact .altRight e h

theorem matches_optional_iff :
    Matches (.repeated e 0 (some 1)) before text after ↔
      text = [] ∨ Matches e before text after := by
  have hnone {b t a : List Char} (h : Matches (.repeated e 0 (some 0)) b t a) : t = [] := by
    cases h with
    | repeatNone => rfl
    | repeatMore h => exact absurd rfl h
  constructor
  · intro h
    cases h with
    | repeatNone => exact .inl rfl
    | repeatMore _ he hmore =>
      obtain rfl := hnone hmore
      exact .inr (by simpa using he)
  · rintro (rfl | h)
    · exact .repeatNone e (some 1) before after
    · have hfirst : Matches e before text ([] ++ after) := h
      have hmore : Matches (.repeated e (0 - 1) ((some 1).map (· - 1))) (before ++ text) [] after :=
        .repeatNone e (some 0) (before ++ text) after
      have hboth : Matches (.repeated e 0 (some 1)) before (text ++ []) after :=
        .repeatMore (by simp) hfirst hmore
      simpa using hboth

/-- Any number of characters of a bracket: every character of the text is one of them. -/
theorem matches_star_bracket_iff {negated : Bool} {ranges : List CharRange} :
    Matches (.repeated (.bracket negated ranges) 0 none) before text after ↔
      ∀ c ∈ text, ranges.any (·.contains c) = !negated := by
  constructor
  · -- The induction is on the match, with the repetition kept fixed.
    generalize he : Regex.repeated (.bracket negated ranges) 0 none = e
    intro h
    induction h with
    | repeatNone => simp
    | repeatMore _ hfirst _ _ ih =>
      simp only [repeated.injEq] at he
      obtain ⟨rfl, rfl, rfl⟩ := he
      obtain ⟨c, rfl, hc⟩ := matches_bracket_iff.1 hfirst
      have hrest := ih rfl
      simpa using ⟨hc, by simpa using hrest⟩
    | _ => cases he
  · induction text generalizing before with
    | nil =>
      intro _
      exact .repeatNone _ none before after
    | cons c text ih =>
      intro h
      have hc : Matches (.bracket negated ranges) before [c] (text ++ after) :=
        .bracket (h c List.mem_cons_self) before (text ++ after)
      have hrest :
          Matches (.repeated (.bracket negated ranges) 0 none) (before ++ [c]) text after :=
        ih fun d hd => h d (List.mem_cons_of_mem c hd)
      have hboth :
          Matches (.repeated (.bracket negated ranges) 0 none) before ([c] ++ text) after :=
        .repeatMore (by simp) hc hrest
      exact hboth

/-- A row of literals after an expression. -/
theorem matches_literals_iff {cs : List Char} :
    Matches (cs.foldl (fun e c => .seq e (.literal c)) e) before text after ↔
      ∃ u, text = u ++ cs ∧ Matches e before u (cs ++ after) := by
  induction cs generalizing e text with
  | nil => simp
  | cons c cs ih =>
    rw [List.foldl_cons, ih]
    constructor
    · rintro ⟨u, rfl, h⟩
      obtain ⟨v, w, rfl, he, hc⟩ := matches_seq_iff.1 h
      obtain rfl := matches_literal_iff.1 hc
      exact ⟨v, by simp, by simpa using he⟩
    · rintro ⟨u, rfl, h⟩
      refine ⟨u ++ [c], by simp, ?_⟩
      exact .seq (by simpa using h) (.literal c (before ++ u) (cs ++ after))

end RiscvBoot.Regex
