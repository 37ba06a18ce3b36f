import Mathlib
import RiscvBoot.Proofs.Text.Digits
import RiscvBoot.Proofs.Toml.Lines

/-!
# Integers and their digits

An integer that fits into 64 bits is read back from its decimal digits (`spells_integer`). Readers
of dates and of floats come first and have to pass it over: a row of digits is followed by none of
the marks that they look for.
-/

set_option autoImplicit false

namespace RiscvBoot.Toml

open Text

variable {ds rest cs : List Char} {n : Int}

/-! ## Digits -/

theorem moreDigits_newline (kind : String) (hds : ∀ c ∈ ds, c.isDigit = true) (rest : List Char) :
    moreDigits kind Char.isDigit (ds ++ '\n' :: rest) = .ok (ds, '\n' :: rest) := by
  induction ds with
  | nil =>
    rw [List.nil_append]
    unfold moreDigits
    rfl
  | cons c ds ih =>
    have hc := hds c List.mem_cons_self
    have hrest := ih fun e he => hds e (List.mem_cons_of_mem c he)
    rw [List.cons_append]
    generalize ds ++ '\n' :: rest = tail at hrest ⊢
    unfold moreDigits
    split
    · rename_i hnil
      cases hnil
    · rename_i hcs
      cases hcs
      exact absurd hc (by decide)
    · rename_i hcs
      cases hcs
      exact absurd hc (by decide)
    · rename_i hcs
      cases hcs
      rw [if_pos hc, hrest]
      rfl

theorem readWhole?_newline (h : IsWhole ds) (rest : List Char) :
    readWhole? (ds ++ '\n' :: rest) = .ok (some (ds, '\n' :: rest)) := by
  rcases h.lead with rfl | ⟨c, cs, rfl, hc⟩
  · rfl
  · have hdigit := h.digits c List.mem_cons_self
    have hmore := moreDigits_newline "integer"
      (fun e he => h.digits e (List.mem_cons_of_mem c he)) rest
    unfold readWhole?
    split
    · rename_i hzero
      cases hzero
      exact absurd rfl hc
    · rename_i hcs
      cases hcs
      rw [if_pos hdigit, List.cons_append]
      unfold readDigits
      dsimp only
      rw [if_pos hdigit, hmore]
      rfl
    · rename_i hnil
      cases hnil

/-! ## What is no date -/

/-- After a field that is cut from a row of digits there is another digit or the end of the row. -/
theorem next_of_readField? {width low high value : Nat} {c : Char} {after : List Char}
    (hds : ∀ c ∈ ds, c.isDigit = true)
    (h : readField? width low high (ds ++ '\n' :: rest) = some (value, c :: after)) :
    c.isDigit = true ∨ c = '\n' := by
  unfold readField? at h
  dsimp only at h
  split at h
  · rename_i hfield
    have hdrop : (ds ++ '\n' :: rest).drop width = c :: after :=
      congrArg Prod.snd (Option.some.inj h)
    by_cases hwidth : width ≤ ds.length
    · rw [List.drop_append_of_le_length hwidth] at hdrop
      cases hleft : ds.drop width with
      | nil =>
        rw [hleft] at hdrop
        cases hdrop
        exact .inr rfl
      | cons e es =>
        rw [hleft] at hdrop
        cases hdrop
        exact .inl (hds c (List.mem_of_mem_drop (hleft ▸ List.mem_cons_self)))
    · have hmem : '\n' ∈ (ds ++ '\n' :: rest).take width := by
        obtain ⟨more, hmore⟩ : ∃ more, width = ds.length + (more + 1) :=
          ⟨width - ds.length - 1, by omega⟩
        rw [hmore, List.take_length_add_append]
        exact List.mem_append_right _ List.mem_cons_self
      exact absurd (List.all_eq_true.1 hfield.2.1 _ hmem) (by decide)
  · cases h

theorem readField?_minus (width low high : Nat) (cs : List Char) :
    readField? (width + 1) low high ('-' :: cs) = none := by
  unfold readField?
  exact if_neg fun hfield => absurd hfield.2.1 (by simp)

/-- No field of a date or of a time of day is cut from the text before its mark. -/
def NoFields (cs : List Char) : Prop :=
  ∀ width low high value c after, readField? (width + 1) low high cs = some (value, c :: after) →
    c ≠ '-' ∧ c ≠ ':'

theorem noFields_digits (hds : ∀ c ∈ ds, c.isDigit = true) (rest : List Char) :
    NoFields (ds ++ '\n' :: rest) := by
  intro width low high value c after h
  rcases next_of_readField? hds h with hdigit | rfl
  · exact ⟨ne_of_isDigit hdigit (by decide), ne_of_isDigit hdigit (by decide)⟩
  · exact ⟨by decide, by decide⟩

theorem noFields_minus (cs : List Char) : NoFields ('-' :: cs) := by
  intro width low high value c after h
  rw [readField?_minus] at h
  cases h

theorem readDateTime_of_noFields (h : NoFields cs) : readDateTime cs = .ok none := by
  have hdate : skipDate? cs = .ok none := by
    unfold skipDate?
    split
    · rename_i hfield
      exact absurd rfl (h 3 0 9999 _ _ _ hfield).1
    · rfl
  have htime : skipTime? cs = .ok none := by
    unfold skipTime?
    split
    · rename_i hfield
      exact absurd rfl (h 1 0 23 _ _ _ hfield).2
    · rfl
  unfold readDateTime
  rw [hdate]
  simp only [bind, Except.bind, htime]
  rfl

/-! ## Numbers -/

/-- The text is a sign, perhaps, and a row of digits up to the end of the line. -/
structure SignedDigits (cs : List Char) (negative : Bool) (ds rest : List Char) : Prop where
  sign : readSign cs = (negative, ds ++ '\n' :: rest)
  whole : IsWhole ds
  noFields : NoFields cs
  decimal : ∀ mark after, cs = '0' :: mark :: after → mark = '\n'

theorem signedDigits_toString (n : Int) (rest : List Char) :
    SignedDigits ((toString n).toList ++ '\n' :: rest) (decide (n < 0))
      (Nat.toDigits 10 n.natAbs) rest := by
  have hwhole := isWhole_toDigits n.natAbs
  rw [toList_toString]
  by_cases hn : n < 0
  · rw [if_pos hn]
    refine ⟨by rw [decide_eq_true hn]; rfl, hwhole, noFields_minus _, ?_⟩
    intro mark after hcs
    cases hcs
  · rw [if_neg hn, List.nil_append, decide_eq_false hn]
    refine ⟨?_, hwhole, noFields_digits hwhole.digits rest, ?_⟩
    · obtain ⟨c, cs, hcs⟩ := exists_toDigits_cons n.natAbs
      have hc := hwhole.digits c (hcs ▸ List.mem_cons_self)
      rw [hcs, List.cons_append]
      generalize cs ++ '\n' :: rest = tail
      unfold readSign
      split
      · rename_i hplus
        cases hplus
        exact absurd hc (by decide)
      · rename_i hminus
        cases hminus
        exact absurd hc (by decide)
      · rfl
    · intro mark after hcs
      rcases hwhole.lead with hzero | ⟨c, cs, hdigits, hc⟩
      · rw [hzero] at hcs
        cases hcs
        rfl
      · rw [hdigits] at hcs
        exact absurd (List.cons.inj hcs).1 hc

namespace SignedDigits

variable {negative : Bool} (h : SignedDigits cs negative ds rest)

include h

theorem readDecimalFloat_eq : readDecimalFloat cs = .ok none := by
  unfold readDecimalFloat
  rw [h.sign]
  dsimp only
  rw [readWhole?_newline h.whole]
  rfl

theorem readSpecialFloat_eq : readSpecialFloat cs = none := by
  obtain ⟨c, tail, hcs⟩ : ∃ c tail, ds = c :: tail := by
    rcases h.whole.lead with rfl | ⟨c, tail, rfl, -⟩
    · exact ⟨_, _, rfl⟩
    · exact ⟨_, _, rfl⟩
  have hc := h.whole.digits c (hcs ▸ List.mem_cons_self)
  unfold readSpecialFloat
  rw [h.sign, hcs, List.cons_append]
  generalize tail ++ '\n' :: rest = after
  dsimp only
  split
  · rename_i hinf
    cases hinf
    exact absurd hc (by decide)
  · rename_i hnan
    cases hnan
    exact absurd hc (by decide)
  · rfl

theorem readInteger_eq : readInteger cs =
    integerInRange (if negative then -(Text.valueInBase 10 ds : Int) else Text.valueInBase 10 ds)
      ('\n' :: rest) := by
  unfold readInteger
  split
  · exact absurd (h.decimal _ _ rfl) (by decide)
  · exact absurd (h.decimal _ _ rfl) (by decide)
  · exact absurd (h.decimal _ _ rfl) (by decide)
  · rw [h.sign]
    dsimp only
    rw [readWhole?_newline h.whole]
    rfl

theorem readNumber_eq : readNumber cs = readInteger cs := by
  simp only [readNumber, firstReading, readDateTime_of_noFields h.noFields, h.readDecimalFloat_eq,
    h.readSpecialFloat_eq, bind, Except.bind]
  cases readInteger cs with
  | error e => rfl
  | ok found => cases found <;> rfl

end SignedDigits

theorem readNumber_toString (hn : fitsInt64 n = true) (rest : List Char) :
    readNumber ((toString n).toList ++ '\n' :: rest) = .ok (some (.integer n, '\n' :: rest)) := by
  have h := signedDigits_toString n rest
  have hvalue : (if decide (n < 0) = true then
      -(Text.valueInBase 10 (Nat.toDigits 10 n.natAbs) : Int)
      else Text.valueInBase 10 (Nat.toDigits 10 n.natAbs)) = n := by
    rw [valueInBase_toDigits]
    split
    · rename_i hneg
      have hneg := of_decide_eq_true hneg
      omega
    · rename_i hneg
      have hneg := of_decide_eq_false (Bool.eq_false_iff.2 hneg)
      omega
  rw [h.readNumber_eq, h.readInteger_eq, hvalue]
  unfold integerInRange
  exact if_pos hn

/-! ## Values -/

/-- An integer is read from its digits. -/
theorem spells_integer (hn : fitsInt64 n = true) : Spells (toString n) (.integer n) := by
  obtain ⟨c, cs, hcs, hc⟩ := head_toString n
  have hmark {e : Char} (hminus : e ≠ '-') (hdigit : e.isDigit = false) : c ≠ e := by
    rintro rfl
    rcases hc with rfl | hc
    · exact hminus rfl
    · rw [hc] at hdigit
      cases hdigit
  have hblank : isBlank c = false := by
    rw [Bool.eq_false_iff]
    intro h
    rcases Bool.or_eq_true_iff.1 h with h | h
    · exact hmark (by decide) (by decide) (of_decide_eq_true h)
    · exact hmark (by decide) (by decide) (of_decide_eq_true h)
  have hstarts : c = '+' ∨ c = '-' ∨ c.isDigit = true := .inr hc
  have hquotes : ¬(c = '"' ∨ c = '\'') := by
    rintro (h | h)
    · exact hmark (by decide) (by decide) h
    · exact hmark (by decide) (by decide) h
  have hnumber (rest : List Char) := readNumber_toString hn rest
  refine spells_scalar hcs hblank (hmark (by decide) (by decide)) (hmark (by decide) (by decide)) ?_
  intro rest
  have hrest := hnumber rest
  rw [hcs, List.cons_append] at hrest ⊢
  generalize cs ++ '\n' :: rest = tail at hrest ⊢
  unfold readScalar
  split
  · rename_i htrue
    cases htrue
    exact absurd rfl (hmark (by decide) (by decide))
  · rename_i hfalse
    cases hfalse
    exact absurd rfl (hmark (by decide) (by decide))
  · rename_i hcons
    cases hcons
    rw [if_neg hquotes, if_pos hstarts, hrest]
    rfl
  · rename_i hnil
    cases hnil

theorem unescaped_toString (n : Int) : (toString n).toList.all isUnescaped = true := by
  rw [List.all_eq_true]
  intro c hc
  rw [toList_toString, List.mem_append] at hc
  rcases hc with hc | hc
  · split at hc
    · rw [List.mem_singleton.1 hc]
      decide
    · cases hc
  · have hdigit := (isWhole_toDigits _).digits c hc
    rw [isUnescaped_iff]
    refine ⟨?_, ne_of_isDigit hdigit (by decide), ne_of_isDigit hdigit (by decide)⟩
    have hrange := Char.isDigit_iff_toNat.1 hdigit
    have hdelete : c ≠ '\x7f' := ne_of_isDigit hdigit (by decide)
    unfold isPlain
    simp only [Bool.or_eq_true, Bool.and_eq_true, decide_eq_true_eq]
    exact .inr ⟨le_trans (by decide) hrange.1, hdelete⟩

/-- The digits between quotes are a text. -/
theorem spells_quoted (n : Int) : Spells (inQuotes (toString n)) (.text (toString n)) :=
  spells_text (unescaped_toString n)

end RiscvBoot.Toml
