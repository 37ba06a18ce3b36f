import RiscvBoot.Choice
import RiscvBoot.Proofs.Text.Digits

/-!
# What counts as a hart count

A text spells a number when it is ASCII digits after at most one `+`, and their decimal value is
from 1 to 2³² - 1. Leading zeros do not matter, so the text can be of any length.
-/

set_option autoImplicit false

namespace RiscvBoot

namespace Harts

variable {h : Harts} {n : Nat}

/-- The text is digits after at most one `+`, and their value is `n`, a positive 32-bit number. -/
def Spells (h : Harts) (n : Nat) : Prop :=
  ∃ sign digits, h.text.toList = sign ++ digits ∧ (sign = [] ∨ sign = ['+']) ∧ digits ≠ [] ∧
    (∀ c ∈ digits, c.isDigit = true) ∧ Nat.ofDigitChars 10 digits 0 = n ∧
    1 ≤ n ∧ n ≤ 4294967295

/-- The text spells some number. -/
def IsCount (h : Harts) : Prop := ∃ n, h.Spells n

theorem toList_eq_sign_append (h : Harts) :
    ∃ sign, h.text.toList = sign ++ h.digits ∧ (sign = [] ∨ sign = ['+']) := by
  unfold digits
  split
  · rename_i rest htext
    exact ⟨['+'], htext, .inr rfl⟩
  · exact ⟨[], rfl, .inl rfl⟩

/-- A sign before digits is the one that reading leaves out. -/
theorem digits_of_sign {sign digits : List Char} (htext : h.text.toList = sign ++ digits)
    (hsign : sign = [] ∨ sign = ['+']) (hdigits : ∀ c ∈ digits, c.isDigit = true) :
    h.digits = digits := by
  unfold Harts.digits
  rcases hsign with rfl | rfl
  · split
    · rename_i rest hplus
      have hmem : '+' ∈ digits := by
        rw [← List.nil_append digits, ← htext, hplus]
        exact List.mem_cons_self
      exact absurd (hdigits '+' hmem) (by decide)
    · exact htext
  · rw [htext]
    rfl

theorem number?_eq_some_iff : h.number? = some n ↔ h.Spells n := by
  have hlimit : n < UInt32.size ↔ n ≤ 4294967295 := by
    simp only [UInt32.size]
    omega
  unfold number?
  constructor
  · intro hnumber
    dsimp only at hnumber
    split at hnumber
    · rename_i hgrammar
      obtain ⟨hne, hall, hlow, hhigh⟩ := hgrammar
      obtain rfl := Option.some.inj hnumber
      have hdigits := List.all_eq_true.1 hall
      obtain ⟨sign, htext, hsign⟩ := toList_eq_sign_append h
      refine ⟨sign, h.digits, htext, hsign, hne, hdigits, ?_, hlow, hlimit.1 hhigh⟩
      exact (Text.decimalValue_eq_ofDigitChars hdigits).symm
    · cases hnumber
  · rintro ⟨sign, digits, htext, hsign, hne, hdigits, hvalue, hlow, hhigh⟩
    rw [digits_of_sign htext hsign hdigits, Text.decimalValue_eq_ofDigitChars hdigits, hvalue]
    exact if_pos ⟨hne, List.all_eq_true.2 hdigits, hlow, hlimit.2 hhigh⟩

theorem isNumber_iff : h.isNumber = true ↔ h.IsCount := by
  unfold isNumber IsCount
  rw [Option.isSome_iff_exists]
  exact exists_congr fun n => number?_eq_some_iff

instance (h : Harts) : Decidable h.IsCount := decidable_of_iff _ isNumber_iff

theorem number?_eq_none_iff : h.number? = none ↔ ¬h.IsCount := by
  rw [← isNumber_iff, isNumber, Bool.not_eq_true, Option.isSome_eq_false_iff,
    Option.isNone_iff_eq_none]

/-- Leading zeros make a text longer, not its number larger. -/
example : Harts.IsCount ⟨"+0000000000004"⟩ ∧ ¬Harts.IsCount ⟨"4294967296"⟩ := by decide

end Harts

end RiscvBoot
