import RiscvBoot.Proofs.Manifest.HartsSetting

/-!
# Hart counts as 32-bit numbers

The digits of a count can be read one by one into a 32-bit word, and reading ends at the first digit
that does not fit any more. A value only grows with its digits, so nothing that ends early could
have become small enough again, and this is the number that the grammar gives
(`Harts.number?_eq_word?`). An integer of a manifest is written with digits that are read back as
that integer.
-/

set_option autoImplicit false

namespace RiscvBoot

namespace Harts

variable {n k : Nat} {digits : List Char}

/-- A number with one more digit behind it, if it still fits in 32 bits. -/
def withDigit? (n : Nat) (c : Char) : Option Nat :=
  let next := 10 * n + (c.toNat - '0'.toNat)
  if c.isDigit ∧ next < UInt32.size then some next else none

/-- A number with more digits behind it, added one by one. -/
def wordFrom? (n : Nat) (digits : List Char) : Option Nat := digits.foldlM withDigit? n

theorem withDigit?_eq_some_iff {c : Char} : withDigit? n c = some k ↔
    c.isDigit = true ∧ 10 * n + (c.toNat - '0'.toNat) = k ∧ k < UInt32.size := by
  unfold withDigit?
  dsimp only
  split
  · rename_i hfits
    constructor
    · intro hk
      obtain rfl := Option.some.inj hk
      exact ⟨hfits.1, rfl, hfits.2⟩
    · rintro ⟨-, rfl, -⟩
      rfl
  · rename_i hover
    constructor
    · intro hk
      cases hk
    · rintro ⟨hc, rfl, hlimit⟩
      exact absurd ⟨hc, hlimit⟩ hover

theorem le_ofDigitChars (n : Nat) (digits : List Char) : n ≤ Nat.ofDigitChars 10 digits n := by
  rw [Nat.ofDigitChars_eq_ofDigitChars_zero]
  have hpos : 0 < 10 ^ digits.length := Nat.pow_pos (by omega)
  have hmul := Nat.le_mul_of_pos_left n hpos
  omega

theorem wordFrom?_eq_some_iff (hn : n < UInt32.size) : wordFrom? n digits = some k ↔
    (∀ c ∈ digits, c.isDigit = true) ∧ Nat.ofDigitChars 10 digits n = k ∧ k < UInt32.size := by
  induction digits generalizing n with
  | nil =>
    have hnil : wordFrom? n [] = some n := rfl
    have hvalue : Nat.ofDigitChars 10 [] n = n := rfl
    rw [hnil, hvalue, Option.some.injEq]
    constructor
    · rintro rfl
      exact ⟨by simp, rfl, hn⟩
    · rintro ⟨-, hk, -⟩
      exact hk
  | cons c digits ih =>
    have hcons : wordFrom? n (c :: digits) = (withDigit? n c).bind (wordFrom? · digits) := rfl
    rw [hcons, Option.bind_eq_some_iff, Nat.ofDigitChars_cons]
    constructor
    · rintro ⟨next, hnext, hrest⟩
      obtain ⟨hc, rfl, hfits⟩ := withDigit?_eq_some_iff.1 hnext
      obtain ⟨hdigits, hvalue, hk⟩ := (ih hfits).1 hrest
      exact ⟨List.forall_mem_cons.2 ⟨hc, hdigits⟩, hvalue, hk⟩
    · rintro ⟨hall, hvalue, hk⟩
      obtain ⟨hc, hdigits⟩ := List.forall_mem_cons.1 hall
      -- The value is at least that of its first digits, which therefore fit as well.
      have hgrows := le_ofDigitChars (10 * n + (c.toNat - '0'.toNat)) digits
      have hfits : 10 * n + (c.toNat - '0'.toNat) < UInt32.size := by omega
      exact ⟨_, withDigit?_eq_some_iff.2 ⟨hc, rfl, hfits⟩, (ih hfits).2 ⟨hdigits, hvalue, hk⟩⟩

variable {h : Harts}

/-- The number that a count spells, read digit by digit. -/
def word? (h : Harts) : Option Nat :=
  if h.digits = [] then none else (wordFrom? 0 h.digits).filter (1 ≤ ·)

theorem word?_eq_some_iff : h.word? = some n ↔ h.Spells n := by
  have hlimit : n < UInt32.size ↔ n ≤ 4294967295 := by
    simp only [UInt32.size]
    omega
  unfold word?
  constructor
  · intro hword
    split at hword
    · cases hword
    · rename_i hne
      obtain ⟨hread, hlow⟩ := Option.filter_eq_some_iff.1 hword
      obtain ⟨hdigits, hvalue, hhigh⟩ := (wordFrom?_eq_some_iff (by decide)).1 hread
      obtain ⟨sign, htext, hsign⟩ := toList_eq_sign_append h
      exact ⟨sign, h.digits, htext, hsign, hne, hdigits, hvalue, of_decide_eq_true hlow,
        hlimit.1 hhigh⟩
  · rintro ⟨sign, digits, htext, hsign, hne, hdigits, hvalue, hlow, hhigh⟩
    have hread := (wordFrom?_eq_some_iff (by decide)).2 ⟨hdigits, hvalue, hlimit.2 hhigh⟩
    rw [digits_of_sign htext hsign hdigits, if_neg hne]
    exact Option.filter_eq_some_iff.2 ⟨hread, decide_eq_true hlow⟩

theorem number?_eq_word? (h : Harts) : h.number? = h.word? := by
  apply Option.ext
  intro n
  rw [number?_eq_some_iff, word?_eq_some_iff]

theorem parse_eq_ok_iff : h.parse = .ok n ↔ h.Spells n := by
  rw [← number?_eq_some_iff]
  unfold parse
  cases h.number? with
  | none => simp
  | some k => simp

theorem parse_eq_error_iff {e : Rejection} :
    h.parse = .error e ↔ ¬h.IsCount ∧ e = .invalidHartCount h.text := by
  rw [← number?_eq_none_iff]
  unfold parse
  cases h.number? with
  | none => simp [eq_comm]
  | some k => simp

/-- Which texts are hart counts, and which numbers they are. Every other text is refused as it
stands. A number of a manifest is a count from 1 to 2³² - 1, and it is read as itself. -/
theorem parse_of_text :
    (∀ (text : String) (n : Nat), parse ⟨text⟩ = .ok n ↔ Spells ⟨text⟩ n) ∧
    (∀ (text : String) (e : Rejection), parse ⟨text⟩ = .error e ↔
      (∀ n, ¬Spells ⟨text⟩ n) ∧ e = .invalidHartCount text) ∧
    (∀ text : String, number? ⟨text⟩ = word? ⟨text⟩) ∧
    ∀ (k : UInt64) (n : Nat), parse ⟨(HartsSetting.number k).toText⟩ = .ok n ↔
      n = k.toNat ∧ 1 ≤ k.toNat ∧ k.toNat ≤ 4294967295 := by
  refine ⟨fun _ _ => parse_eq_ok_iff, ?_, fun _ => number?_eq_word? _, ?_⟩
  · intro text e
    rw [parse_eq_error_iff, IsCount, not_exists]
  · intro k n
    have htext : (HartsSetting.number k).toText = toString (k.toNat : Int) := rfl
    rw [parse_eq_ok_iff, htext, spells_toString_iff]
    omega

/-- One sign is allowed, and nothing else beside the digits. -/
example : ∀ text ∈ ["", "+", "++2", "-2", " 2", "2 ", "٢", "0", "4294967296"],
    parse ⟨text⟩ = .error (.invalidHartCount text) := by decide

end Harts

end RiscvBoot
