import RiscvBoot.Text.Digits

/-!
# Rows of digits

The value of a row of digits is that of the library, and a number is the value of its own digits. In
them no zero stands before others. A control character has four digits in base sixteen, of either
case.
-/

set_option autoImplicit false

namespace RiscvBoot.Text

theorem hexValue?_of_isDigit {c : Char} (hc : c.isDigit = true) :
    hexValue? c = some (c.toNat - '0'.toNat) := by
  unfold hexValue?
  exact if_pos hc

theorem decimalValue_eq_ofDigitChars {digits : List Char}
    (hdigits : ∀ c ∈ digits, c.isDigit = true) :
    decimalValue digits = Nat.ofDigitChars 10 digits 0 := by
  have hfrom : ∀ n, digits.foldl (fun n c => 10 * n + (hexValue? c).getD 0) n =
      Nat.ofDigitChars 10 digits n := by
    induction digits with
    | nil => exact fun n => rfl
    | cons c digits ih =>
      intro n
      have hc := hexValue?_of_isDigit (hdigits c List.mem_cons_self)
      have hrest := ih fun d hd => hdigits d (List.mem_cons_of_mem c hd)
      rw [List.foldl_cons, hc, hrest]
      rfl
  exact hfrom 0

/-- A row of digits in which no zero stands before others. -/
structure IsWhole (ds : List Char) : Prop where
  digits : ∀ c ∈ ds, c.isDigit = true
  lead : ds = ['0'] ∨ ∃ c cs, ds = c :: cs ∧ c ≠ '0'

theorem toDigits_lead (n : Nat) :
    Nat.toDigits 10 n = ['0'] ∨ ∃ c cs, Nat.toDigits 10 n = c :: cs ∧ c ≠ '0' := by
  induction n using Nat.strongRecOn with
  | ind n ih =>
    by_cases hn : n < 10
    · rw [Nat.toDigits_of_lt_base hn]
      by_cases hzero : n = 0
      · rw [hzero]
        exact .inl rfl
      · exact .inr ⟨_, [], rfl, fun hdigit => hzero (Nat.digitChar_eq_zero.1 hdigit)⟩
    · rw [Nat.toDigits_of_base_le (by omega) (by omega)]
      rcases ih (n / 10) (by omega) with hzero | ⟨c, cs, hdigits, hc⟩
      · have hvalue := Nat.ofDigitChars_toDigits (b := 10) (n := n / 10) (by omega) (by omega)
        rw [hzero] at hvalue
        have hten : n / 10 = 0 := hvalue.symm
        omega
      · rw [hdigits]
        exact .inr ⟨c, _, rfl, hc⟩

theorem exists_toDigits_cons (n : Nat) : ∃ c cs, Nat.toDigits 10 n = c :: cs :=
  List.exists_cons_of_ne_nil Nat.toDigits_ne_nil

theorem isWhole_toDigits (n : Nat) : IsWhole (Nat.toDigits 10 n) :=
  ⟨fun _ hc => Nat.isDigit_of_mem_toDigits (by omega) (by omega) hc, toDigits_lead n⟩

theorem valueInBase_toDigits (n : Nat) : valueInBase 10 (Nat.toDigits 10 n) = n :=
  (decimalValue_eq_ofDigitChars (isWhole_toDigits n).digits).trans
    (Nat.ofDigitChars_toDigits (by omega) (by omega))

theorem toList_toString (n : Int) :
    (toString n).toList = (if n < 0 then ['-'] else []) ++ Nat.toDigits 10 n.natAbs := by
  match n with
  | .ofNat n => exact Nat.toList_repr
  | .negSucc n =>
    have htext : toString (Int.negSucc n) = "-" ++ Nat.repr (n + 1) := rfl
    rw [htext, String.toList_append, Nat.toList_repr, if_pos (Int.negSucc_lt_zero n)]
    rfl

theorem head_toString (n : Int) :
    ∃ c cs, (toString n).toList = c :: cs ∧ (c = '-' ∨ c.isDigit = true) := by
  rw [toList_toString]
  by_cases hn : n < 0
  · rw [if_pos hn]
    exact ⟨_, _, rfl, .inl rfl⟩
  · obtain ⟨c, cs, hcs⟩ := exists_toDigits_cons n.natAbs
    rw [if_neg hn, List.nil_append, hcs]
    exact ⟨c, cs, rfl, .inr ((isWhole_toDigits _).digits c (hcs ▸ List.mem_cons_self))⟩

theorem ne_of_isDigit {c e : Char} (hc : c.isDigit = true) (he : e.isDigit = false) : c ≠ e := by
  rintro rfl
  rw [hc] at he
  cases he

theorem length_hexDigits : ∀ upper, ∀ n < 128, (hexDigits upper 4 n).length = 4 := by
  decide

theorem hexNumber?_hexDigits : ∀ upper, ∀ n < 128, hexNumber? (hexDigits upper 4 n) = some n := by
  decide

end RiscvBoot.Text
