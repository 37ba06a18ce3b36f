import Mathlib.Tactic.SplitIfs
import RiscvBoot.Json.Reader
import RiscvBoot.Json.Writer
import RiscvBoot.Proofs.Text.Digits

/-!
# JSON scalars

What is written for a scalar is read back as that scalar, whatever comes after it that does not go
on with a number. A string may hold any characters: each of them is written as one unit that stands
for it (`readString_quoted`).
-/

set_option autoImplicit false

namespace RiscvBoot

variable {c : Char} {cs ds rest : List Char}

namespace Text

/-- The unit stands for a whole character, whatever units follow it. -/
def Unit16.IsChar (u : Unit16) (c : Char) : Prop :=
  ∀ us, characters? (u :: us) = (characters? us).map (c :: ·)

theorem isChar_plain (c : Char) : (Unit16.plain c).IsChar c := fun _ => rfl

theorem isChar_unit (hc : c.toNat < 0xD800) : (Unit16.unit c.toNat).IsChar c := by
  have hhigh : isHighSurrogate c.toNat = false := by
    unfold isHighSurrogate
    rw [decide_eq_false (by omega), Bool.false_and]
  have hlow : isLowSurrogate c.toNat = false := by
    unfold isLowSurrogate
    rw [decide_eq_false (by omega), Bool.false_and]
  intro us
  rw [characters?.eq_def]
  dsimp only
  rw [hhigh, hlow, Char.ofNat_toNat]
  rfl

end Text

namespace Json

/-! ## Strings -/

/-- How a character of a string may be written. -/
inductive Escaped (c : Char) : List Char → Prop where
  | letter {e : Char} (h : simpleEscape? e = some c) (hcode : e ≠ 'u') : Escaped c ['\\', e]
  | code (h : c.toNat < 0x20) : Escaped c ('\\' :: 'u' :: Text.hexDigits false 4 c.toNat)
  | plain (hquote : c ≠ '"') (hbackslash : c ≠ '\\') (h : ¬c.toNat < 0x20) : Escaped c [c]

theorem escaped_escape (c : Char) : Escaped c (escape c) := by
  unfold escape
  split_ifs with hquote hbackslash h h h h h hcode
  · exact .letter (congrArg some hquote.symm) (by decide)
  · exact .letter (congrArg some hbackslash.symm) (by decide)
  · exact .letter (congrArg some h.symm) (by decide)
  · exact .letter (congrArg some h.symm) (by decide)
  · exact .letter (congrArg some h.symm) (by decide)
  · exact .letter (congrArg some h.symm) (by decide)
  · exact .letter (congrArg some h.symm) (by decide)
  · exact .code hcode
  · exact .plain hquote hbackslash hcode

theorem Escaped.readUnits_append (h : Escaped c cs) : ∃ u : Text.Unit16, u.IsChar c ∧
    ∀ rest us after, readUnits rest = some (us, after) →
      readUnits (cs ++ rest) = some (u :: us, after) := by
  cases h with
  | @letter e h hcode =>
    refine ⟨.plain c, Text.isChar_plain c, ?_⟩
    intro rest us after hrest
    rw [List.cons_append, List.singleton_append, readUnits]
    · rw [h, hrest]
      rfl
    · intro a b x d after he
      exact absurd he hcode
  | code h =>
    refine ⟨.unit c.toNat, Text.isChar_unit (by omega), ?_⟩
    intro rest us after hrest
    have hvalue := Text.hexNumber?_hexDigits false c.toNat (by omega)
    have hlength := Text.length_hexDigits false c.toNat (by omega)
    match hdigits : Text.hexDigits false 4 c.toNat, hlength with
    | [w, x, y, z], _ =>
      rw [hdigits] at hvalue
      change readUnits ('\\' :: 'u' :: w :: x :: y :: z :: rest) = _
      rw [readUnits, hvalue, hrest]
      rfl
  | plain hquote hbackslash h =>
    refine ⟨.plain c, Text.isChar_plain c, ?_⟩
    intro rest us after hrest
    rw [List.singleton_append, readUnits, if_neg h, hrest]
    · rfl
    · exact hquote
    · exact fun _ _ _ _ _ hc _ => hbackslash hc
    · exact fun _ _ hc _ => hbackslash hc

theorem readUnits_escapes (cs rest : List Char) : ∃ us,
    readUnits (cs.flatMap escape ++ '"' :: rest) = some (us, rest) ∧
      Text.characters? us = some cs := by
  induction cs with
  | nil =>
    refine ⟨[], ?_, rfl⟩
    rw [List.flatMap_nil, List.nil_append, readUnits]
  | cons c cs ih =>
    obtain ⟨us, hread, hchars⟩ := ih
    obtain ⟨u, hu, hstep⟩ := (escaped_escape c).readUnits_append
    refine ⟨u :: us, ?_, ?_⟩
    · rw [List.flatMap_cons, List.append_assoc]
      exact hstep _ _ _ hread
    · rw [hu us, hchars]
      rfl

theorem readString_quoted (s : String) (rest : List Char) :
    readString (s.toList.flatMap escape ++ '"' :: rest) = some (some s, rest) := by
  obtain ⟨us, hread, hchars⟩ := readUnits_escapes s.toList rest
  unfold readString
  rw [hread]
  simp only [Option.bind_eq_bind, Option.bind_some, hchars, Option.map_some, String.ofList_toList]
  rfl

/-! ## Integers -/

/-- Nothing in the text goes on with a number that ends before it. -/
def EndsNumber (rest : List Char) : Prop :=
  ∀ c ∈ rest.head?, c.isDigit = false ∧ c ≠ '.' ∧ c ≠ 'e' ∧ c ≠ 'E'

theorem readDigits_append (hds : ∀ c ∈ ds, c.isDigit = true) (hne : ds ≠ [])
    (hrest : EndsNumber rest) : readDigits (ds ++ rest) = some (ds, rest) := by
  have hcut : rest.takeWhile Char.isDigit = [] ∧ rest.dropWhile Char.isDigit = rest := by
    cases rest with
    | nil => exact ⟨rfl, rfl⟩
    | cons c rest =>
      have hc : ¬c.isDigit = true := by
        rw [(hrest c rfl).1]
        decide
      exact ⟨List.takeWhile_cons_of_neg hc, List.dropWhile_cons_of_neg hc⟩
  unfold readDigits
  rw [List.takeWhile_append_of_pos hds, List.dropWhile_append_of_pos hds, hcut.1, hcut.2,
    List.append_nil]
  cases ds with
  | nil => exact absurd rfl hne
  | cons c ds => rfl

theorem readWhole_append (h : Text.IsWhole ds) (hrest : EndsNumber rest) :
    readWhole (ds ++ rest) = some (ds, rest) := by
  have hne : ds ≠ [] := by
    rcases h.lead with rfl | ⟨c, cs, rfl, -⟩
    · exact List.cons_ne_nil _ _
    · exact List.cons_ne_nil _ _
  have hlead : ds = ['0'] ∨ ds.head? ≠ some '0' := by
    rcases h.lead with hzero | ⟨c, cs, rfl, hc⟩
    · exact .inl hzero
    · exact .inr fun hhead => hc (Option.some.inj hhead)
  have hguard : (guard (ds = ['0'] ∨ ds.head? ≠ some '0') : Option Unit) = some () := if_pos hlead
  unfold readWhole
  rw [readDigits_append h.digits hne hrest, Option.bind_eq_bind, Option.bind_some]
  dsimp only
  rw [hguard]
  rfl

theorem readFraction_of_ends (h : EndsNumber rest) : readFraction rest = some ([], rest) := by
  unfold readFraction
  split
  · exact absurd rfl (h '.' rfl).2.1
  · rfl

theorem readExponent_of_ends (h : EndsNumber rest) : readExponent rest = some ([], rest) := by
  unfold readExponent
  split
  · rename_i c rest
    obtain ⟨-, -, hlower, hupper⟩ := h c rfl
    rw [if_neg (not_or.2 ⟨hlower, hupper⟩)]
  · rfl

/-- A number after its sign. -/
def readUnsigned (negative : Bool) (cs : List Char) : Option (Tree × List Char) := do
  let (whole, afterWhole) ← readWhole cs
  let (fraction, afterFraction) ← readFraction afterWhole
  let (exponent, after) ← readExponent afterFraction
  let n := Text.decimalValue whole
  if fraction = [] ∧ exponent = [] ∧ ¬(negative ∧ n = 0) then
    return (.integer (if negative then -(n : Int) else n), after)
  else
    let sign := if negative then ['-'] else []
    return (.real (String.ofList (sign ++ whole ++ fraction ++ exponent)), after)

theorem readNumber_minus (cs : List Char) : readNumber ('-' :: cs) = readUnsigned true cs := rfl

theorem readNumber_of_ne (hc : c ≠ '-') (cs : List Char) :
    readNumber (c :: cs) = readUnsigned false (c :: cs) := by
  unfold readNumber
  split
  rename_i negative unsigned hsign
  split at hsign
  · rename_i hcons
    exact absurd (List.cons.inj hcons).1 hc
  · cases hsign
    rfl

theorem readUnsigned_append (negative : Bool) (h : Text.IsWhole ds)
    (hzero : negative = true → Text.decimalValue ds ≠ 0) (hrest : EndsNumber rest) :
    readUnsigned negative (ds ++ rest) =
      some (.integer (if negative then -(Text.decimalValue ds : Int) else Text.decimalValue ds),
        rest) := by
  have hinteger : ¬(negative = true ∧ Text.decimalValue ds = 0) :=
    fun hminus => hzero hminus.1 hminus.2
  unfold readUnsigned
  rw [readWhole_append h hrest]
  simp only [Option.bind_eq_bind, Option.bind_some, readFraction_of_ends hrest,
    readExponent_of_ends hrest, true_and, if_pos hinteger]
  rfl

theorem readNumber_toString (n : Int) (hrest : EndsNumber rest) :
    readNumber ((toString n).toList ++ rest) = some (.integer n, rest) := by
  have hwhole := Text.isWhole_toDigits n.natAbs
  have hvalue : Text.decimalValue (Nat.toDigits 10 n.natAbs) = n.natAbs :=
    Text.valueInBase_toDigits n.natAbs
  rw [Text.toList_toString]
  by_cases hn : n < 0
  · have hminus : (if true = true then -(n.natAbs : Int) else n.natAbs) = n := by
      rw [if_pos rfl]
      omega
    rw [if_pos hn, List.singleton_append, List.cons_append, readNumber_minus,
      readUnsigned_append true hwhole (fun _ => by omega) hrest, hvalue, hminus]
  · have hplus : (if false = true then -(n.natAbs : Int) else n.natAbs) = n := by
      rw [if_neg Bool.false_ne_true]
      omega
    obtain ⟨c, cs, hcs⟩ := Text.exists_toDigits_cons n.natAbs
    have hc : c ≠ '-' :=
      Text.ne_of_isDigit (hwhole.digits c (hcs ▸ List.mem_cons_self)) (by decide)
    have hread := readUnsigned_append false hwhole (fun h => nomatch h) hrest
    rw [hvalue, hplus, hcs] at hread
    rw [if_neg hn, List.nil_append, hcs]
    exact (readNumber_of_ne hc (cs ++ rest)).trans hread

end Json

end RiscvBoot
