import Mathlib.Tactic.SplitIfs
import RiscvBoot.Proofs.Text.Digits
import RiscvBoot.Proofs.Toml.Lines
import RiscvBoot.Toml.Writer

/-!
# Texts in quotes

A text is read back from the style that is chosen for it, whatever follows it but another quote
(`readString_quoted`). A basic string escapes what cannot stand in it, and the other styles are only
chosen for texts that they can hold. In a long string a row of quotes is text until it is longer
than two.
-/

set_option autoImplicit false

namespace RiscvBoot.Toml

variable {long : Bool} {c q : Char} {cs rest text : List Char} {row : Nat}

/-! ## Escapes -/

/-- How a character that is no quote may stand in a basic string. -/
inductive Spelled (long : Bool) (c : Char) : List Char → Prop where
  | coded {cs : List Char} (h : ∀ rest, escape? (cs ++ rest) = some (c, rest))
      (hline : ∀ rest, continued? (cs ++ rest) = none) : Spelled long c ('\\' :: cs)
  | itself (h : isUnescaped c = true) : Spelled long c [c]
  | lineFeed (hlong : long = true) (hc : c = '\n') : Spelled long c ['\n']

theorem charOfNumber?_toNat (c : Char) : charOfNumber? c.toNat = some c := by
  have hvalid : c.toNat.isValidChar := c.valid
  unfold charOfNumber?
  rw [if_pos hvalid, Char.ofNat_toNat]

theorem escape?_code (hc : c.toNat < 128) (rest : List Char) :
    escape? ('u' :: (Text.hexDigits true 4 c.toNat ++ rest)) = some (c, rest) := by
  have hlength := Text.length_hexDigits true c.toNat hc
  have htake : (Text.hexDigits true 4 c.toNat ++ rest).take 4 = Text.hexDigits true 4 c.toNat :=
    List.take_left' hlength
  have hdrop : (Text.hexDigits true 4 c.toNat ++ rest).drop 4 = rest := List.drop_left' hlength
  rw [escape?, escape?.coded, htake, hdrop, if_pos hlength,
    Text.hexNumber?_hexDigits true c.toNat hc]
  simp only [Option.bind_eq_bind, Option.bind_some, charOfNumber?_toNat]
  rfl

theorem needsCode_eq_false_iff : needsCode c = false ↔
    (0x20 ≤ c.toNat ∨ c = '\t' ∨ c = '\n') ∧ c ≠ '\x7f' := by
  unfold needsCode
  simp only [Bool.or_eq_false_iff, Bool.and_eq_false_iff, decide_eq_false_iff_not, Nat.not_lt,
    ne_eq, Classical.not_not, or_assoc]

theorem isPlain_of_needsCode (hcode : needsCode c = false) (hline : c ≠ '\n') :
    isPlain c = true := by
  obtain ⟨hrange, hdelete⟩ := needsCode_eq_false_iff.1 hcode
  unfold isPlain
  rw [Bool.or_eq_true, Bool.and_eq_true, decide_eq_true_iff, decide_eq_true_iff,
    decide_eq_true_iff]
  rcases hrange with hrange | htab | hfeed
  · exact .inr ⟨hrange, hdelete⟩
  · exact .inl htab
  · exact absurd hfeed hline

theorem toNat_lt_of_needsCode (h : needsCode c = true) : c.toNat < 128 := by
  rcases Bool.or_eq_true_iff.1 h with h | h
  · have hlow := of_decide_eq_true (Bool.and_eq_true_iff.1 (Bool.and_eq_true_iff.1 h).1).1
    omega
  · rw [of_decide_eq_true h]
    decide

theorem spelled_escape (long : Bool) (hquote : c ≠ '"') : Spelled long c (escape long c) := by
  unfold escape
  split_ifs with h h hfeed hlong h h hbackslash hcode
  · exact .coded (fun rest => by rw [h]; rfl) fun _ => rfl
  · exact .coded (fun rest => by rw [h]; rfl) fun _ => rfl
  · exact .lineFeed hlong hfeed
  · exact .coded (fun rest => by rw [hfeed]; rfl) fun _ => rfl
  · exact .coded (fun rest => by rw [h]; rfl) fun _ => rfl
  · exact .coded (fun rest => by rw [h]; rfl) fun _ => rfl
  · exact .coded (fun rest => by rw [hbackslash]; rfl) fun _ => rfl
  · exact .coded (escape?_code (toNat_lt_of_needsCode hcode)) fun _ => rfl
  · have hplain := isPlain_of_needsCode (Bool.eq_false_iff.2 hcode) hfeed
    exact .itself (isUnescaped_iff.2 ⟨hplain, hquote, hbackslash⟩)

theorem spelled_quote : Spelled long '"' ['\\', '"'] :=
  .coded (fun _ => rfl) fun _ => rfl

/-! ## One-line strings -/

theorem readBasic_spelled (h : Spelled false c text) (rest : List Char) :
    readBasic (text ++ rest) = (readBasic rest).map fun r => (c :: r.1, r.2) := by
  cases h with
  | coded h hline =>
    rw [List.cons_append, readBasic]
    split
    · rename_i hescape
      rw [h] at hescape
      cases hescape
      rfl
    · rename_i hescape
      rw [h] at hescape
      cases hescape
  | itself h =>
    obtain ⟨hplain, hquote, hbackslash⟩ := isUnescaped_iff.1 h
    rw [List.singleton_append, readBasic, if_pos hplain]
    · exact hquote
    · exact hbackslash
  | lineFeed hlong hc => cases hlong

theorem readBasic_escaped (cs rest : List Char) :
    readBasic (escaped false 0 cs ++ '"' :: rest) = .ok (cs, rest) := by
  induction cs with
  | nil =>
    rw [escaped, List.nil_append]
    unfold readBasic
    rfl
  | cons c cs ih =>
    have hescaped : ∃ text, Spelled false c text ∧
        escaped false 0 (c :: cs) = text ++ escaped false 0 cs := by
      rw [escaped]
      split
      · rename_i hquote
        subst hquote
        exact ⟨_, spelled_quote, rfl⟩
      · rename_i hquote
        exact ⟨_, spelled_escape false hquote, rfl⟩
    obtain ⟨text, htext, heq⟩ := hescaped
    rw [heq, List.append_assoc, readBasic_spelled htext, ih]
    rfl

theorem readLiteral_plain (h : ∀ c ∈ cs, isPlain c = true ∧ c ≠ '\'') (rest : List Char) :
    readLiteral (cs ++ '\'' :: rest) = .ok (cs, rest) := by
  have hall : ∀ c ∈ cs, (isPlain c && decide (c ≠ '\'')) = true := by
    intro c hc
    rw [Bool.and_eq_true, decide_eq_true_iff]
    exact h c hc
  unfold readLiteral
  rw [List.takeWhile_append_of_pos hall, List.dropWhile_append_of_pos hall]
  simp

/-! ## Rows of quotes -/

/-- A text of a long string, and the characters that it stands for, after so many quotes: it is a
short row of quotes itself, or the row that it starts with ends inside it. -/
inductive ShortRow (q : Char) (row : Nat) : List Char → List Char → Prop where
  | quotes {k : Nat} (hk : row + k ≤ 2) : ShortRow q row (.replicate k q) (.replicate k q)
  | ends {cs text : List Char} (h : ∀ rest, row + ((text ++ rest).takeWhile (· = q)).length ≤ 2) :
      ShortRow q row cs text

theorem ShortRow.nil (hrow : row ≤ 2) : ShortRow q row [] [] := .quotes (k := 0) hrow

theorem ShortRow.cons_quote (h : ShortRow q (row + 1) cs text) :
    ShortRow q row (q :: cs) (q :: text) := by
  cases h with
  | @quotes k hk =>
    rw [← List.replicate_succ]
    exact .quotes (by omega)
  | ends h =>
    refine .ends fun rest => ?_
    have hrest := h rest
    rw [List.cons_append, List.takeWhile_cons_of_pos (by simp), List.length_cons]
    omega

theorem ShortRow.cons_of_ne (hc : c ≠ q) (hrow : row ≤ 2) : ShortRow q row cs (c :: text) := by
  refine .ends fun rest => ?_
  rw [List.cons_append, List.takeWhile_cons_of_neg (by simpa using hc)]
  exact hrow

/-- The quotes that close a long string and up to two more of text before them. -/
theorem quoteRun_closing {k : Nat} (hk : k ≤ 2) (hrest : rest.head? ≠ some q) :
    QuoteRun.ofLength
      ((List.replicate k q ++ q :: q :: q :: rest).takeWhile (· = q)).length =
        .closing k (k + 3) := by
  have hsplit : List.replicate k q ++ q :: q :: q :: rest = List.replicate (k + 3) q ++ rest := by
    rw [← List.replicate_append_replicate, List.append_assoc]
    rfl
  have hall : ∀ c ∈ List.replicate (k + 3) q, decide (c = q) = true :=
    fun c hc => decide_eq_true (List.eq_of_mem_replicate hc)
  have hnone : rest.takeWhile (· = q) = [] := by
    cases rest with
    | nil => rfl
    | cons c rest =>
      have hc : ¬decide (c = q) = true := fun h => hrest (congrArg some (of_decide_eq_true h))
      exact List.takeWhile_cons_of_neg hc
  rw [hsplit, List.takeWhile_append_of_pos hall, hnone, List.append_nil, List.length_replicate]
  unfold QuoteRun.ofLength
  rw [if_neg (by omega), Nat.add_sub_cancel, Nat.min_eq_left hk, Nat.min_eq_left (by omega)]

theorem quoteRun_end (hrest : rest.head? ≠ some q) :
    QuoteRun.ofLength ((q :: q :: q :: rest).takeWhile (· = q)).length = .closing 0 3 :=
  quoteRun_closing (k := 0) (Nat.zero_le 2) hrest

/-- A quote inside a long string is text, or it is the first of those at its end. -/
theorem ShortRow.quoteRun (h : ShortRow q (row + 1) cs text) (hrest : rest.head? ≠ some q)
    {tail : List Char} (htail : tail = q :: (text ++ q :: q :: q :: rest)) :
    (∃ n, QuoteRun.ofLength (tail.takeWhile (· = q)).length = .text n) ∨
      ∃ k, cs = List.replicate k q ∧
        QuoteRun.ofLength (tail.takeWhile (· = q)).length = .closing (k + 1) (k + 1 + 3) ∧
        tail.drop (k + 1 + 3) = rest := by
  subst htail
  cases h with
  | @quotes k hk =>
    have hsplit : q :: (List.replicate k q ++ q :: q :: q :: rest) =
        List.replicate (k + 1) q ++ q :: q :: q :: rest := by
      rw [List.replicate_succ, List.cons_append]
    refine .inr ⟨k, rfl, ?_, ?_⟩
    · rw [hsplit, quoteRun_closing (by omega) hrest]
    · rw [hsplit, List.drop_append]
      simp
  | ends h =>
    have hlength := h (q :: q :: q :: rest)
    rw [List.takeWhile_cons_of_pos (by simp), List.length_cons]
    unfold QuoteRun.ofLength
    rw [if_pos (by omega)]
    exact .inl ⟨_, rfl⟩

/-! ## Long strings -/

theorem readLongBasic_quote (h : ShortRow '"' (row + 1) cs text) (hrest : rest.head? ≠ some '"')
    (hread : readLongBasic (text ++ '"' :: '"' :: '"' :: rest) = .ok (cs, rest)) :
    readLongBasic ('"' :: (text ++ '"' :: '"' :: '"' :: rest)) = .ok ('"' :: cs, rest) := by
  rw [readLongBasic]
  rcases h.quoteRun hrest rfl with ⟨n, hrun⟩ | ⟨k, rfl, hrun, hdrop⟩
  · rw [hrun]
    dsimp only
    rw [hread]
    rfl
  · rw [hrun]
    dsimp only
    rw [hdrop, List.replicate_succ]

theorem readLongBasic_spelled (h : Spelled true c text) (rest : List Char) :
    readLongBasic (text ++ rest) = (readLongBasic rest).map fun r => (c :: r.1, r.2) := by
  cases h with
  | coded h hline =>
    rw [List.cons_append, readLongBasic]
    split
    · rename_i hcontinued
      rw [hline] at hcontinued
      cases hcontinued
    · split
      · rename_i hescape
        rw [h] at hescape
        cases hescape
        rfl
      · rename_i hescape
        rw [h] at hescape
        cases hescape
  | itself h =>
    obtain ⟨hplain, hquote, hbackslash⟩ := isUnescaped_iff.1 h
    rw [List.singleton_append, readLongBasic, if_pos hplain]
    · exact hquote
    · exact hbackslash
    · rintro rfl
      exact absurd hplain (by decide)
    · rintro _ rfl
      exact absurd hplain (by decide)
  | lineFeed hlong hc =>
    rw [List.singleton_append, readLongBasic, hc]

theorem Spelled.head_ne_quote (h : Spelled long c text) :
    ∃ e tail, text = e :: tail ∧ e ≠ '"' := by
  cases h with
  | coded h hline => exact ⟨_, _, rfl, by decide⟩
  | itself h => exact ⟨_, _, rfl, (isUnescaped_iff.1 h).2.1⟩
  | lineFeed hlong hc => exact ⟨_, _, rfl, by decide⟩

theorem shortRow_escaped (hrow : row ≤ 2) : ShortRow '"' row cs (escaped true row cs) := by
  induction cs generalizing row with
  | nil => exact .nil hrow
  | cons c cs ih =>
    rw [escaped]
    split
    · rename_i hc
      subst hc
      split
      · rename_i hlt
        exact (ih hlt.2).cons_quote
      · exact .cons_of_ne (by decide) hrow
    · rename_i hc
      obtain ⟨e, tail, htext, he⟩ := (spelled_escape true hc).head_ne_quote
      rw [htext]
      exact .cons_of_ne he hrow

/-- The writer and the reader count the quotes of a row alike, each from its own side. -/
theorem readLongBasic_escaped (hrow : row ≤ 2) (hrest : rest.head? ≠ some '"') :
    readLongBasic (escaped true row cs ++ '"' :: '"' :: '"' :: rest) = .ok (cs, rest) := by
  induction cs generalizing row with
  | nil =>
    rw [escaped, List.nil_append, readLongBasic, quoteRun_end hrest]
    rfl
  | cons c cs ih =>
    rw [escaped]
    split
    · rename_i hc
      subst hc
      split
      · rename_i hlt
        exact readLongBasic_quote (shortRow_escaped hlt.2) hrest (ih hlt.2)
      · have hread := readLongBasic_spelled spelled_quote
          (escaped true 0 cs ++ '"' :: '"' :: '"' :: rest)
        rw [ih (Nat.zero_le 2)] at hread
        exact hread
    · rename_i hc
      rw [List.append_assoc, readLongBasic_spelled (spelled_escape true hc), ih (Nat.zero_le 2)]
      rfl

theorem readLongLiteral_quote (h : ShortRow '\'' (row + 1) cs text)
    (hrest : rest.head? ≠ some '\'')
    (hread : readLongLiteral (text ++ '\'' :: '\'' :: '\'' :: rest) = .ok (cs, rest)) :
    readLongLiteral ('\'' :: (text ++ '\'' :: '\'' :: '\'' :: rest)) = .ok ('\'' :: cs, rest) := by
  rw [readLongLiteral]
  rcases h.quoteRun hrest rfl with ⟨n, hrun⟩ | ⟨k, rfl, hrun, hdrop⟩
  · rw [hrun]
    dsimp only
    rw [hread]
    rfl
  · rw [hrun]
    dsimp only
    rw [hdrop, List.replicate_succ]

theorem le_longestRow (q : Char) (row : Nat) (cs : List Char) : row ≤ longestRow q row cs := by
  induction cs generalizing row with
  | nil => exact Nat.le_refl row
  | cons c cs ih =>
    rw [longestRow]
    split
    · have hnext := ih (row + 1)
      omega
    · exact Nat.le_max_left _ _

theorem shortRow_of_longestRow (h : longestRow q row cs ≤ 2) : ShortRow q row cs cs := by
  induction cs generalizing row with
  | nil => exact .nil h
  | cons c cs ih =>
    have hrow := Nat.le_trans (le_longestRow q row (c :: cs)) h
    rw [longestRow] at h
    split at h
    · rename_i hc
      subst hc
      exact (ih h).cons_quote
    · rename_i hc
      exact .cons_of_ne hc hrow

theorem readLongLiteral_plain (hcs : ∀ c ∈ cs, isPlain c = true ∨ c = '\n')
    (hrow : longestRow '\'' row cs ≤ 2) (hrest : rest.head? ≠ some '\'') :
    readLongLiteral (cs ++ '\'' :: '\'' :: '\'' :: rest) = .ok (cs, rest) := by
  induction cs generalizing row with
  | nil =>
    rw [List.nil_append, readLongLiteral, quoteRun_end hrest]
    rfl
  | cons c cs ih =>
    have hall : ∀ c ∈ cs, isPlain c = true ∨ c = '\n' :=
      fun e he => hcs e (List.mem_cons_of_mem c he)
    rw [longestRow] at hrow
    split at hrow
    · rename_i hc
      subst hc
      exact readLongLiteral_quote (shortRow_of_longestRow hrow) hrest (ih hall hrow)
    · rename_i hquote
      have hread := ih hall (Nat.le_trans (Nat.le_max_right _ _) hrow)
      rw [List.cons_append]
      rcases hcs c List.mem_cons_self with hplain | rfl
      · rw [readLongLiteral, if_pos hplain, hread]
        · rfl
        · exact hquote
        · rintro rfl
          exact absurd hplain (by decide)
        · rintro _ rfl
          exact absurd hplain (by decide)
      · rw [readLongLiteral, hread]
        rfl

/-! ## Styles -/

/-- A text that the style can hold. A basic string holds every text. -/
def Style.Holds : Style → List Char → Prop
  | .literal, cs => ∀ c ∈ cs, isPlain c = true ∧ c ≠ '\''
  | .longLiteral, cs => (∀ c ∈ cs, isPlain c = true ∨ c = '\n') ∧ longestRow '\'' 0 cs ≤ 2
  | _, _ => True

theorem not_mem_of_longestRow (h : longestRow q row cs = 0) : q ∉ cs := by
  induction cs generalizing row with
  | nil => exact List.not_mem_nil
  | cons c cs ih =>
    rw [longestRow] at h
    split at h
    · have hle := le_longestRow q (row + 1) cs
      omega
    · rename_i hc
      have hle : longestRow q 0 cs ≤ 0 := Nat.le_trans (Nat.le_max_right row _) (Nat.le_of_eq h)
      have hcs := ih (Nat.le_zero.1 hle)
      intro hq
      rcases List.mem_cons.1 hq with rfl | hq
      · exact hc rfl
      · exact hcs hq

theorem holds_of (cs : List Char) : (Style.of cs).Holds cs := by
  have hcode (h : ¬cs.any needsCode = true) : ∀ c ∈ cs, needsCode c = false := by
    intro c hc
    rw [Bool.eq_false_iff]
    intro hneeds
    exact h (List.any_eq_true.2 ⟨c, hc, hneeds⟩)
  unfold Style.of
  dsimp only
  split_ifs with hbasic hliteral hlong hlongLiteral hlines
  · trivial
  · obtain ⟨hcoded, hlines, hsingle⟩ := hliteral
    intro c hc
    constructor
    · refine isPlain_of_needsCode (hcode hcoded c hc) ?_
      rintro rfl
      exact hlines (List.contains_iff_mem.2 hc)
    · rintro rfl
      exact not_mem_of_longestRow hsingle hc
  · trivial
  · obtain ⟨hcoded, hsingle⟩ := hlongLiteral
    refine ⟨?_, hsingle⟩
    intro c hc
    by_cases hfeed : c = '\n'
    · exact .inr hfeed
    · exact .inl (isPlain_of_needsCode (hcode hcoded c hc) hfeed)
  · trivial
  · trivial

/-- The line feed before a text with lines is not part of it, and without lines nothing is taken
for one. -/
theorem dropNewline_start (htext : '\n' ∉ cs → newline? text = none) :
    dropNewline ((if cs.contains '\n' then ['\n'] else []) ++ text) = text := by
  split
  · rfl
  · rename_i hlines
    have hnone := htext fun hmem => hlines (List.contains_iff_mem.2 hmem)
    unfold dropNewline
    rw [List.nil_append, hnone]
    rfl

theorem newline?_of_isPlain (hc : isPlain c = true) (cs : List Char) :
    newline? (c :: cs) = none := by
  apply newline?_cons
  · rintro rfl
    exact absurd hc (by decide)
  · rintro rfl
    exact absurd hc (by decide)

theorem newline?_escaped (hlines : '\n' ∉ cs) (rest : List Char) :
    newline? (escaped true 0 cs ++ '"' :: rest) = none := by
  cases cs with
  | nil => exact newline?_cons (by decide) (by decide) rest
  | cons c cs =>
    rw [escaped]
    split
    · rename_i hc
      subst hc
      exact newline?_cons (by decide) (by decide) _
    · rename_i hc
      generalize htext : escape true c = text
      cases htext ▸ spelled_escape true hc with
      | coded h hline => exact newline?_cons (by decide) (by decide) _
      | itself h => exact newline?_of_isPlain (isUnescaped_iff.1 h).1 _
      | lineFeed hlong hc => exact absurd (hc ▸ List.mem_cons_self) hlines

theorem newline?_literal (hcs : ∀ c ∈ cs, isPlain c = true ∨ c = '\n') (hlines : '\n' ∉ cs)
    (rest : List Char) : newline? (cs ++ '\'' :: rest) = none := by
  cases cs with
  | nil => exact newline?_cons (by decide) (by decide) rest
  | cons c cs =>
    rcases hcs c List.mem_cons_self with hplain | rfl
    · exact newline?_of_isPlain hplain _
    · exact absurd List.mem_cons_self hlines

theorem readString_literal (hquotes : cs.head? ≠ some '\'' ∨ cs.tail.head? ≠ some '\'') :
    readString ('\'' :: cs) = readLiteral cs := by
  unfold readString
  split
  · rename_i hcs
    cases hcs
  · rename_i hcs
    cases hcs
  · rename_i hcs
    cases hcs
    rcases hquotes with h | h
    · exact absurd rfl h
    · exact absurd rfl h
  · rename_i hcs
    cases hcs
    rfl
  · rename_i hcs
    exact (hcs cs rfl).elim

/-- No quote comes next. -/
structure NoQuote (rest : List Char) : Prop where
  double : rest.head? ≠ some '"'
  single : rest.head? ≠ some '\''

theorem readString_styled {style : Style} (h : style.Holds cs) (hrest : NoQuote rest) :
    readString (styled style cs ++ rest) = .ok (cs, rest) := by
  cases style with
  | basic =>
    have htext : styled .basic cs ++ rest = '"' :: (escaped false 0 cs ++ '"' :: rest) := by
      simp [styled]
    rw [htext, readString_basic, readBasic_escaped]
    cases cs with
    | nil => exact .inr hrest.double
    | cons c cs =>
      rw [escaped]
      split
      · exact .inl (by simp)
      · rename_i hc
        obtain ⟨e, tail, heq, he⟩ := (spelled_escape false hc).head_ne_quote
        rw [heq]
        exact .inl fun hhead => he (Option.some.inj hhead)
  | literal =>
    have htext : styled .literal cs ++ rest = '\'' :: (cs ++ '\'' :: rest) := by
      simp [styled]
    rw [htext, readString_literal, readLiteral_plain h]
    cases cs with
    | nil => exact .inr hrest.single
    | cons c cs =>
      have hc := (h c List.mem_cons_self).2
      exact .inl fun hhead => hc (Option.some.inj hhead)
  | longBasic =>
    have htext : styled .longBasic cs ++ rest =
        '"' :: '"' :: '"' :: ((if cs.contains '\n' then ['\n'] else []) ++
          (escaped true 0 cs ++ '"' :: '"' :: '"' :: rest)) := by
      simp [styled]
    rw [htext, readString, dropNewline_start fun hlines => newline?_escaped hlines _]
    exact readLongBasic_escaped (Nat.zero_le 2) hrest.double
  | longLiteral =>
    obtain ⟨hplain, hrow⟩ := h
    have htext : styled .longLiteral cs ++ rest =
        '\'' :: '\'' :: '\'' :: ((if cs.contains '\n' then ['\n'] else []) ++
          (cs ++ '\'' :: '\'' :: '\'' :: rest)) := by
      simp [styled]
    rw [htext, readString, dropNewline_start fun hlines => newline?_literal hplain hlines _]
    exact readLongLiteral_plain hplain hrow hrest.single

theorem readString_quoted (s : String) (hrest : NoQuote rest) :
    readString (quoted s ++ rest) = .ok (s.toList, rest) :=
  readString_styled (holds_of s.toList) hrest

end RiscvBoot.Toml
