import RiscvBoot.Toml.Reader
import RiscvBoot.Proofs.Except

/-!
# Reading line by line

`IsLine line l` is for a line that is read as `l` whatever comes after it, so lines can be put
together in any order (`Drafts`) and a document is read one line at a time (`read_of_drafts`).
The lines that a key, a header, a comment or nothing at all makes are given once each.
-/

set_option autoImplicit false

namespace RiscvBoot.Toml

variable {name text value line : String} {lines : List String} {cs rest : List Char}
  {d d' : Draft} {l : Line} {x : Tree} {fuel : Nat}

/-- The line, with the break that ends it, says this and nothing about what follows. -/
structure IsLine (line : String) (l : Line) : Prop where
  not_empty : line.toList ≠ []
  reads : ∀ rest, readLine (skipBlanks (line.toList ++ rest)) = .ok (l, rest)

/-- The lines, put in one after the other, turn one draft into another. -/
inductive Drafts : Draft → List String → Draft → Prop where
  | nil (d : Draft) : Drafts d [] d
  | cons {d d' d'' : Draft} {line : String} {lines : List String} {l : Line}
      (isLine : IsLine line l) (fits : d.add l = .ok d') (rest : Drafts d' lines d'') :
      Drafts d (line :: lines) d''

theorem readLines_line (h : IsLine line l) (fuel : Nat) (d : Draft) (rest : List Char) :
    readLines (fuel + 1) d (line.toList ++ rest) =
      (d.addLine l (skipBlanks (line.toList ++ rest))).bind (readLines fuel · rest) := by
  have hreads := h.reads rest
  obtain ⟨c, cs, hline⟩ := List.exists_cons_of_ne_nil h.not_empty
  rw [hline] at hreads ⊢
  rw [List.cons_append, readLines, ← List.cons_append, hreads]
  · rfl
  · intro hnil
    cases hnil

/-- The text goes on after the lines as if it began with their draft; every line takes one step. -/
theorem readLines_append (h : Drafts d lines d') (fuel : Nat) (rest : List Char) :
    readLines (fuel + lines.length) d (lines.flatMap String.toList ++ rest) =
      readLines fuel d' rest := by
  induction h with
  | nil d => rfl
  | @cons d d' d'' line lines l isLine fits _ ih =>
    have hadd (cs : List Char) : d.addLine l cs = .ok d' := mapError_eq_ok_iff.2 fits
    rw [List.flatMap_cons, List.append_assoc, List.length_cons, ← Nat.add_assoc,
      readLines_line isLine, hadd, ← ih]
    rfl

theorem Drafts.length_le (h : Drafts d lines d') :
    lines.length ≤ (lines.flatMap String.toList).length := by
  induction h with
  | nil d => exact Nat.le_refl _
  | cons isLine _ _ ih =>
    have hline := List.length_pos_iff.2 isLine.not_empty
    rw [List.length_cons, List.flatMap_cons, List.length_append]
    omega

/-! ## The ends of lines -/

theorem skipBlanks_cons {c : Char} (hc : isBlank c = false) (cs : List Char) :
    skipBlanks (c :: cs) = c :: cs :=
  List.dropWhile_cons_of_neg (by rw [hc]; decide)

theorem endOfLine?_sharp {comment : List Char} (h : comment.dropWhile isPlain = '\n' :: rest) :
    endOfLine? ('#' :: comment) = some rest := by
  have hmark : skipBlanks ('#' :: comment) = '#' :: comment := rfl
  have hnewline : newline? ('\n' :: rest) = some rest := rfl
  unfold endOfLine?
  simp only [hmark, h, hnewline]

theorem newline?_cons {c : Char} (hnewline : c ≠ '\n') (hreturn : c ≠ '\r') (cs : List Char) :
    newline? (c :: cs) = none := by
  unfold newline?
  split
  · rename_i hcons
    cases hcons
    exact absurd rfl hnewline
  · rename_i hcons
    cases hcons
    exact absurd rfl hreturn
  · rfl

theorem endOfLine?_cons {c : Char} (hblank : isBlank c = false) (hsharp : c ≠ '#')
    (hnewline : c ≠ '\n') (hreturn : c ≠ '\r') (cs : List Char) :
    endOfLine? (c :: cs) = none := by
  unfold endOfLine?
  rw [skipBlanks_cons hblank]
  simp [hsharp, newline?_cons hnewline hreturn]

theorem readLine_of_end (hbracket : cs.head? ≠ some '[') (hend : endOfLine? cs = some rest) :
    readLine cs = .ok (.blank, rest) := by
  unfold readLine
  split
  · exact absurd rfl hbracket
  · rw [hend]

theorem isLine_nothing : IsLine "\n" .blank := ⟨by decide, fun _ => rfl⟩

def commentLine (text : String) : String := "#" ++ text ++ "\n"

theorem isLine_comment (htext : text.toList.all isPlain = true) :
    IsLine (commentLine text) .blank := by
  have hline : (commentLine text).toList = '#' :: (text.toList ++ ['\n']) := by
    simp [commentLine]
  refine ⟨by simp [hline], fun rest => ?_⟩
  have hskip : (text.toList ++ '\n' :: rest).dropWhile isPlain = '\n' :: rest := by
    rw [List.dropWhile_append_of_pos (List.all_eq_true.1 htext)]
    rfl
  rw [hline, List.cons_append, List.append_assoc, List.singleton_append,
    skipBlanks_cons (by decide)]
  exact readLine_of_end (by simp) (endOfLine?_sharp hskip)

/-! ## Bare keys -/

theorem isBareKey_iff :
    isBareKey cs = true ↔ cs ≠ [] ∧ ∀ c ∈ cs, isBareKeyChar c = true := by
  unfold isBareKey
  rw [Bool.and_eq_true, decide_eq_true_iff, List.all_eq_true]

theorem not_bare_of_blank : ∀ c, isBareKeyChar c = true → isBlank c = false := by
  intro c hc
  rw [Bool.eq_false_iff]
  intro hblank
  rcases Bool.or_eq_true_iff.1 hblank with h | h
  · obtain rfl := of_decide_eq_true h
    exact absurd hc (by decide)
  · obtain rfl := of_decide_eq_true h
    exact absurd hc (by decide)

theorem ne_of_bare {c e : Char} (hc : isBareKeyChar c = true) (he : isBareKeyChar e = false) :
    c ≠ e := by
  rintro rfl
  rw [hc] at he
  cases he

/-- A bare name is a key by itself if neither a bare character nor a point comes next. -/
theorem readKey_bare {e : Char} {after : List Char} (hname : isBareKey name.toList = true)
    (he : isBareKeyChar e = false) (hrest : skipBlanks (e :: rest) = after)
    (hpoint : after.head? ≠ some '.') :
    readKey (name.toList ++ e :: rest) = .ok (⟨[], name⟩, after) := by
  obtain ⟨hne, hbare⟩ := isBareKey_iff.1 hname
  obtain ⟨c, cs, hcs⟩ := List.exists_cons_of_ne_nil hne
  rw [hcs] at hbare ⊢
  have hc := hbare c List.mem_cons_self
  have hskip : skipBlanks (c :: cs ++ e :: rest) = c :: cs ++ e :: rest :=
    skipBlanks_cons (not_bare_of_blank c hc) _
  have htake : (c :: cs ++ e :: rest).takeWhile isBareKeyChar = c :: cs := by
    rw [List.takeWhile_append_of_pos hbare, List.takeWhile_cons_of_neg (by simp [he]),
      List.append_nil]
  have hdrop : (c :: cs ++ e :: rest).dropWhile isBareKeyChar = e :: rest := by
    rw [List.dropWhile_append_of_pos hbare, List.dropWhile_cons_of_neg (by simp [he])]
  have hpart : readKeyPart (c :: cs ++ e :: rest) = .ok (some (name, e :: rest)) := by
    unfold readKeyPart
    split
    · rename_i hquote
      cases hquote
      exact absurd hc (by decide)
    · rename_i hquote
      cases hquote
      exact absurd hc (by decide)
    · rw [htake, hdrop]
      dsimp only
      rw [← hcs, String.ofList_toList]
  have hparts : readKeyParts (c :: cs ++ e :: rest).length (c :: cs ++ e :: rest) =
      .ok (some ([name], after)) := by
    rw [List.length_append, List.length_cons, Nat.add_right_comm, readKeyParts, hskip, hpart]
    simp only [bind, Except.bind, hrest]
    split
    · exact absurd rfl hpoint
    · rfl
  unfold readKey readKey?
  rw [hparts]
  rfl

/-! ## Whole documents -/

/-- A byte order mark is not part of any line. -/
theorem IsLine.head?_ne_mark (h : IsLine line l) : line.toList.head? ≠ some '\ufeff' := by
  intro hhead
  obtain ⟨cs, hcs⟩ : ∃ cs, line.toList = '\ufeff' :: cs := by
    cases hline : line.toList with
    | nil => exact absurd hline h.not_empty
    | cons c cs =>
      rw [hline] at hhead
      exact ⟨cs, congrArg (· :: cs) (Option.some.inj hhead)⟩
  have hreads := h.reads []
  rw [hcs, List.append_nil, skipBlanks_cons (by decide)] at hreads
  have hend : endOfLine? ('\ufeff' :: cs) = none :=
    endOfLine?_cons (by decide) (by decide) (by decide) (by decide) cs
  have hparts : readKeyParts ('\ufeff' :: cs).length ('\ufeff' :: cs) = .ok none := by
    rw [List.length_cons, readKeyParts, skipBlanks_cons (by decide)]
    rfl
  have hkey : readKey ('\ufeff' :: cs) = .error ⟨'\ufeff' :: cs, "invalid key"⟩ := by
    unfold readKey readKey?
    rw [hparts]
    rfl
  unfold readLine at hreads
  rw [hend, hkey] at hreads
  cases hreads

theorem Drafts.dropMark (h : Drafts d lines d') (hne : lines ≠ []) (rest : List Char) :
    dropMark (lines.flatMap String.toList ++ rest) = lines.flatMap String.toList ++ rest := by
  cases h with
  | nil d => exact absurd rfl hne
  | @cons d d' d'' line lines l isLine fits rest =>
    obtain ⟨c, cs, hline⟩ := List.exists_cons_of_ne_nil isLine.not_empty
    have hmark := isLine.head?_ne_mark
    rw [List.flatMap_cons, hline, List.cons_append, List.cons_append]
    unfold Toml.dropMark
    split
    · rename_i hcons
      cases hcons
      rw [hline] at hmark
      exact absurd rfl hmark
    · rfl

/-- A document of such lines has the data of their draft. -/
theorem read_of_drafts (h : Drafts {} lines d) : read (String.join lines) = .ok d.toTree := by
  have hdrop : Toml.dropMark (String.join lines).toList = lines.flatMap String.toList ++ [] := by
    rw [String.toList_join, List.append_nil]
    cases lines with
    | nil => rfl
    | cons line lines =>
      have hdrop := h.dropMark (List.cons_ne_nil line lines) []
      rwa [List.append_nil] at hdrop
  obtain ⟨fuel, hfuel⟩ := Nat.exists_eq_add_of_le' h.length_le
  unfold read
  dsimp only
  rw [hdrop, List.append_nil, hfuel, ← List.append_nil (lines.flatMap String.toList),
    readLines_append h fuel []]
  cases fuel <;> rfl

/-! ## Keys and headers -/

/-- The characters are the value, whatever comes after the line that they end. Each of them gives a
step. -/
structure Spells (value : String) (x : Tree) : Prop where
  starts : ∀ c ∈ value.toList.head?, isBlank c = false
  reads : ∀ fuel room rest, value.toList.length ≤ fuel →
    readValue (fuel + 1) (room + 1) (value.toList ++ '\n' :: rest) = .ok (x, '\n' :: rest)

def headerLine (name : String) : String := "[" ++ name ++ "]\n"

theorem isLine_header (hname : isBareKey name.toList = true) :
    IsLine (headerLine name) (.header ⟨⟨[], name⟩, false⟩) := by
  have hline : (headerLine name).toList = '[' :: (name.toList ++ [']', '\n']) := by
    simp [headerLine]
  refine ⟨by simp [hline], fun rest => ?_⟩
  have hkey : readKey (name.toList ++ ']' :: '\n' :: rest) =
      .ok (⟨[], name⟩, ']' :: '\n' :: rest) :=
    readKey_bare hname (by decide) (skipBlanks_cons (by decide) _) (by simp)
  have hheader : readHeader (name.toList ++ ']' :: '\n' :: rest) =
      .ok (⟨⟨[], name⟩, false⟩, '\n' :: rest) := by
    obtain ⟨hne, hbare⟩ := isBareKey_iff.1 hname
    obtain ⟨c, cs, hcs⟩ := List.exists_cons_of_ne_nil hne
    rw [hcs] at hbare hkey ⊢
    unfold readHeader
    split
    · rename_i hbracket
      cases hbracket
      exact absurd (hbare '[' List.mem_cons_self) (by decide)
    · rw [hkey]
      rfl
  have hread : readLine ('[' :: (name.toList ++ ']' :: '\n' :: rest)) =
      (readHeader (name.toList ++ ']' :: '\n' :: rest)).bind fun r =>
        (endLine r.2).map (.header r.1, ·) := rfl
  rw [hline, List.cons_append, List.append_assoc, skipBlanks_cons (by decide)]
  exact hread.trans (by rw [hheader]; rfl)

def pairLine (name value : String) : String := name ++ " = " ++ value ++ "\n"

theorem length_pairLine_le {value value' : String} (name : String)
    (h : value.length ≤ value'.length) :
    (pairLine name value).length ≤ (pairLine name value').length := by
  simp only [pairLine, String.length_append]
  omega

theorem isLine_pair (hname : isBareKey name.toList = true) (hvalue : Spells value x) :
    IsLine (pairLine name value) (.pair ⟨⟨[], name⟩, x⟩) := by
  refine ⟨by simp [pairLine], fun rest => ?_⟩
  have hskip : skipBlanks (value.toList ++ '\n' :: rest) = value.toList ++ '\n' :: rest := by
    match value.toList, hvalue.starts with
    | [], _ => exact skipBlanks_cons (by decide) rest
    | c :: cs, hstart => exact skipBlanks_cons (hstart c rfl) _
  have hequals : expectEquals ('=' :: ' ' :: (value.toList ++ '\n' :: rest)) =
      .ok (value.toList ++ '\n' :: rest) := by
    have hblank : skipBlanks (' ' :: (value.toList ++ '\n' :: rest)) =
        value.toList ++ '\n' :: rest := hskip
    exact congrArg Except.ok hblank
  have hread := hvalue.reads (2 * (value.toList ++ '\n' :: rest).length + 1) 78 rest
    (by rw [List.length_append]; omega)
  have hline : (pairLine name value).toList ++ rest =
      name.toList ++ ' ' :: '=' :: ' ' :: (value.toList ++ '\n' :: rest) := by simp [pairLine]
  have hkey : readKey (name.toList ++ ' ' :: '=' :: ' ' :: (value.toList ++ '\n' :: rest)) =
      .ok (⟨[], name⟩, '=' :: ' ' :: (value.toList ++ '\n' :: rest)) :=
    readKey_bare hname (by decide) rfl (by simp)
  obtain ⟨hne, hbare⟩ := isBareKey_iff.1 hname
  obtain ⟨c, cs, hcs⟩ := List.exists_cons_of_ne_nil hne
  rw [hline]
  rw [hcs] at hbare hkey ⊢
  have hc := hbare c List.mem_cons_self
  have hend : endOfLine? (c :: cs ++ ' ' :: '=' :: ' ' :: (value.toList ++ '\n' :: rest)) = none :=
    endOfLine?_cons (not_bare_of_blank c hc) (ne_of_bare hc (by decide))
      (ne_of_bare hc (by decide)) (ne_of_bare hc (by decide)) _
  rw [List.cons_append, skipBlanks_cons (not_bare_of_blank c hc), ← List.cons_append]
  unfold readLine
  split
  · rename_i hbracket
    cases hbracket
    exact absurd hc (by decide)
  · rw [hend, hkey]
    simp only [bind, Except.bind, hequals]
    rw [show nestingLimit = 78 + 1 from rfl, hread]
    rfl

/-! ## Values -/

theorem spells_scalar {c : Char} (hvalue : value.toList = c :: cs) (hblank : isBlank c = false)
    (hlist : c ≠ '[') (htable : c ≠ '\x7b')
    (hreads : ∀ rest, readScalar (value.toList ++ '\n' :: rest) = .ok (x, '\n' :: rest)) :
    Spells value x := by
  refine ⟨?_, ?_⟩
  · intro e he
    rw [hvalue] at he
    cases he
    exact hblank
  · intro fuel room rest _
    have hscalar := hreads rest
    rw [hvalue, List.cons_append] at hscalar ⊢
    unfold readValue
    split
    · rename_i hbracket
      cases hbracket
      exact absurd rfl hlist
    · rename_i hbrace
      cases hbrace
      exact absurd rfl htable
    · exact hscalar

theorem spells_boolean (b : Bool) : Spells (toString b) (.boolean b) := by
  cases b with
  | false => exact spells_scalar rfl (by decide) (by decide) (by decide) fun _ => rfl
  | true => exact spells_scalar rfl (by decide) (by decide) (by decide) fun _ => rfl

theorem spells_empty : Spells "[]" (.list []) := by
  have hvalue : "[]".toList = ['[', ']'] := rfl
  refine ⟨by rw [hvalue]; simp [isBlank], fun fuel room rest _ => ?_⟩
  rw [hvalue]
  unfold readValue
  rfl

/-- A character that stands for itself in a basic string. -/
def isUnescaped (c : Char) : Bool := isPlain c && c ≠ '"' && c ≠ '\\'

theorem isUnescaped_iff {c : Char} :
    isUnescaped c = true ↔ isPlain c = true ∧ c ≠ '"' ∧ c ≠ '\\' := by
  unfold isUnescaped
  rw [Bool.and_eq_true, Bool.and_eq_true, decide_eq_true_iff, decide_eq_true_iff, and_assoc]

theorem readBasic_unescaped (hcs : ∀ c ∈ cs, isUnescaped c = true)
    (rest : List Char) : readBasic (cs ++ '"' :: rest) = .ok (cs, rest) := by
  induction cs with
  | nil =>
    rw [List.nil_append]
    unfold readBasic
    rfl
  | cons c cs ih =>
    obtain ⟨hplain, hquote, hescape⟩ := isUnescaped_iff.1 (hcs c List.mem_cons_self)
    have hrest := ih fun e he => hcs e (List.mem_cons_of_mem c he)
    rw [List.cons_append, readBasic, if_pos hplain, hrest]
    · rfl
    · exact hquote
    · exact hescape

theorem readString_basic (hquotes : cs.head? ≠ some '"' ∨ cs.tail.head? ≠ some '"') :
    readString ('"' :: cs) = readBasic cs := by
  unfold readString
  split
  · rename_i hcs
    cases hcs
    rcases hquotes with h | h
    · exact absurd rfl h
    · exact absurd rfl h
  · rename_i hcs
    cases hcs
    rfl
  · rename_i hcs
    cases hcs
  · rename_i hcs
    cases hcs
  · rename_i hcs _ _
    exact (hcs cs rfl).elim

def inQuotes (text : String) : String := "\"" ++ text ++ "\""

theorem spells_text (htext : text.toList.all isUnescaped = true) :
    Spells (inQuotes text) (.text text) := by
  have hall := List.all_eq_true.1 htext
  have hvalue : (inQuotes text).toList = '"' :: (text.toList ++ ['"']) := by simp [inQuotes]
  refine spells_scalar hvalue (by decide) (by decide) (by decide) fun rest => ?_
  have hquotes : (text.toList ++ '"' :: '\n' :: rest).head? ≠ some '"' ∨
      (text.toList ++ '"' :: '\n' :: rest).tail.head? ≠ some '"' := by
    cases hcs : text.toList with
    | nil => exact .inr (by simp)
    | cons c cs =>
      have hc := (isUnescaped_iff.1 (hall c (hcs ▸ List.mem_cons_self))).2.1
      exact .inl (by simpa using hc)
  have hstring : readString ('"' :: (text.toList ++ '"' :: '\n' :: rest)) =
      .ok (text.toList, '\n' :: rest) := by
    rw [readString_basic hquotes, readBasic_unescaped hall]
  have hscalar : readScalar ('"' :: (text.toList ++ '"' :: '\n' :: rest)) =
      (readString ('"' :: (text.toList ++ '"' :: '\n' :: rest))).map fun r =>
        (.text (String.ofList r.1), r.2) := rfl
  rw [hvalue, List.cons_append, List.append_assoc, List.singleton_append, hscalar, hstring]
  exact congrArg (fun s => Except.ok (Tree.text s, '\n' :: rest)) String.ofList_toList

end RiscvBoot.Toml
