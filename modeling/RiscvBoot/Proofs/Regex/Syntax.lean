import RiscvBoot.Text.Digits

/-!
# Extended regular expressions as text

An extended regular expression is read in two passes, first into tokens and then into a tree.
What the standard leaves undefined is refused: a backslash before an ordinary character, a
repetition of nothing, of an anchor or of another repetition, an empty branch, a bracket that
is not closed. Named classes of characters depend on the language of the system and are refused
too. A text that is read therefore means the same to every program that follows the standard.
-/

set_option autoImplicit false

namespace RiscvBoot

/-- The characters from one to another. -/
structure CharRange where
  first : Char
  last : Char
  deriving DecidableEq, Repr

def CharRange.contains (r : CharRange) (c : Char) : Bool := r.first ≤ c && c ≤ r.last

inductive Regex where
  | literal (c : Char)
  | anyChar
  | bracket (negated : Bool) (ranges : List CharRange)
  | lineStart
  | lineEnd
  | group (e : Regex)
  | repeated (e : Regex) (least : Nat) (most : Option Nat)
  | seq (e f : Regex)
  | alt (e f : Regex)
  deriving DecidableEq, Repr

namespace Regex

/-- The characters that a backslash makes ordinary. -/
def metacharacters : List Char :=
  ['^', '$', '.', '[', ']', '(', ')', '|', '*', '+', '?', '\x7b', '\x7d', '\\']

inductive Token where
  /-- An expression that stands by itself. -/
  | piece (e : Regex)
  | repetition (least : Nat) (most : Option Nat)
  | bar
  | opening
  | closing
  deriving DecidableEq, Repr

/-- One range of a bracket, or one character. A dash that is last stands for itself. -/
def readRange : List Char → Option (CharRange × List Char)
  | '[' :: '.' :: _ | '[' :: '=' :: _ | '[' :: ':' :: _ => none
  | c :: '-' :: ']' :: rest => some (⟨c, c⟩, '-' :: ']' :: rest)
  | c :: '-' :: d :: rest => if c ≤ d then some (⟨c, d⟩, rest) else none
  | c :: rest => some (⟨c, c⟩, rest)
  | [] => none

theorem readRange_length {cs rest : List Char} {r : CharRange}
    (h : readRange cs = some (r, rest)) : rest.length < cs.length := by
  unfold readRange at h
  split at h <;> grind

/-- The ranges of a bracket and what follows its end. There is at least one, so a closing bracket
that comes first stands for itself. -/
def readRanges (cs : List Char) : Option (List CharRange × List Char) :=
  match _h : readRange cs with
  | none => none
  | some (r, ']' :: rest) => some ([r], rest)
  | some (r, rest) => (readRanges rest).map fun more => (r :: more.1, more.2)
termination_by cs.length
decreasing_by exact readRange_length _h

theorem readRanges_length {cs rest : List Char} {ranges : List CharRange}
    (h : readRanges cs = some (ranges, rest)) : rest.length < cs.length := by
  fun_induction readRanges cs generalizing ranges with
  | case1 cs hr => simp at h
  | case2 cs r after hr =>
    have := readRange_length hr
    simp only [Option.some.injEq, Prod.mk.injEq] at h
    obtain ⟨_, rfl⟩ := h
    simp only [List.length_cons] at this
    omega
  | case3 cs r after _ hr ih =>
    have hlt := readRange_length hr
    obtain ⟨more, hmore, heq⟩ := Option.map_eq_some_iff.1 h
    simp only [Prod.mk.injEq] at heq
    obtain ⟨_, rfl⟩ := heq
    exact Nat.lt_trans (ih hmore) hlt

/-- A bracket after its opening sign. -/
def readBracket (cs : List Char) : Option (Token × List Char) :=
  match cs with
  | '^' :: rest => (readRanges rest).map fun r => (.piece (.bracket true r.1), r.2)
  | _ => (readRanges cs).map fun r => (.piece (.bracket false r.1), r.2)

theorem readBracket_length {cs rest : List Char} {t : Token}
    (h : readBracket cs = some (t, rest)) : rest.length < cs.length := by
  unfold readBracket at h
  split at h
  all_goals
    obtain ⟨r, hr, heq⟩ := Option.map_eq_some_iff.1 h
    have := readRanges_length hr
    grind

/-- A number and what follows its digits. -/
def readCount (cs : List Char) : Option (Nat × List Char) :=
  if cs.takeWhile Char.isDigit = [] then none
  else some (Text.decimalValue (cs.takeWhile Char.isDigit), cs.dropWhile Char.isDigit)

theorem readCount_length {cs rest : List Char} {n : Nat} (h : readCount cs = some (n, rest)) :
    rest.length ≤ cs.length := by
  have := (List.dropWhile_sublist Char.isDigit (l := cs)).length_le
  unfold readCount at h
  grind

/-- A counted repetition after its opening brace. -/
def readInterval (cs : List Char) : Option (Token × List Char) :=
  match readCount cs with
  | some (low, '\x7d' :: rest) => some (.repetition low (some low), rest)
  | some (low, ',' :: '\x7d' :: rest) => some (.repetition low none, rest)
  | some (low, ',' :: rest) =>
    match readCount rest with
    | some (high, '\x7d' :: rest) =>
      if low ≤ high then some (.repetition low (some high), rest) else none
    | _ => none
  | _ => none

theorem readInterval_length {cs rest : List Char} {t : Token}
    (h : readInterval cs = some (t, rest)) : rest.length < cs.length := by
  unfold readInterval at h
  split at h
  · rename_i hr
    have := readCount_length hr
    grind
  · rename_i hr
    have := readCount_length hr
    grind
  · rename_i hr
    have := readCount_length hr
    split at h
    · rename_i hr'
      have := readCount_length hr'
      grind
    · simp at h
  · simp at h

def Token.ofChar : Char → Token
  | '^' => .piece .lineStart
  | '$' => .piece .lineEnd
  | '.' => .piece .anyChar
  | '(' => .opening
  | ')' => .closing
  | '|' => .bar
  | '*' => .repetition 0 none
  | '+' => .repetition 1 none
  | '?' => .repetition 0 (some 1)
  | c => .piece (.literal c)

/-- The token at the start of a text, and what follows it. -/
def readToken : List Char → Option (Token × List Char)
  | [] => none
  | '\\' :: rest =>
    match rest with
    | c :: rest => if c ∈ metacharacters then some (.piece (.literal c), rest) else none
    | [] => none
  | '[' :: rest => readBracket rest
  | '\x7b' :: rest => readInterval rest
  | c :: rest => some (.ofChar c, rest)

theorem readToken_length {cs rest : List Char} {t : Token}
    (h : readToken cs = some (t, rest)) : rest.length < cs.length := by
  unfold readToken at h
  split at h
  · simp at h
  · grind
  · have := readBracket_length h
    grind
  · have := readInterval_length h
    grind
  · grind

def tokens? (cs : List Char) : Option (List Token) :=
  if cs = [] then some []
  else
    match _h : readToken cs with
    | none => none
    | some (t, rest) => (tokens? rest).map (t :: ·)
termination_by cs.length
decreasing_by exact readToken_length _h

@[simp] theorem tokens?_nil : tokens? [] = some [] := by
  rw [tokens?]
  rfl

theorem tokens?_of_readToken {cs rest : List Char} {t : Token}
    (h : readToken cs = some (t, rest)) : tokens? cs = (tokens? rest).map (t :: ·) := by
  have hne : cs ≠ [] := by
    rintro rfl
    simp [readToken] at h
  rw [tokens?, if_neg hne]
  split <;> simp_all

theorem readToken_escaped {c : Char} (h : c ∈ metacharacters) (rest : List Char) :
    readToken ('\\' :: c :: rest) = some (.piece (.literal c), rest) := by
  simp [readToken, h]

theorem readToken_ordinary {c : Char} (h : c ∉ metacharacters) (rest : List Char) :
    readToken (c :: rest) = some (.piece (.literal c), rest) := by
  simp only [metacharacters, List.mem_cons, List.not_mem_nil, or_false, not_or] at h
  unfold readToken
  split <;> simp_all [Token.ofChar]

/-- An expression and one that may follow it. -/
def followedBy : Option Regex → Regex → Regex
  | none, f => f
  | some e, f => .seq e f

/-- A group that is still open: its finished branches, and in the last branch all but the last
piece, and the last piece, which a repetition applies to. -/
structure Frame where
  branches : Option Regex := none
  before : Option Regex := none
  piece : Option Regex := none

namespace Frame

/-- The branch that is not finished, if it has a piece. -/
def branch (f : Frame) : Option Regex := f.piece.map (followedBy f.before)

def push (f : Frame) (e : Regex) : Frame := { f with before := f.branch, piece := some e }

theorem branch_push (f : Frame) (e : Regex) :
    (f.push e).branch = some (followedBy f.branch e) := rfl

/-- A repetition of this would have no meaning. -/
def isFixed : Regex → Bool
  | .lineStart | .lineEnd | .repeated _ _ _ => true
  | _ => false

def repeat? (f : Frame) (least : Nat) (most : Option Nat) : Option Frame :=
  match f.piece with
  | some e => if isFixed e then none else some { f with piece := some (.repeated e least most) }
  | none => none

/-- Everything in the group. -/
def close? (f : Frame) : Option Regex :=
  f.branch.map fun last =>
    match f.branches with
    | none => last
    | some e => .alt e last

theorem close?_of_branches {f : Frame} (h : f.branches = none) : f.close? = f.branch := by
  simp [close?, h]

/-- The group with a new branch. -/
def bar? (f : Frame) : Option Frame := f.close?.map fun e => { branches := some e }

end Frame

/-- The tree of a row of tokens, inside an open group and the groups around it. -/
def build : Frame → List Frame → List Token → Option Regex
  | f, [], [] => f.close?
  | _, _ :: _, [] => none
  | f, outer, .piece e :: ts => build (f.push e) outer ts
  | f, outer, .repetition least most :: ts => (f.repeat? least most).bind (build · outer ts)
  | f, outer, .bar :: ts => f.bar?.bind (build · outer ts)
  | f, outer, .opening :: ts => build {} (f :: outer) ts
  | _, [], .closing :: _ => none
  | f, g :: outer, .closing :: ts => f.close?.bind fun e => build (g.push (.group e)) outer ts

/-- The expression that a text stands for. -/
def parse? (text : String) : Option Regex := (tokens? text.toList).bind (build {} [])

end Regex

end RiscvBoot
