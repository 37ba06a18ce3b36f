import RiscvBoot.Proofs.Regex.Matching
import RiscvBoot.Sweep.Pattern
import RiscvBoot.Text.Lines

/-!
# Which command lines are taken for an emulator's

The pattern of a name is read as an extended regular expression. Whatever characters the name is
made of, each of them is read as itself, so the expression is a fixed start, the name letter by
letter, and a fixed end. Main statement: the lines that are accepted are those in which the name
stands as the last part of the first word (`patternFor_accepts_iff`).
-/

set_option autoImplicit false

namespace RiscvBoot.Sweeper

open Regex

theorem mem_specialChars_iff (c : Char) : c ∈ specialChars ↔ c ∈ metacharacters := by
  have hchars : specialChars =
      ['\\', '.', '^', '$', '|', '?', '*', '+', '(', ')', '[', ']', '\x7b', '\x7d'] := by rfl
  rw [hchars, metacharacters]
  simp only [List.mem_cons, List.not_mem_nil, or_false]
  grind

/-- Every character of an escaped name is read as itself, whatever follows the name. -/
theorem tokens?_escape_append (name rest : List Char) :
    tokens? (escape name ++ rest) =
      (tokens? rest).map (name.map (Token.piece ∘ Regex.literal) ++ ·) := by
  induction name with
  | nil => simp [escape]
  | cons c name ih =>
    have hread : readToken (escape (c :: name) ++ rest) =
        some (.piece (.literal c), escape name ++ rest) := by
      by_cases hc : c ∈ specialChars
      · simpa [escape, hc] using readToken_escaped ((mem_specialChars_iff c).1 hc) _
      · simpa [escape, hc] using readToken_ordinary (mt (mem_specialChars_iff c).2 hc) _
    rw [tokens?_of_readToken hread, ih, Option.map_map]
    rfl

/-- The tokens of the pattern before the name: the path of a program. -/
def pathTokens : List Token :=
  [.piece .lineStart, .opening, .piece (.bracket true [⟨' ', ' '⟩]), .repetition 0 none,
    .piece (.literal '/'), .closing, .repetition 0 (some 1)]

/-- The tokens of the pattern after the name: the end of a word. -/
def wordEndTokens : List Token :=
  [.opening, .piece (.literal ' '), .bar, .piece .lineEnd, .closing]

theorem readToken_notBlank (rest : List Char) :
    readToken ("[^ ]".toList ++ rest) = some (.piece (.bracket true [⟨' ', ' '⟩]), rest) := by
  have hranges : readRanges (' ' :: ']' :: rest) = some ([⟨' ', ' '⟩], rest) := by
    have hrange : readRange (' ' :: ']' :: rest) = some (⟨' ', ' '⟩, ']' :: rest) := rfl
    rw [readRanges]
    split <;> simp_all
  change readBracket ('^' :: ' ' :: ']' :: rest) = _
  simp [readBracket, hranges]

theorem tokens?_path_append (cs : List Char) :
    tokens? ("^([^ ]*/)?".toList ++ cs) = (tokens? cs).map (pathTokens ++ ·) := by
  have hread : ∀ {c : Char} {t : Token} (rest : List Char),
      readToken (c :: rest) = some (t, rest) →
      tokens? (c :: rest) = (tokens? rest).map (t :: ·) :=
    fun _ h => tokens?_of_readToken h
  change tokens? ('^' :: '(' :: ("[^ ]".toList ++ ('*' :: '/' :: ')' :: '?' :: cs))) = _
  rw [hread _ rfl, hread _ rfl, tokens?_of_readToken (readToken_notBlank _), hread _ rfl,
    hread _ rfl, hread _ rfl, hread _ rfl]
  simp only [Option.map_map]
  rfl

theorem tokens?_wordEnd : tokens? "( |$)".toList = some wordEndTokens := by
  have hread : ∀ {c : Char} {t : Token} (rest : List Char),
      readToken (c :: rest) = some (t, rest) →
      tokens? (c :: rest) = (tokens? rest).map (t :: ·) :=
    fun _ h => tokens?_of_readToken h
  change tokens? ['(', ' ', '|', '$', ')'] = _
  rw [hread _ rfl, hread _ rfl, hread _ rfl, hread _ rfl, hread _ rfl, tokens?_nil]
  rfl

/-- A path that ends in a slash, if there is one. -/
def pathPartRegex : Regex :=
  .repeated (.group (.seq (.repeated (.bracket true [⟨' ', ' '⟩]) 0 none) (.literal '/')))
    0 (some 1)

/-- The start of a line with the path of a program. -/
def pathRegex : Regex := .seq .lineStart pathPartRegex

/-- A blank or the end of the line. -/
def wordEndRegex : Regex := .group (.alt (.literal ' ') .lineEnd)

/-- An expression with the letters of a name after it. -/
def spelled (e : Regex) (name : List Char) : Regex :=
  name.foldl (fun e c => .seq e (.literal c)) e

/-- Letters are pieces of the open branch, and what follows them finds the branch longer by just
these letters. -/
theorem build_letters {f : Frame} {e : Regex} (hbranches : f.branches = none)
    (hbranch : f.branch = some e) (name : List Char) :
    build f [] (name.map (Token.piece ∘ Regex.literal) ++ wordEndTokens) =
      some (.seq (spelled e name) wordEndRegex) := by
  induction name generalizing f e with
  | nil =>
    change (f.push wordEndRegex).close? = _
    have hpushed : (f.push wordEndRegex).branches = none := hbranches
    rw [Frame.close?_of_branches hpushed, Frame.branch_push, hbranch]
    rfl
  | cons c name ih =>
    have hpushed : (f.push (.literal c)).branch = some (.seq e (.literal c)) := by
      rw [Frame.branch_push, hbranch]
      rfl
    exact ih (f := f.push (.literal c)) hbranches hpushed

theorem build_path_append (ts : List Token) :
    build {} [] (pathTokens ++ ts) =
      build (({} : Frame).push .lineStart |>.push pathPartRegex) [] ts := rfl

theorem toList_patternFor (name : String) :
    (patternFor name).toList =
      "^([^ ]*/)?".toList ++ escape name.toList ++ "( |$)".toList := by
  unfold patternFor
  exact String.toList_ofList

theorem parse?_patternFor (name : String) :
    parse? (patternFor name) = some (.seq (spelled pathRegex name.toList) wordEndRegex) := by
  have htokens : tokens? (patternFor name).toList =
      some (pathTokens ++ (name.toList.map (Token.piece ∘ Regex.literal) ++ wordEndTokens)) := by
    simp only [toList_patternFor, List.append_assoc, tokens?_path_append,
      tokens?_escape_append, tokens?_wordEnd, Option.map_some]
  simp only [parse?, htokens, Option.bind_some, build_path_append]
  exact build_letters rfl rfl name.toList

theorem matches_pathPartRegex_iff {before text after : List Char} :
    Matches pathPartRegex before text after ↔
      text = [] ∨ ∃ dir, text = dir ++ ['/'] ∧ ' ' ∉ dir := by
  have hblank (c : Char) :
      ([⟨' ', ' '⟩] : List CharRange).any (·.contains c) = !true ↔ c ≠ ' ' := by
    simp [CharRange.contains]
    grind
  simp only [pathPartRegex, matches_optional_iff, matches_group_iff, matches_seq_iff,
    matches_star_bracket_iff, matches_literal_iff, hblank]
  grind

theorem matches_wordEndRegex_iff {before text after : List Char} :
    Matches wordEndRegex before text after ↔ text = [' '] ∨ (text = [] ∧ after = []) := by
  simp only [wordEndRegex, matches_group_iff, matches_alt_iff, matches_literal_iff,
    matches_lineEnd_iff]

/-- Nothing, or something after a blank. -/
def AfterWord (rest : List Char) : Prop := rest = [] ∨ ∃ more, rest = ' ' :: more

/-- Nothing, or a path without blanks that ends in a slash. -/
def PathPart (path : List Char) : Prop := path = [] ∨ ∃ dir, path = dir ++ ['/'] ∧ ' ' ∉ dir

theorem occursIn_iff (name line : List Char) :
    (Regex.seq (spelled pathRegex name) wordEndRegex).OccursIn line ↔
      ∃ path rest, line = path ++ name ++ rest ∧ PathPart path ∧ AfterWord rest := by
  simp only [OccursIn, spelled, matches_seq_iff, matches_literals_iff, pathRegex,
    matches_lineStart_iff, matches_pathPartRegex_iff, matches_wordEndRegex_iff]
  constructor
  · rintro ⟨_, _, after, rfl, _, last, rfl, ⟨_, rfl, _, path, rfl, ⟨rfl, rfl⟩, hpath⟩, hlast⟩
    refine ⟨path, last ++ after, by simp, hpath, ?_⟩
    rcases hlast with rfl | ⟨rfl, rfl⟩
    · exact .inr ⟨after, rfl⟩
    · exact .inl rfl
  · rintro ⟨path, rest, rfl, hpath, rfl | ⟨more, rfl⟩⟩
    · exact ⟨[], path ++ name, [], by simp, path ++ name, [], by simp,
        ⟨path, rfl, [], path, rfl, ⟨rfl, rfl⟩, hpath⟩, .inr ⟨rfl, rfl⟩⟩
    · exact ⟨[], path ++ name ++ [' '], more, by simp, path ++ name, [' '], rfl,
        ⟨path, rfl, [], path, rfl, ⟨rfl, rfl⟩, hpath⟩, .inl rfl⟩

theorem accepts_patternFor_iff (name line : String) :
    Regex.Accepts (patternFor name) line ↔
      ∃ path rest, line.toList = path ++ name.toList ++ rest ∧ PathPart path ∧
        AfterWord rest := by
  simp only [Regex.Accepts, parse?_patternFor, Option.some.injEq, exists_eq_left', occursIn_iff]

/-- A word is the text up to the first blank. -/
theorem takeWhile_word {word rest : List Char} (hword : ' ' ∉ word) (hrest : AfterWord rest) :
    (word ++ rest).takeWhile (· ≠ ' ') = word := by
  rw [List.takeWhile_append_of_pos (by grind)]
  rcases hrest with rfl | ⟨more, rfl⟩ <;> simp

theorem afterWord_unwords (word : String) (words : List String) :
    ∃ rest, (Text.unwords (word :: words)).toList = word.toList ++ rest ∧ AfterWord rest := by
  rw [Text.unwords, String.toList_intercalate, List.map_cons]
  cases words with
  | nil => exact ⟨[], by simp, .inl rfl⟩
  | cons next words =>
    refine ⟨' ' :: [' '].intercalate ((next :: words).map String.toList), ?_, .inr ⟨_, rfl⟩⟩
    simp [List.intercalate]

/-- Among words without blanks, the accepted ones are those that end in the name, with nothing or
a slash before it. -/
theorem accepts_unwords_iff {name word : String} (hname : ' ' ∉ name.toList)
    (hword : ' ' ∉ word.toList) (args : List String) :
    Regex.Accepts (patternFor name) (Text.unwords (word :: args)) ↔
      word = name ∨ ∃ dir : String, word = dir ++ "/" ++ name := by
  obtain ⟨tail, htail, hafter⟩ := afterWord_unwords word args
  rw [accepts_patternFor_iff, htail]
  constructor
  · rintro ⟨path, rest, hline, hpath, hrest⟩
    have hblank : ' ' ∉ path ++ name.toList := by
      rcases hpath with rfl | ⟨dir, rfl, hdir⟩
      · simpa using hname
      · simp [hdir, hname]
    have hsame : word.toList = path ++ name.toList := by
      rw [← takeWhile_word hword hafter, hline, takeWhile_word hblank hrest]
    rcases hpath with rfl | ⟨dir, rfl, _⟩
    · exact .inl (String.toList_inj.1 (by simpa using hsame))
    · refine .inr ⟨String.ofList dir, String.toList_inj.1 ?_⟩
      simpa using hsame
  · rintro (rfl | ⟨dir, rfl⟩)
    · exact ⟨[], tail, rfl, .inl rfl, hafter⟩
    · have hdir : ' ' ∉ dir.toList := by simp_all
      exact ⟨dir.toList ++ ['/'], tail, by simp, .inr ⟨dir.toList, rfl, hdir⟩, hafter⟩

/-- A line is accepted if the name stands at its start, or after a path without blanks, and a
blank or nothing follows. So of a command only the first word counts, and the name is its last
part, whatever characters the name is made of and whatever the other words are. -/
theorem patternFor_accepts_iff :
    (∀ name line : String, Regex.Accepts (patternFor name) line ↔
      ∃ path rest, line.toList = path ++ name.toList ++ rest ∧ PathPart path ∧
        AfterWord rest) ∧
    ∀ (name word : String) (args : List String),
      ' ' ∉ name.toList → ' ' ∉ word.toList →
      (Regex.Accepts (patternFor name) (Text.unwords (word :: args)) ↔
        word = name ∨ ∃ dir : String, word = dir ++ "/" ++ name) :=
  ⟨accepts_patternFor_iff, fun _ _ args hname hword => accepts_unwords_iff hname hword args⟩

/-- An emulator that is started by its path is found, and one that is only mentioned is not. -/
theorem patternFor_accepts_first_word :
    Regex.Accepts (patternFor "a.b+c") (Text.unwords ["/opt/a.b+c", "x"]) ∧
    ¬Regex.Accepts (patternFor "a.b+c") (Text.unwords ["vi", "/opt/a.b+c"]) := by
  constructor
  · rw [patternFor_accepts_iff.2 "a.b+c" "/opt/a.b+c" ["x"] (by decide) (by decide)]
    exact .inr ⟨"/opt", by decide⟩
  · rw [patternFor_accepts_iff.2 "a.b+c" "vi" ["/opt/a.b+c"] (by decide) (by decide)]
    rintro (h | ⟨dir, h⟩)
    · revert h
      decide
    · have hlength := congrArg String.length h
      have hvi : "vi".length = 2 := by decide
      have hname : "a.b+c".length = 5 := by decide
      rw [String.length_append, String.length_append] at hlength
      omega

end RiscvBoot.Sweeper
