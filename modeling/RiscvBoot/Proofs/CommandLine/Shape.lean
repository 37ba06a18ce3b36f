import RiscvBoot.CommandLine.Arguments
import RiscvBoot.Proofs.Except

/-!
# The forms of arguments

What an argument is by its form, and what a long option or a row of short ones makes of the level in
which it stands. Both go in two directions: from the text to what is read, and back from what was
read to the text.
-/

set_option autoImplicit false

namespace RiscvBoot.CommandLine

variable {arg name text : String} {attached : Option String} {c : Char} {cs letters : List Char}

/-! ## Shapes -/

/-- What is attached to a name. -/
def attachment : Option String → List Char
  | none => []
  | some text => '=' :: text.toList

theorem splitValue_cons_eq (cs : List Char) :
    splitValue ('=' :: cs) = ("", some (String.ofList cs)) := by
  simp [splitValue]

theorem splitValue_cons_of_ne (hc : c ≠ '=') (cs : List Char) :
    splitValue (c :: cs) = (String.ofList (c :: (splitValue cs).1.toList), (splitValue cs).2) := by
  have htake : (c :: cs).takeWhile (· ≠ '=') = c :: cs.takeWhile (· ≠ '=') :=
    List.takeWhile_cons_of_pos (decide_eq_true hc)
  unfold splitValue
  dsimp only
  rw [htake, List.length_cons, List.drop_succ_cons]
  split
  · rw [String.toList_ofList]
  · rw [String.toList_ofList]

theorem splitValue_joined (cs : List Char) :
    '=' ∉ (splitValue cs).1.toList ∧
      (splitValue cs).1.toList ++ attachment (splitValue cs).2 = cs := by
  induction cs with
  | nil => decide
  | cons c cs ih =>
    obtain ⟨hname, hjoined⟩ := ih
    by_cases hc : c = '='
    · subst hc
      rw [splitValue_cons_eq]
      simp [attachment]
    · rw [splitValue_cons_of_ne hc, String.toList_ofList]
      refine ⟨?_, congrArg (c :: ·) hjoined⟩
      intro hmem
      rcases List.mem_cons.1 hmem with heq | hmem
      · exact hc heq.symm
      · exact hname hmem

theorem splitValue_append (hname : '=' ∉ cs) (attached : Option String) :
    splitValue (cs ++ attachment attached) = (String.ofList cs, attached) := by
  induction cs with
  | nil =>
    cases attached with
    | none => rfl
    | some text => simp [attachment, splitValue_cons_eq]
  | cons c cs ih =>
    have hc : c ≠ '=' := fun heq => hname (heq ▸ List.mem_cons_self)
    have hcs := ih fun hmem => hname (List.mem_cons_of_mem c hmem)
    rw [List.cons_append, splitValue_cons_of_ne hc, hcs, String.toList_ofList]

/-- A long option as it is written, with what is attached to it. -/
def longForm (name : String) : Option String → String
  | none => "--" ++ name
  | some text => "--" ++ name ++ "=" ++ text

theorem toList_longForm (name : String) (attached : Option String) :
    (longForm name attached).toList = '-' :: '-' :: (name.toList ++ attachment attached) := by
  cases attached with
  | none => simp [longForm, attachment, String.toList_append]
  | some text => simp [longForm, attachment, String.toList_append]

/-- An option of any form, or the mark that no options follow. -/
def Hyphened (arg : String) : Prop := ∃ c cs, arg.toList = '-' :: c :: cs

/-- How an argument of a shape is written. -/
inductive HasShape (arg : String) : Shape → Prop where
  | plain (h : ¬Hyphened arg) : HasShape arg .plain
  | separator (h : arg = "--") : HasShape arg .separator
  | long {name : String} {attached : Option String} (h : arg = longForm name attached) :
      HasShape arg (.long name attached)
  | short {c : Char} {cs : List Char} (h : arg.toList = '-' :: c :: cs) :
      HasShape arg (.short (c :: cs))

theorem hasShape_of (arg : String) : HasShape arg (Shape.of arg) := by
  unfold Shape.of
  split
  · rename_i h
    exact .separator (String.toList_inj.1 h)
  · rename_i cs _ h
    have hlong : arg = longForm (splitValue cs).1 (splitValue cs).2 := by
      rw [← String.toList_inj, h, toList_longForm, (splitValue_joined cs).2]
    exact .long hlong
  · rename_i h
    exact .short h
  · rename_i hnot
    refine .plain ?_
    rintro ⟨c, cs, h⟩
    exact hnot c cs h

theorem not_hyphened_of_shape (h : Shape.of arg = .plain) : ¬Hyphened arg := by
  have hwritten := hasShape_of arg
  rw [h] at hwritten
  cases hwritten with
  | plain hplain => exact hplain

theorem eq_separator_of_shape (h : Shape.of arg = .separator) : arg = "--" := by
  have hwritten := hasShape_of arg
  rw [h] at hwritten
  cases hwritten with
  | separator harg => exact harg

theorem eq_longForm_of_shape (h : Shape.of arg = .long name attached) :
    arg = longForm name attached := by
  have hwritten := hasShape_of arg
  rw [h] at hwritten
  cases hwritten with
  | long harg => exact harg

theorem toList_of_shape (h : Shape.of arg = .short letters) :
    letters ≠ [] ∧ arg.toList = '-' :: letters := by
  have hwritten := hasShape_of arg
  rw [h] at hwritten
  cases hwritten with
  | short harg => exact ⟨by simp, harg⟩

theorem shape_of_not_hyphened (h : ¬Hyphened arg) : Shape.of arg = .plain := by
  unfold Shape.of
  split
  · rename_i harg
    exact absurd ⟨_, _, harg⟩ h
  · rename_i harg
    exact absurd ⟨_, _, harg⟩ h
  · rename_i harg
    exact absurd ⟨_, _, harg⟩ h
  · rfl

theorem shape_of_longForm (hname : '=' ∉ name.toList) (hne : name ≠ "")
    (attached : Option String) : Shape.of (longForm name attached) = .long name attached := by
  have hsplit := splitValue_append hname attached
  rw [String.ofList_toList] at hsplit
  unfold Shape.of
  rw [toList_longForm]
  cases hcs : name.toList with
  | nil => exact absurd (String.toList_inj.1 hcs) hne
  | cons c cs =>
    rw [hcs, List.cons_append] at hsplit
    simp only [List.cons_append, hsplit]

theorem shape_of_short (hc : c ≠ '-') (h : arg.toList = '-' :: c :: cs) :
    Shape.of arg = .short (c :: cs) := by
  unfold Shape.of
  simp [h, hc]

/-! ## Options -/

variable {level : Option CommandName} {l l' : Level} {g : Given} {o : ValueOption}

namespace ValueOption

theorem name_injective {o o' : ValueOption} (h : o.name = o'.name) : o = o' := by
  cases o <;> cases o' <;> first | rfl | exact absurd h (by decide)

theorem find?_name_eq_some_iff :
    (ofLevel level).find? (·.name = name) = some o ↔ o ∈ ofLevel level ∧ o.name = name := by
  constructor
  · intro h
    exact ⟨List.mem_of_find?_eq_some h, by simpa using List.find?_some h⟩
  · rintro ⟨ho, rfl⟩
    cases h : (ofLevel level).find? (·.name = o.name) with
    | none =>
      have hnot := List.find?_eq_none.1 h o ho
      simp at hnot
    | some o' =>
      have hname : o'.name = o.name := by simpa using List.find?_some h
      rw [name_injective hname]

end ValueOption

theorem Level.awaits_of_settle (h : l.settle = .ok g) : l.awaits = none := by
  unfold settle at h
  unfold awaits
  split at h
  · rename_i hpending
    rw [hpending]
  · cases h
  · rename_i hpending
    rw [hpending]

/-- What a flag makes of a level to which `g` is given. -/
inductive TakesFlag (g : Given) (name : String) : Level → Prop where
  | strict (hname : name = "strict") (hnew : g.strict = false) :
      TakesFlag g name ⟨{ g with strict := true }, none⟩
  | verbose (hname : name = "verbose") :
      TakesFlag g name ⟨{ g with verbosity := g.verbosity + 1 }, none⟩

theorem TakesFlag.strict_or_verbose (h : TakesFlag g name l) :
    name = "strict" ∨ name = "verbose" := by
  cases h with
  | strict hname => exact .inl hname
  | verbose hname => exact .inr hname

/-- What a long option makes of a level to which `g` is given. -/
inductive Takes (level : Option CommandName) (g : Given) :
    String → Option String → Level → Prop where
  | apart {o : ValueOption} (ho : o ∈ ValueOption.ofLevel level) :
      Takes level g o.name none ⟨g, some (o, none)⟩
  | attached {o : ValueOption} (text : String) (ho : o ∈ ValueOption.ofLevel level)
      (hnew : g.value? o = none) : Takes level g o.name (some text) ⟨g.setValue text o, none⟩
  | flag {name : String} {l : Level} (h : TakesFlag g name l) : Takes level g name none l

theorem Given.take_eq_ok_iff {g' : Given} :
    g.take o text = .ok g' ↔ g.value? o = none ∧ g' = g.setValue text o := by
  unfold take
  cases g.value? o with
  | none => simp [eq_comm]
  | some given => simp

theorem takeFlag_eq_ok_iff :
    takeFlag level name l = .ok l' ↔ ∃ g, l.settle = .ok g ∧ TakesFlag g name l' := by
  constructor
  · intro h
    unfold takeFlag at h
    split at h
    · obtain ⟨g, hg, h⟩ := bind_eq_ok_iff.1 h
      split at h
      · cases h
      · rename_i hstrict
        cases h
        exact ⟨g, hg, .strict rfl (by simpa using hstrict)⟩
    · obtain ⟨g, hg, h⟩ := bind_eq_ok_iff.1 h
      cases h
      exact ⟨g, hg, .verbose rfl⟩
    · obtain ⟨g, hg, h⟩ := bind_eq_ok_iff.1 h
      cases h
    · split at h
      · cases h
      · obtain ⟨g, hg, h⟩ := bind_eq_ok_iff.1 h
        cases h
    · cases h
  · rintro ⟨g, hg, htakes⟩
    cases htakes with
    | strict hname hnew =>
      subst hname
      refine bind_eq_ok_iff.2 ⟨g, hg, ?_⟩
      rw [hnew]
      rfl
    | verbose hname =>
      subst hname
      exact bind_eq_ok_iff.2 ⟨g, hg, rfl⟩

theorem ValueOption.find?_name_eq_none (h : ∀ o : ValueOption, o.name ≠ name) :
    (ofLevel level).find? (·.name = name) = none := by
  rw [List.find?_eq_none]
  intro o ho
  simpa using h o

theorem takeLong_eq_ok_iff :
    takeLong level name attached l = .ok l' ↔
      ∃ g, l.settle = .ok g ∧ Takes level g name attached l' := by
  unfold takeLong
  constructor
  · intro h
    split at h
    · rename_i o hfind
      obtain ⟨ho, rfl⟩ := ValueOption.find?_name_eq_some_iff.1 hfind
      obtain ⟨g, hg, h⟩ := bind_eq_ok_iff.1 h
      cases h
      exact ⟨g, hg, .apart ho⟩
    · rename_i o text hfind
      obtain ⟨ho, rfl⟩ := ValueOption.find?_name_eq_some_iff.1 hfind
      obtain ⟨g, hg, h⟩ := bind_eq_ok_iff.1 h
      obtain ⟨g', hg', h⟩ := bind_eq_ok_iff.1 h
      obtain ⟨hnew, rfl⟩ := Given.take_eq_ok_iff.1 hg'
      cases h
      exact ⟨g, hg, .attached text ho hnew⟩
    · obtain ⟨g, hg, htakes⟩ := takeFlag_eq_ok_iff.1 h
      exact ⟨g, hg, .flag htakes⟩
    · cases h
  · rintro ⟨g, hg, htakes⟩
    cases htakes with
    | apart ho =>
      rw [ValueOption.find?_name_eq_some_iff.2 ⟨ho, rfl⟩]
      exact bind_eq_ok_iff.2 ⟨g, hg, rfl⟩
    | @attached o text ho hnew =>
      rw [ValueOption.find?_name_eq_some_iff.2 ⟨ho, rfl⟩]
      have htake : g.take o text = .ok (g.setValue text o) := Given.take_eq_ok_iff.2 ⟨hnew, rfl⟩
      exact bind_eq_ok_iff.2 ⟨g, hg, bind_eq_ok_iff.2 ⟨_, htake, rfl⟩⟩
    | flag hflag =>
      have hname : ∀ o : ValueOption, o.name ≠ name := by
        intro o
        rcases hflag.strict_or_verbose with rfl | rfl <;> cases o <;> decide
      rw [ValueOption.find?_name_eq_none hname]
      exact takeFlag_eq_ok_iff.2 ⟨g, hg, hflag⟩

theorem takeShort_eq_ok_iff :
    takeShort level l c = .ok l' ↔ c = 'v' ∧
      ∃ g, l.settle = .ok g ∧ l' = ⟨{ g with verbosity := g.verbosity + 1 }, none⟩ := by
  constructor
  · intro h
    unfold takeShort at h
    split at h
    · obtain ⟨g, hg, htakes⟩ := takeFlag_eq_ok_iff.1 h
      cases htakes with
      | strict hname => exact absurd hname (by decide)
      | verbose => exact ⟨rfl, g, hg, rfl⟩
    · obtain ⟨g, hg, htakes⟩ := takeFlag_eq_ok_iff.1 h
      exact absurd htakes.strict_or_verbose (by decide)
    · obtain ⟨g, hg, htakes⟩ := takeFlag_eq_ok_iff.1 h
      exact absurd htakes.strict_or_verbose (by decide)
    · cases h
  · rintro ⟨rfl, g, hg, rfl⟩
    change takeFlag level "verbose" l = _
    exact takeFlag_eq_ok_iff.2 ⟨g, hg, .verbose rfl⟩

theorem foldlM_takeShort_eq_ok_iff :
    (c :: cs).foldlM (takeShort level) l = .ok l' ↔ (∀ d ∈ c :: cs, d = 'v') ∧
      ∃ g, l.settle = .ok g ∧
        l' = ⟨{ g with verbosity := g.verbosity + (cs.length + 1) }, none⟩ := by
  induction cs generalizing c l with
  | nil =>
    rw [List.foldlM_cons, bind_eq_ok_iff]
    constructor
    · rintro ⟨l₁, hl₁, hl'⟩
      obtain ⟨rfl, g, hg, rfl⟩ := takeShort_eq_ok_iff.1 hl₁
      exact ⟨by simp, g, hg, (Except.ok.inj hl').symm⟩
    · rintro ⟨hall, g, hg, rfl⟩
      have hc := hall c List.mem_cons_self
      exact ⟨_, takeShort_eq_ok_iff.2 ⟨hc, g, hg, rfl⟩, rfl⟩
  | cons d cs ih =>
    rw [List.foldlM_cons, bind_eq_ok_iff]
    constructor
    · rintro ⟨l₁, hl₁, hl'⟩
      obtain ⟨rfl, g, hg, rfl⟩ := takeShort_eq_ok_iff.1 hl₁
      obtain ⟨hall, g₁, hg₁, rfl⟩ := ih.1 hl'
      cases hg₁
      refine ⟨by simpa using hall, g, hg, ?_⟩
      simp only [List.length_cons]
      congr 2
      omega
    · rintro ⟨hall, g, hg, rfl⟩
      have hc := hall c List.mem_cons_self
      refine ⟨_, takeShort_eq_ok_iff.2 ⟨hc, g, hg, rfl⟩, ?_⟩
      refine ih.2 ⟨fun e he => hall e (List.mem_cons_of_mem c he), _, rfl, ?_⟩
      simp only [List.length_cons]
      congr 2
      omega

end RiscvBoot.CommandLine
