import RiscvBoot.Proofs.CommandLine.Shape

/-!
# Flags before and after the command

A command line that is read spells flags before the name of the command and flags after it, and
every command line that spells flags is read (`spelled_of_readRoot`, `readRoot_of_spelled`). What a
level is given is then what its flags say.
-/

set_option autoImplicit false

namespace RiscvBoot.CommandLine

variable {level : Option CommandName} {command : CommandName} {l l' l₁ l₂ : Level}
variable {g root inner : Given} {o : ValueOption} {arg text : String}
  {args words rest : List String}

/-! ## One argument after the other -/

namespace Level

/-- What an argument that does not end a level makes of it. -/
inductive Step (level : Option CommandName) (l : Level) (arg : String) : Level → Prop where
  | fill {o : ValueOption} (hshape : Shape.of arg = .plain) (ho : l.awaits = some o) :
      Step level l arg { l with pending := some (o, some arg) }
  | long {name : String} {attached : Option String} {l' : Level}
      (hshape : Shape.of arg = .long name attached)
      (h : takeLong level name attached l = .ok l') : Step level l arg l'
  | short {letters : List Char} {l' : Level} (hshape : Shape.of arg = .short letters)
      (h : letters.foldlM (takeShort level) l = .ok l') : Step level l arg l'

inductive Steps (level : Option CommandName) : Level → List String → Level → Prop where
  | refl (l : Level) : Steps level l [] l
  | head {l l₁ l₂ : Level} {arg : String} {args : List String} (h : Step level l arg l₁)
      (hargs : Steps level l₁ args l₂) : Steps level l (arg :: args) l₂

theorem Steps.trans (h : Steps level l words l₁) (hrest : Steps level l₁ rest l₂) :
    Steps level l (words ++ rest) l₂ := by
  induction h with
  | refl => exact hrest
  | head hstep _ ih => exact .head hstep (ih hrest)

theorem Steps.snoc (h : Steps level l words l₁) (hstep : Step level l₁ arg l₂) :
    Steps level l (words ++ [arg]) l₂ :=
  h.trans (.head hstep (.refl l₂))

theorem Step.of_takes {name : String} {attached : Option String}
    (hshape : Shape.of arg = .long name attached) (hl : l.settle = .ok g)
    (h : Takes level g name attached l') : Step level l arg l' :=
  .long hshape (takeLong_eq_ok_iff.2 ⟨g, hl, h⟩)

theorem Step.readCommand_eq (h : Step (some command) l arg l') (rest : List String) :
    readCommand command l (arg :: rest) = readCommand command l' rest := by
  rw [readCommand]
  cases h with
  | fill hshape ho => simp only [hshape, ho]
  | long hshape h => simp only [hshape, h, bind, Except.bind]
  | short hshape h => simp only [hshape, h, bind, Except.bind]

theorem Step.readRoot_eq (h : Step none l arg l') (rest : List String) :
    readRoot l (arg :: rest) = readRoot l' rest := by
  rw [readRoot]
  cases h with
  | fill hshape ho => simp only [hshape, ho]
  | long hshape h => simp only [hshape, h, bind, Except.bind]
  | short hshape h => simp only [hshape, h, bind, Except.bind]

theorem Steps.readCommand_eq (h : Steps (some command) l words l') (rest : List String) :
    readCommand command l (words ++ rest) = readCommand command l' rest := by
  induction h with
  | refl => rfl
  | head hstep _ ih => exact (hstep.readCommand_eq _).trans ih

theorem Steps.readRoot_eq (h : Steps none l words l') (rest : List String) :
    readRoot l (words ++ rest) = readRoot l' rest := by
  induction h with
  | refl => rfl
  | head hstep _ ih => exact (hstep.readRoot_eq _).trans ih

end Level

/-- How the level of a command may end: with its last argument, or with what is left after `--`. -/
inductive EndsWith (command : CommandName) (l : Level) : List String → Given → Prop where
  | settled {g : Given} (h : l.settle = .ok g) : EndsWith command l [] g
  | bare {g : Given} (h : l.settle = .ok g) : EndsWith command l ["--"] g
  | trailing {g : Given} {args : List String} (hcommand : command = .run) (hargs : args ≠ [])
      (h : l.settle = .ok g) : EndsWith command l ("--" :: args) { g with trailing := args }

theorem endsWith_of_takeTrailing (h : takeTrailing (some command) l args = .ok g) :
    EndsWith command l ("--" :: args) g := by
  unfold takeTrailing at h
  split at h
  · rename_i hargs
    rw [hargs]
    exact .bare h
  · rename_i hargs
    split at h
    · rename_i hcommand
      obtain ⟨g', hg', h⟩ := bind_eq_ok_iff.1 h
      cases h
      exact .trailing (Option.some.inj hcommand) hargs hg'
    · cases h

theorem EndsWith.readCommand_eq (h : EndsWith command l rest g) :
    readCommand command l rest = .ok g := by
  cases h with
  | settled h => exact h
  | bare h => exact h
  | @trailing g args hcommand hargs h =>
    have hseparator : Shape.of "--" = .separator := by cbv
    rw [readCommand, hseparator]
    dsimp only
    unfold takeTrailing
    rw [if_neg hargs, if_pos (congrArg some hcommand)]
    exact bind_eq_ok_iff.2 ⟨g, h, rfl⟩

theorem exists_steps_of_readCommand (h : readCommand command l args = .ok g) :
    ∃ words rest l', args = words ++ rest ∧ Level.Steps (some command) l words l' ∧
      EndsWith command l' rest g := by
  induction args generalizing l with
  | nil => exact ⟨[], [], l, rfl, .refl l, .settled h⟩
  | cons arg args ih =>
    -- An argument that does not end the level goes in front of what is read after it.
    have hhead (l' : Level) (hstep : Level.Step (some command) l arg l')
        (h : readCommand command l' args = .ok g) :
        ∃ words rest l', arg :: args = words ++ rest ∧ Level.Steps (some command) l words l' ∧
          EndsWith command l' rest g := by
      obtain ⟨words, rest, l₁, rfl, hsteps, hends⟩ := ih h
      exact ⟨arg :: words, rest, l₁, rfl, .head hstep hsteps, hends⟩
    rw [readCommand] at h
    cases hshape : Shape.of arg with
    | plain =>
      rw [hshape] at h
      dsimp only at h
      split at h
      · rename_i o ho
        exact hhead _ (.fill hshape ho) h
      · cases h
    | separator =>
      rw [hshape] at h
      rw [eq_separator_of_shape hshape]
      exact ⟨[], "--" :: args, l, rfl, .refl l, endsWith_of_takeTrailing h⟩
    | long name attached =>
      rw [hshape] at h
      obtain ⟨l', hl', h⟩ := bind_eq_ok_iff.1 h
      exact hhead l' (.long hshape hl') h
    | short letters =>
      rw [hshape] at h
      obtain ⟨l', hl', h⟩ := bind_eq_ok_iff.1 h
      exact hhead l' (.short hshape hl') h

theorem readRoot_name (hl : l.settle = .ok root) (h : readCommand command {} rest = .ok inner) :
    readRoot l (command.name :: rest) = .ok (root, command, inner) := by
  have hshape : Shape.of command.name = .plain := by cases command <;> cbv
  have hhelp : command.name ≠ "help" := by cases command <;> decide
  have hname : CommandName.ofName? command.name = some command := by cases command <;> cbv
  rw [readRoot]
  simp only [hshape, Level.awaits_of_settle hl, if_neg hhelp, hname, h, hl, bind, Except.bind]
  rfl

theorem exists_steps_of_readRoot (h : readRoot l args = .ok (root, command, inner)) :
    ∃ words rest l', args = words ++ command.name :: rest ∧ Level.Steps none l words l' ∧
      l'.settle = .ok root ∧ readCommand command {} rest = .ok inner := by
  induction args generalizing l with
  | nil =>
    obtain ⟨g, hg, h⟩ := bind_eq_ok_iff.1 h
    cases h
  | cons arg args ih =>
    have hhead (l' : Level) (hstep : Level.Step none l arg l')
        (h : readRoot l' args = .ok (root, command, inner)) :
        ∃ words rest l', arg :: args = words ++ command.name :: rest ∧
          Level.Steps none l words l' ∧ l'.settle = .ok root ∧
          readCommand command {} rest = .ok inner := by
      obtain ⟨words, rest, l₁, rfl, hsteps, hrest⟩ := ih h
      exact ⟨arg :: words, rest, l₁, rfl, .head hstep hsteps, hrest⟩
    rw [readRoot] at h
    cases hshape : Shape.of arg with
    | plain =>
      rw [hshape] at h
      dsimp only at h
      split at h
      · rename_i o ho
        exact hhead _ (.fill hshape ho) h
      · split at h
        · cases h
        · split at h
          · rename_i found hfound
            obtain ⟨g, hg, h⟩ := bind_eq_ok_iff.1 h
            obtain ⟨g', hg', h⟩ := bind_eq_ok_iff.1 h
            cases h
            have harg : command.name = arg := by simpa using List.find?_some hfound
            rw [← harg]
            exact ⟨[], args, l, rfl, .refl l, hg', hg⟩
          · cases h
    | separator =>
      rw [hshape] at h
      obtain ⟨g, hg, h⟩ := bind_eq_ok_iff.1 h
      cases h
    | long name attached =>
      rw [hshape] at h
      obtain ⟨l', hl', h⟩ := bind_eq_ok_iff.1 h
      exact hhead l' (.long hshape hl') h
    | short letters =>
      rw [hshape] at h
      obtain ⟨l', hl', h⟩ := bind_eq_ok_iff.1 h
      exact hhead l' (.short hshape hl') h

/-! ## Flags -/

inductive Flag where
  | value (o : ValueOption) (text : String)
  | strict
  deriving DecidableEq, Repr

namespace Flag

variable {flags : List Flag}

def textFor (o : ValueOption) : Flag → Option String
  | .value o' text => if o' = o then some text else none
  | .strict => none

/-- The text that flags give to an option. -/
def text? (flags : List Flag) (o : ValueOption) : Option String := flags.findSome? (textFor o)

def choice (flags : List Flag) : Choice := ⟨text? flags .arch, text? flags .harts⟩

theorem text?_snoc_value (hnew : text? flags o = none) (text : String) (o' : ValueOption) :
    text? (flags ++ [.value o text]) o' = if o = o' then some text else text? flags o' := by
  unfold text? at hnew ⊢
  rw [List.findSome?_append, List.findSome?_singleton]
  by_cases ho : o = o'
  · subst ho
    simp [hnew, textFor]
  · simp [ho, textFor]

theorem text?_snoc_strict (o : ValueOption) : text? (flags ++ [.strict]) o = text? flags o := by
  unfold text?
  rw [List.findSome?_append, List.findSome?_singleton]
  exact Option.or_none

end Flag

/-- A level was given what flags say. -/
structure Given.Holds (g : Given) (flags : List Flag) : Prop where
  value (o : ValueOption) : g.value? o = Flag.text? flags o
  strict : g.strict = true ↔ .strict ∈ flags

namespace Given.Holds

variable {flags : List Flag}

theorem nothing : ({} : Given).Holds [] where
  value o := by cases o <;> rfl
  strict := by decide

theorem setValue (h : g.Holds flags) (hnew : Flag.text? flags o = none) (text : String) :
    (g.setValue text o).Holds (flags ++ [.value o text]) where
  value o' := by
    have ho' := h.value o'
    rw [Flag.text?_snoc_value hnew]
    cases o <;> cases o' <;> first | rfl | exact ho'
  strict := by
    have hstrict := h.strict
    cases o <;> simpa [Given.setValue] using hstrict

theorem setStrict (h : g.Holds flags) :
    ({ g with strict := true } : Given).Holds (flags ++ [.strict]) where
  value o := by
    have ho := h.value o
    rw [Flag.text?_snoc_strict]
    cases o <;> exact ho
  strict := by simp

theorem setVerbosity (h : g.Holds flags) (n : Nat) :
    ({ g with verbosity := n } : Given).Holds flags where
  value o := by
    have ho := h.value o
    cases o <;> exact ho
  strict := h.strict

theorem setTrailing (h : g.Holds flags) (args : List String) :
    ({ g with trailing := args } : Given).Holds flags where
  value o := by
    have ho := h.value o
    cases o <;> exact ho
  strict := h.strict

theorem choice_eq (h : g.Holds flags) : (⟨g.arch, g.harts⟩ : Choice) = Flag.choice flags := by
  have harch := h.value .arch
  have hharts := h.value .harts
  exact congr (congrArg Choice.mk harch) hharts

end Given.Holds

/-! ## Spelling -/

/-- A word that asks for more of the log. -/
def AsksForMore (word : String) : Prop :=
  word = "--verbose" ∨ ∃ cs, word.toList = '-' :: 'v' :: cs ∧ ∀ c ∈ cs, c = 'v'

/-- Arguments that spell flags at a level. Every flag stands once. -/
inductive Spells (level : Option CommandName) : List Flag → List String → Prop where
  | nothing : Spells level [] []
  | attached {flags : List Flag} {args : List String} {o : ValueOption} (text : String)
      (h : Spells level flags args) (ho : o ∈ ValueOption.ofLevel level)
      (hnew : Flag.text? flags o = none) :
      Spells level (flags ++ [.value o text]) (args ++ ["--" ++ o.name ++ "=" ++ text])
  | apart {flags : List Flag} {args : List String} {o : ValueOption} {text : String}
      (h : Spells level flags args) (ho : o ∈ ValueOption.ofLevel level)
      (hnew : Flag.text? flags o = none) (htext : ¬Hyphened text) :
      Spells level (flags ++ [.value o text]) (args ++ ["--" ++ o.name, text])
  | strict {flags : List Flag} {args : List String} (h : Spells level flags args)
      (hnew : .strict ∉ flags) : Spells level (flags ++ [.strict]) (args ++ ["--strict"])
  | more {flags : List Flag} {args : List String} {word : String} (h : Spells level flags args)
      (hword : AsksForMore word) : Spells level flags (args ++ [word])

/-- How a level stands after some arguments: whether it waits for a value, or has one that is not
settled. -/
inductive Reached (level : Option CommandName) : List String → Level → Prop where
  | settled {flags : List Flag} {args : List String} {g : Given} (h : Spells level flags args)
      (hg : g.Holds flags) : Reached level args ⟨g, none⟩
  | waiting {flags : List Flag} {args : List String} {g : Given} {o : ValueOption}
      (h : Spells level flags args) (hg : g.Holds flags) (ho : o ∈ ValueOption.ofLevel level) :
      Reached level (args ++ ["--" ++ o.name]) ⟨g, some (o, none)⟩
  | filled {flags : List Flag} {args : List String} {g : Given} {o : ValueOption} {text : String}
      (h : Spells level flags args) (hg : g.Holds flags) (ho : o ∈ ValueOption.ofLevel level)
      (htext : ¬Hyphened text) :
      Reached level (args ++ ["--" ++ o.name, text]) ⟨g, some (o, some text)⟩

namespace Reached

theorem settle (h : Reached level args l) (hg : l.settle = .ok g) :
    ∃ flags, Spells level flags args ∧ g.Holds flags := by
  cases h with
  | settled h hholds =>
    cases hg
    exact ⟨_, h, hholds⟩
  | waiting => cases hg
  | filled h hholds ho htext =>
    obtain ⟨hnew, rfl⟩ := Given.take_eq_ok_iff.1 hg
    rw [hholds.value] at hnew
    exact ⟨_, h.apart ho hnew htext, hholds.setValue hnew _⟩

theorem fill (h : Reached level args l) (ho : l.awaits = some o) (htext : ¬Hyphened text) :
    Reached level (args ++ [text]) { l with pending := some (o, some text) } := by
  cases h with
  | settled => cases ho
  | filled => cases ho
  | waiting h hholds hlevel =>
    cases ho
    rw [List.append_assoc]
    exact .filled h hholds hlevel htext

theorem long {name : String} {attached : Option String} (h : Reached level args l)
    (hg : l.settle = .ok g) (htakes : Takes level g name attached l') :
    Reached level (args ++ [longForm name attached]) l' := by
  obtain ⟨flags, hspells, hholds⟩ := h.settle hg
  cases htakes with
  | apart ho => exact .waiting hspells hholds ho
  | attached text ho hnew =>
    rw [hholds.value] at hnew
    exact .settled (hspells.attached text ho hnew) (hholds.setValue hnew text)
  | flag hflag =>
    cases hflag with
    | strict hname hnew =>
      subst hname
      have hflags : .strict ∉ flags := by
        intro hmem
        rw [hholds.strict.2 hmem] at hnew
        cases hnew
      exact .settled (hspells.strict hflags) hholds.setStrict
    | verbose hname =>
      subst hname
      exact .settled (hspells.more (.inl rfl)) (hholds.setVerbosity _)

theorem row {letters : List Char} (h : Reached level args l) (hne : letters ≠ [])
    (hrow : letters.foldlM (takeShort level) l = .ok l') (harg : arg.toList = '-' :: letters) :
    Reached level (args ++ [arg]) l' := by
  cases letters with
  | nil => exact absurd rfl hne
  | cons c cs =>
    obtain ⟨hall, g, hg, rfl⟩ := foldlM_takeShort_eq_ok_iff.1 hrow
    obtain ⟨flags, hspells, hholds⟩ := h.settle hg
    have hc := hall c List.mem_cons_self
    have hcs : ∀ d ∈ cs, d = 'v' := fun d hd => hall d (List.mem_cons_of_mem c hd)
    rw [hc] at harg
    exact .settled (hspells.more (.inr ⟨cs, harg, hcs⟩)) (hholds.setVerbosity _)

theorem step (h : Reached level args l) (hstep : l.Step level arg l') :
    Reached level (args ++ [arg]) l' := by
  cases hstep with
  | fill hshape ho => exact h.fill ho (not_hyphened_of_shape hshape)
  | long hshape hlong =>
    obtain ⟨g, hg, htakes⟩ := takeLong_eq_ok_iff.1 hlong
    rw [eq_longForm_of_shape hshape]
    exact h.long hg htakes
  | short hshape hrow =>
    obtain ⟨hne, harg⟩ := toList_of_shape hshape
    exact h.row hne hrow harg

theorem steps (h : Reached level args l) (hsteps : l.Steps level words l') :
    Reached level (args ++ words) l' := by
  induction hsteps generalizing args with
  | refl =>
    rw [List.append_nil]
    exact h
  | head hstep _ ih =>
    have hnext := ih (h.step hstep)
    rw [List.append_assoc] at hnext
    exact hnext

end Reached

theorem shape_of_option (o : ValueOption) (attached : Option String) :
    Shape.of (longForm o.name attached) = .long o.name attached :=
  shape_of_longForm (by cases o <;> decide) (by cases o <;> decide) attached

-- A value that follows as an argument of its own is not taken yet when the level has been read, so
-- the level itself is not what the induction can speak of, but what it settles to.
theorem Spells.steps {flags : List Flag} (h : Spells level flags args) :
    ∃ l g, Level.Steps level {} args l ∧ l.settle = .ok g ∧ g.Holds flags := by
  induction h with
  | nothing => exact ⟨{}, {}, .refl _, rfl, .nothing⟩
  | @attached flags args o text h ho hnew ih =>
    obtain ⟨l, g, hsteps, hg, hholds⟩ := ih
    have hvalue := (hholds.value o).trans hnew
    have hstep := Level.Step.of_takes (shape_of_option o (some text)) hg (.attached text ho hvalue)
    exact ⟨_, _, hsteps.snoc hstep, rfl, hholds.setValue hnew text⟩
  | @apart flags args o text h ho hnew htext ih =>
    obtain ⟨l, g, hsteps, hg, hholds⟩ := ih
    have hvalue := (hholds.value o).trans hnew
    have hstep := Level.Step.of_takes (shape_of_option o none) hg (.apart ho)
    have hfill : Level.Step level ⟨g, some (o, none)⟩ text ⟨g, some (o, some text)⟩ :=
      .fill (shape_of_not_hyphened htext) rfl
    exact ⟨_, _, hsteps.trans (.head hstep (.head hfill (.refl _))),
      Given.take_eq_ok_iff.2 ⟨hvalue, rfl⟩, hholds.setValue hnew text⟩
  | strict h hnew ih =>
    obtain ⟨l, g, hsteps, hg, hholds⟩ := ih
    have hstrict : g.strict = false := by
      cases hg : g.strict with
      | false => rfl
      | true => exact absurd (hholds.strict.1 hg) hnew
    have hshape : Shape.of "--strict" = .long "strict" none := by cbv
    have htakes : Takes level g "strict" none _ := .flag (.strict rfl hstrict)
    exact ⟨_, _, hsteps.snoc (.of_takes hshape hg htakes), rfl, hholds.setStrict⟩
  | more h hword ih =>
    obtain ⟨l, g, hsteps, hg, hholds⟩ := ih
    rcases hword with rfl | ⟨cs, hcs, hall⟩
    · have hshape : Shape.of "--verbose" = .long "verbose" none := by cbv
      have htakes : Takes level g "verbose" none _ := .flag (.verbose rfl)
      exact ⟨_, _, hsteps.snoc (.of_takes hshape hg htakes), rfl, hholds.setVerbosity _⟩
    · have hletters : ∀ d ∈ 'v' :: cs, d = 'v' := by simpa using hall
      have hshort : ('v' :: cs).foldlM (takeShort level) l = .ok _ :=
        foldlM_takeShort_eq_ok_iff.2 ⟨hletters, g, hg, rfl⟩
      have hshape := shape_of_short (by decide) hcs
      exact ⟨_, _, hsteps.snoc (.short hshape hshort), rfl, hholds.setVerbosity _⟩

/-- What may be left after the flags of a command: something for the emulator, after `--`. -/
inductive Leaves (command : CommandName) : List String → Prop where
  | nothing : Leaves command []
  | bare : Leaves command ["--"]
  | trailing {args : List String} (hcommand : command = .run) (hargs : args ≠ []) :
      Leaves command ("--" :: args)

/-- A command line that spells flags before the name of a command and flags after it. -/
inductive Spelled (command : CommandName) (before after : List Flag) : List String → Prop where
  | intro {words words' rest : List String} (hbefore : Spells none before words)
      (hafter : Spells (some command) after words') (hrest : Leaves command rest) :
      Spelled command before after (words ++ command.name :: (words' ++ rest))

theorem readCommand_of_spells {flags : List Flag} (h : Spells (some command) flags words)
    (hrest : Leaves command rest) :
    ∃ g, readCommand command {} (words ++ rest) = .ok g ∧ g.Holds flags := by
  obtain ⟨l, g, hsteps, hg, hholds⟩ := h.steps
  rw [hsteps.readCommand_eq]
  cases hrest with
  | nothing => exact ⟨g, EndsWith.readCommand_eq (.settled hg), hholds⟩
  | bare => exact ⟨g, EndsWith.readCommand_eq (.bare hg), hholds⟩
  | trailing hcommand hargs =>
    exact ⟨_, EndsWith.readCommand_eq (.trailing hcommand hargs hg), hholds.setTrailing _⟩

theorem spells_of_readCommand (h : readCommand command {} args = .ok g) :
    ∃ flags words rest, args = words ++ rest ∧ Spells (some command) flags words ∧
      Leaves command rest := by
  obtain ⟨words, rest, l, rfl, hsteps, hends⟩ := exists_steps_of_readCommand h
  have hreached := Reached.steps (.settled .nothing .nothing) hsteps
  cases hends with
  | settled hg =>
    obtain ⟨flags, hspells, -⟩ := hreached.settle hg
    exact ⟨flags, words, [], rfl, hspells, .nothing⟩
  | bare hg =>
    obtain ⟨flags, hspells, -⟩ := hreached.settle hg
    exact ⟨flags, words, ["--"], rfl, hspells, .bare⟩
  | trailing hcommand hargs hg =>
    obtain ⟨flags, hspells, -⟩ := hreached.settle hg
    exact ⟨flags, words, _, rfl, hspells, .trailing hcommand hargs⟩

variable {before after : List Flag}

theorem readRoot_of_spelled (h : Spelled command before after args) :
    ∃ root inner, readRoot {} args = .ok (root, command, inner) ∧ root.Holds before ∧
      inner.Holds after := by
  cases h with
  | intro hbefore hafter hrest =>
    obtain ⟨l, root, hsteps, hroot, hholds⟩ := hbefore.steps
    obtain ⟨inner, hinner, hholds'⟩ := readCommand_of_spells hafter hrest
    refine ⟨root, inner, ?_, hholds, hholds'⟩
    rw [hsteps.readRoot_eq]
    exact readRoot_name hroot hinner

theorem spelled_of_readRoot (h : readRoot {} args = .ok (root, command, inner)) :
    ∃ before after, Spelled command before after args := by
  obtain ⟨words, rest, l, rfl, hsteps, hroot, hinner⟩ := exists_steps_of_readRoot h
  have hreached := Reached.steps (.settled .nothing .nothing) hsteps
  obtain ⟨before, hbefore, -⟩ := hreached.settle hroot
  obtain ⟨after, words', rest', rfl, hafter, hrest⟩ := spells_of_readCommand hinner
  exact ⟨before, after, .intro hbefore hafter hrest⟩

end RiscvBoot.CommandLine
