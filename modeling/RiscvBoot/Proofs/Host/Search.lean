import RiscvBoot.Proofs.Host.History
import RiscvBoot.Proofs.Host.Places
import RiscvBoot.Proofs.Path.Absolute

/-!
# Looking for a program

Which program is started, or why none is, depends on the name that is asked for and on the directory
that the program runs in. Its arguments have no say in it as long as the system takes them, and the
directory has one only where something is looked for relative to it (`Host.find_same`).

The system refuses a word that is too long, and words that need too many bytes together
(`Host.Refuses`). The files on the way to a program need a part of these bytes
(`FileView.Roomy`). A call that leaves enough for them is never refused
(`Host.Accepts.not_refuses`), and one that needs more than there is never starts a program
(`Host.wordsFit_of_find`).
-/

set_option autoImplicit false

namespace RiscvBoot

/-- The words of a call are not taken. -/
def Refused {α : Type} (x : Except SystemError α) : Prop := x = .error .argumentTooLong

theorem of_not_refused {α : Type} {c : Prop} [Decidable c] {x : Except SystemError α}
    (h : ¬Refused (if c then x else .error .argumentTooLong)) : c := by
  by_cases hc : c
  · exact hc
  · rw [if_neg hc] at h
    exact absurd rfl h

theorem not_refused_error {α β : Type} {x : Except SystemError α} {e : SystemError}
    (h : ¬Refused x) (he : x = .error e) : ¬Refused (.error e : Except SystemError β) := by
  intro hrefused
  obtain rfl := Except.error.inj hrefused
  exact h he

/-- The first search comes to the same program as the second, or fails for the same reason, unless
its words are refused. -/
def SameProgram (x y : Except SystemError Startable) : Prop :=
  ¬Refused x → x.map Startable.program = y.map Startable.program

theorem SameProgram.error_iff {x y : Except SystemError Startable} (h : SameProgram x y)
    (hx : ¬Refused x) {e : SystemError} : x = .error e ↔ y = .error e := by
  have hsame := h hx
  cases x <;> cases y <;> simp_all [Except.map]

/-- A file that names the program that runs it names it by an absolute path. -/
def FileTree.InterpretersAbsolute (t : FileTree) : Prop :=
  ∀ place content i, t.get? place = some (.file content true) →
    Interpreter.ofContent? content = some i → i.path.isAbsolute = true

theorem FileTree.not_refused_walk {t : FileTree} {here : Location} {pieces : List String} :
    ¬Refused (t.walk here pieces) := by
  induction pieces generalizing here with
  | nil => exact nofun
  | cons piece pieces ih =>
    unfold walk
    split
    · exact nofun
    · exact nofun
    · split
      · exact nofun
      · exact ih

theorem FileTree.not_refused_locate {t : FileTree} {workDir : Location} {p : Path} :
    ¬Refused (t.locate workDir p) := by
  unfold locate
  split
  · exact nofun
  · split
    · exact nofun
    · split
      · exact nofun
      · dsimp only
        split
        · exact not_refused_walk
        · exact not_refused_walk

/-! ## One file -/

namespace FileView

variable {v v' : FileView} {isProgram : Location → Bool} {space space' room : Nat} {p : Path}
  {name name' : String} {args args' : List String} {here : Location} {content : ByteArray}

theorem get?_of_executable (h : v.executable p = .ok (here, content)) :
    v.tree.get? here = some (.file content true) := by
  obtain ⟨place, -, hplace⟩ := bind_eq_ok_iff.1 h
  match hentry : v.tree.get? place with
  | none =>
    rw [hentry] at hplace
    cases hplace
  | some .directory =>
    rw [hentry] at hplace
    cases hplace
  | some (.file found false) =>
    rw [hentry] at hplace
    cases hplace
  | some (.file found true) =>
    rw [hentry] at hplace
    cases hplace
    exact hentry

theorem executable_congr (htree : v'.tree = v.tree)
    (hplace : v'.workDir = v.workDir ∨ p.isAbsolute = true) :
    v'.executable p = v.executable p := by
  have hlocate : v'.tree.locate v'.workDir p = v.tree.locate v.workDir p := by
    rw [htree]
    rcases hplace with hplace | hplace
    · rw [hplace]
    · unfold FileTree.locate
      dsimp only
      rw [if_pos hplace, if_pos hplace]
  unfold executable
  rw [hlocate, htree]

theorem length_lt_of_executable (h : v.executable p = .ok (here, content)) :
    p.text.utf8ByteSize < FileTree.pathLimit := by
  obtain ⟨place, hplace, -⟩ := bind_eq_ok_iff.1 h
  unfold FileTree.locate at hplace
  split at hplace
  · cases hplace
  · split at hplace
    · cases hplace
    · split at hplace
      · cases hplace
      · rename_i hshort
        exact Nat.lt_of_not_le hshort

/-! ### Room for the words -/

/-- What the words of a program and a path to it leave of the space is enough for all that the files
on the way to the program may put before them. -/
structure Roomy (space room : Nat) (p : Path) (name : String) (args : List String) : Prop where
  short : ∀ word ∈ name :: args, word.utf8ByteSize < argumentLimit
  fits : wordBytes (p.text :: name :: args) + room * (3 * Interpreter.window) ≤ space

theorem Roomy.wordsFit (h : Roomy space room p name args) :
    RiscvBoot.wordsFit space (name :: args) = true := by
  have hfits := h.fits
  rw [wordBytes_cons] at hfits
  exact wordsFit_iff.2 ⟨h.short, by omega⟩

/-- A file that names a program puts at most three words of its own before the others. -/
theorem Roomy.next {i : Interpreter} (h : Roomy space (room + 1) p name args)
    (hp : p.text.utf8ByteSize < FileTree.pathLimit) (hi : Interpreter.ofContent? content = some i) :
    Roomy space room i.path i.program (i.argument.toList ++ p.text :: args) := by
  obtain ⟨hpath, hprogram, hargument⟩ := Interpreter.utf8ByteSize_lt_window hi
  have hlimits : Interpreter.window < argumentLimit ∧ FileTree.pathLimit < argumentLimit := by
    decide
  constructor
  · intro word hword
    rcases List.mem_cons.1 hword with rfl | hword
    · omega
    · rcases List.mem_append.1 hword with hword | hword
      · have hshort := hargument word (Option.mem_toList.1 hword)
        omega
      · rcases List.mem_cons.1 hword with rfl | hword
        · omega
        · exact h.short word (List.mem_cons_of_mem name hword)
  · have hwords : wordBytes i.argument.toList ≤ Interpreter.window := by
      cases hsome : i.argument with
      | none => exact Nat.zero_le _
      | some word => exact hargument word hsome
    have hfits := h.fits
    rw [Nat.succ_mul] at hfits
    simp only [wordBytes_cons, wordBytes_append] at hfits ⊢
    omega

theorem not_refused_executable : ¬Refused (v.executable p) := by
  unfold executable
  cases hplace : v.tree.locate v.workDir p with
  | error e => exact not_refused_error FileTree.not_refused_locate hplace
  | ok place =>
    simp only [bind, Except.bind]
    split
    · exact nofun
    · exact nofun
    · exact nofun

/-! ### What is started -/

theorem startable_of_error {e : SystemError} (h : v.executable p = .error e) :
    v.startable isProgram space room p name args = .error e := by
  unfold startable
  rw [h]
  rfl

theorem startable_of_executable (h : v.executable p = .ok (here, content)) :
    v.startable isProgram space room p name args =
      if wordsFit space (name :: args) = true then
        match room with
        | 0 => .error .tooManyInterpreters
        | more + 1 =>
          if isProgram here then
            if more = 0 then .error .tooManyInterpreters else .ok ⟨here, args, v.workDir⟩
          else match Interpreter.ofContent? content with
            | none => .error .notAProgram
            | some i =>
              if wordsFit space (i.program :: (i.argument.toList ++ p.text :: args)) = true then
                v.startable isProgram space more i.path i.program
                  (i.argument.toList ++ p.text :: args)
              else .error .argumentTooLong
      else .error .argumentTooLong := by
  conv =>
    lhs
    unfold startable
  rw [h]
  simp only [bind, Except.bind]
  cases hfits : wordsFit space (name :: args) with
  | false => rfl
  | true =>
    cases room with
    | zero => rfl
    | succ more =>
      cases isProgram here with
      | true =>
        cases more with
        | zero => rfl
        | succ more => rfl
      | false =>
        cases hi : Interpreter.ofContent? content with
        | none => rfl
        | some i =>
          dsimp only
          cases hnext : wordsFit space (i.program :: (i.argument.toList ++ p.text :: args)) with
          | false => rfl
          | true => rfl

theorem Roomy.not_refused
    (h : p.text.utf8ByteSize < FileTree.pathLimit → Roomy space room p name args) :
    ¬Refused (v.startable isProgram space room p name args) := by
  -- By induction on the files that may be looked at: each of them uses up its part of the room.
  induction room generalizing p name args with
  | zero =>
    cases hp : v.executable p with
    | error e =>
      rw [startable_of_error hp]
      exact not_refused_error not_refused_executable hp
    | ok found =>
      have hroomy := h (length_lt_of_executable hp)
      rw [startable_of_executable hp, if_pos hroomy.wordsFit]
      exact nofun
  | succ more ih =>
    cases hp : v.executable p with
    | error e =>
      rw [startable_of_error hp]
      exact not_refused_error not_refused_executable hp
    | ok found =>
      have hshort := length_lt_of_executable hp
      rw [startable_of_executable hp, if_pos (h hshort).wordsFit]
      dsimp only
      split
      · split
        · exact nofun
        · exact nofun
      · split
        · exact nofun
        · rename_i i hi
          have hnext := (h hshort).next hshort hi
          rw [if_pos hnext.wordsFit]
          exact ih fun _ => hnext

/-! ### Two calls -/

/-- The arguments of the first call are short, and they leave at least as much of their space as
those of the second. -/
structure Shorter (space : Nat) (args : List String) (space' : Nat) (args' : List String) :
    Prop where
  short : ∀ word ∈ args, word.utf8ByteSize < argumentLimit
  bytes : wordBytes args + space' ≤ wordBytes args' + space

theorem Shorter.wordsFit (h : Shorter space args space' args')
    (hfits : wordsFit space' (name :: args') = true) :
    RiscvBoot.wordsFit space (name :: args) = true := by
  obtain ⟨hshort, hspace⟩ := wordsFit_iff.1 hfits
  have hbytes := h.bytes
  rw [wordBytes_cons] at hspace
  refine wordsFit_iff.2 ⟨?_, ?_⟩
  · intro word hword
    rcases List.mem_cons.1 hword with rfl | hword
    · exact hshort _ List.mem_cons_self
    · exact h.short word hword
  · rw [wordBytes_cons]
    omega

/-- Both calls are given the same words before their arguments. -/
theorem Shorter.append {words : List String} {word : String} (h : Shorter space args space' args')
    (hfits : RiscvBoot.wordsFit space' (name :: (words ++ word :: args')) = true) :
    Shorter space (words ++ word :: args) space' (words ++ word :: args') := by
  have hwords := (wordsFit_iff.1 hfits).1
  have hbytes := h.bytes
  constructor
  · intro w hw
    rcases List.mem_append.1 hw with hw | hw
    · exact hwords w (List.mem_cons_of_mem _ (List.mem_append_left _ hw))
    · rcases List.mem_cons.1 hw with rfl | hw
      · exact hwords _ (List.mem_cons_of_mem _ (List.mem_append_right _ List.mem_cons_self))
      · exact h.short w hw
  · simp only [wordBytes_append, wordBytes_cons]
    omega

/-- At one file both calls are refused for the same reason, or start the same program, or go on to
the same interpreter. -/
theorem startable_same_of_next (htree : v'.tree = v.tree)
    (hplace : v'.workDir = v.workDir ∨ p.isAbsolute = true)
    (hshorter : Shorter space args space' args')
    (hnext : ∀ more found i, room = more + 1 → v.executable p = .ok found →
      Interpreter.ofContent? found.2 = some i →
      Shorter space (i.argument.toList ++ p.text :: args) space'
        (i.argument.toList ++ p.text :: args') →
      SameProgram
        (v'.startable isProgram space' more i.path i.program
          (i.argument.toList ++ p.text :: args'))
        (v.startable isProgram space more i.path i.program
          (i.argument.toList ++ p.text :: args))) :
    SameProgram (v'.startable isProgram space' room p name args')
      (v.startable isProgram space room p name args) := by
  intro htaken
  have hexecutable := executable_congr htree hplace
  cases hp : v.executable p with
  | error e => rw [startable_of_error (hexecutable.trans hp), startable_of_error hp]
  | ok found =>
    rw [startable_of_executable (hexecutable.trans hp)] at htaken ⊢
    have hfits' := of_not_refused htaken
    rw [if_pos hfits'] at htaken ⊢
    rw [startable_of_executable hp, if_pos (hshorter.wordsFit hfits')]
    cases room with
    | zero => rfl
    | succ more =>
      dsimp only at htaken ⊢
      cases hprogram : isProgram found.1 with
      | true =>
        rw [if_pos rfl, if_pos rfl]
        split
        · rfl
        · rfl
      | false =>
        rw [hprogram, if_neg Bool.false_ne_true] at htaken
        rw [if_neg Bool.false_ne_true, if_neg Bool.false_ne_true]
        cases hi : Interpreter.ofContent? found.2 with
        | none => rfl
        | some i =>
          rw [hi] at htaken
          dsimp only at htaken ⊢
          have hnextFits' := of_not_refused htaken
          have hnextShorter := hshorter.append hnextFits'
          rw [if_pos hnextFits'] at htaken ⊢
          rw [if_pos (hnextShorter.wordsFit hnextFits')]
          exact hnext more found i rfl hp hi hnextShorter htaken

/-- The arguments have no say in what is started as long as they are taken, and the working
directory has one only where a path is relative. -/
theorem startable_same (htree : v'.tree = v.tree)
    (hplace : v'.workDir = v.workDir ∨ p.isAbsolute = true ∧ v.tree.InterpretersAbsolute)
    (hshorter : Shorter space args space' args') :
    SameProgram (v'.startable isProgram space' room p name args')
      (v.startable isProgram space room p name args) := by
  -- By induction on the files that may be looked at: an interpreter is given the same words before
  -- the arguments of both calls.
  induction room generalizing p name args args' with
  | zero =>
    refine startable_same_of_next htree (hplace.imp id And.left) hshorter ?_
    intro more found i hroom
    cases hroom
  | succ room ih =>
    refine startable_same_of_next htree (hplace.imp id And.left) hshorter ?_
    intro more found i hroom hp hinterpreter hnext
    obtain rfl := Nat.succ.inj hroom
    refine ih (hplace.imp id fun h => ?_) hnext
    exact ⟨h.2 _ _ _ (get?_of_executable hp) hinterpreter, h.2⟩

end FileView

/-! ## The search path -/

section SearchPath

variable {find find' : Path → Except SystemError Startable} {name : String} {dir : Path}
  {dirs : List Path} {fault : SystemError}

theorem not_refused_of_searchIn (h : ¬Refused (searchIn find name (dir :: dirs) fault)) :
    ¬Refused (find (inSearchDirectory dir name)) := by
  intro hrefused
  apply h
  unfold searchIn
  rw [show find (inSearchDirectory dir name) = .error .argumentTooLong from hrefused]
  rfl

theorem not_refused_searchIn (h : ∀ dir ∈ dirs, ¬Refused (find (inSearchDirectory dir name)))
    (hfault : fault ≠ .argumentTooLong) : ¬Refused (searchIn find name dirs fault) := by
  induction dirs generalizing fault with
  | nil =>
    intro hrefused
    exact hfault (Except.error.inj hrefused)
  | cons dir dirs ih =>
    have hfirst := h dir List.mem_cons_self
    unfold searchIn
    cases hfound : find (inSearchDirectory dir name) with
    | ok s =>
      intro hrefused
      cases hrefused
    | error e =>
      rw [hfound] at hfirst
      dsimp only
      split
      · exact hfirst
      · refine ih (fun d hd => h d (List.mem_cons_of_mem dir hd)) ?_
        split
        · exact hfault
        · exact fun he => hfirst (congrArg Except.error he)

theorem searchIn_same
    (h : ∀ dir ∈ dirs, SameProgram (find' (inSearchDirectory dir name))
      (find (inSearchDirectory dir name))) :
    SameProgram (searchIn find' name dirs fault) (searchIn find name dirs fault) := by
  induction dirs generalizing fault with
  | nil => exact fun _ => rfl
  | cons dir dirs ih =>
    intro htaken
    have hfirst := h dir List.mem_cons_self
    have hfirstTaken := not_refused_of_searchIn htaken
    unfold searchIn at htaken ⊢
    cases hfound' : find' (inSearchDirectory dir name) with
    | error e =>
      rw [hfound'] at htaken
      rw [(hfirst.error_iff hfirstTaken).1 hfound']
      dsimp only at htaken ⊢
      by_cases hends : e.endsSearch = true
      · rw [if_pos hends, if_pos hends]
      · rw [if_neg hends] at htaken ⊢
        rw [if_neg hends]
        exact ih (fun d hd => h d (List.mem_cons_of_mem dir hd)) htaken
    | ok s' =>
      have hsame := hfirst hfirstTaken
      cases hfound : find (inSearchDirectory dir name) with
      | error e =>
        rw [hfound', hfound] at hsame
        cases hsame
      | ok s =>
        rw [hfound', hfound] at hsame
        exact hsame

end SearchPath

theorem isAbsolute_inSearchDirectory {dir : Path} (h : dir.isAbsolute = true) (name : String) :
    (inSearchDirectory dir name).isAbsolute = true := by
  obtain ⟨rest, hrest⟩ := Path.isAbsolute_iff.1 h
  have hne : dir.text ≠ "" := by
    intro hempty
    rw [Path.chars, hempty] at hrest
    cases hrest
  rw [Path.isAbsolute_iff]
  refine ⟨rest ++ "/".toList ++ name.toList, ?_⟩
  unfold inSearchDirectory
  rw [if_neg hne, Path.chars, String.toList_append, String.toList_append, ← Path.chars, hrest]
  rfl

namespace Host

/-- No program is looked for relative to the directory that it runs in. -/
structure Anchored (h : Host) : Prop where
  searchPath : ∀ dir ∈ h.searchPath, dir.isAbsolute = true
  interpreters : h.tree.InterpretersAbsolute

variable {h : Host} {i : Invocation} {place place' : Location}

/-- The bytes that are enough for the path of a program and for the words of the files on the way to
it. -/
def pathReserve : Nat := 16384

/-- The system does not take the words of the call: one is too long, or they are too many. -/
def Refuses (h : Host) (i : Invocation) : Prop := Refused (h.find i)

/-- The system takes these arguments for a program of this name, wherever it is found: all words are
short enough, and with a pointer to each of them they leave the reserve. -/
structure Accepts (h : Host) (program : String) (args : List String) : Prop where
  short : ∀ word ∈ program :: args, word.utf8ByteSize < argumentLimit
  fits : wordBytes (program :: args) + 8 * (args.length + 1) + pathReserve ≤ h.argumentRoom

instance (h : Host) (program : String) (args : List String) : Decidable (h.Accepts program args) :=
  decidable_of_iff
    ((∀ word ∈ program :: args, word.utf8ByteSize < argumentLimit) ∧
      wordBytes (program :: args) + 8 * (args.length + 1) + pathReserve ≤ h.argumentRoom)
    ⟨fun ⟨hshort, hfits⟩ => ⟨hshort, hfits⟩, fun ⟨hshort, hfits⟩ => ⟨hshort, hfits⟩⟩

/-- Whatever path the program is found by, there is room for its words. -/
theorem Accepts.roomy {program : String} {args : List String} (ha : h.Accepts program args)
    {p : Path} (hp : p.text.utf8ByteSize < FileTree.pathLimit) :
    FileView.Roomy (h.wordSpace p args) interpreterLimit p program args := by
  refine ⟨ha.short, ?_⟩
  have hfits := ha.fits
  have hlevels : interpreterLimit * (3 * Interpreter.window) = 4608 := by decide
  have hlimit : FileTree.pathLimit = 4096 := rfl
  unfold pathReserve at hfits
  unfold wordSpace
  rw [hlevels]
  simp only [wordBytes_cons, wordBytes_nil] at hfits ⊢
  omega

theorem not_refused_childDir : ¬Refused (h.childDir i) := by
  unfold childDir
  cases i.dir with
  | none => exact nofun
  | some dir =>
    dsimp only
    cases hplace : h.tree.locate h.workDir dir with
    | error e => exact not_refused_error FileTree.not_refused_locate hplace
    | ok place =>
      simp only [bind, Except.bind]
      split
      · exact nofun
      · exact nofun
      · exact nofun

theorem Accepts.not_refuses (ha : h.Accepts i.program i.args) : ¬h.Refuses i := by
  unfold Refuses find
  simp only [bind, Except.bind, throw, throwThe, MonadExceptOf.throw]
  split
  · exact nofun
  · split
    · rename_i e hdir
      exact not_refused_error not_refused_childDir hdir
    · split
      · exact nofun
      · split
        · exact FileView.Roomy.not_refused ha.roomy
        · refine not_refused_searchIn ?_ nofun
          exact fun _ _ => FileView.Roomy.not_refused ha.roomy

theorem hasNul_of_childDir
    (hwords : ∀ word ∈ i.program :: i.args, word.toList.contains '\x00' = false)
    (hdir : h.childDir i = .ok place) : i.hasNul = false := by
  have hdirText : ∀ text ∈ (i.dir.map Path.text).toList, text.toList.contains '\x00' = false := by
    intro text htext
    obtain ⟨dir, hsome, rfl⟩ := Option.map_eq_some_iff.1 (Option.mem_toList.1 htext)
    unfold childDir at hdir
    rw [hsome] at hdir
    obtain ⟨here, hlocate, -⟩ := bind_eq_ok_iff.1 hdir
    have hfollow := (FileTree.locate_eq_ok_iff.1 hlocate).1
    simpa [Path.chars] using hfollow.noNul
  unfold Invocation.hasNul
  rw [List.any_eq_false]
  intro text htext
  rw [Bool.not_eq_true]
  rw [← List.cons_append] at htext
  rcases List.mem_append.1 htext with htext | htext
  · exact hwords text htext
  · exact hdirText text htext

theorem find_of_childDir
    (hwords : ∀ word ∈ i.program :: i.args, word.toList.contains '\x00' = false)
    (hdir : h.childDir i = .ok place) :
    h.find i =
      let v : FileView := { h.toFileView with workDir := place }
      let startable (p : Path) :=
        v.startable (fun here => (h.scripts.lookup here).isSome) (h.wordSpace p i.args)
          interpreterLimit p i.program i.args
      if i.program = "" then .error .notFound
      else if i.program.toList.contains '/' then startable ⟨i.program⟩
      else searchIn startable i.program h.searchPath .notFound := by
  unfold find
  rw [hasNul_of_childDir hwords hdir, hdir]
  rfl

theorem startable_of_find {s : Startable} (hs : h.find i = .ok s) :
    ∃ (v : FileView) (isProgram : Location → Bool) (p : Path),
      v.startable isProgram (h.wordSpace p i.args) interpreterLimit p i.program i.args = .ok s := by
  unfold find at hs
  simp only [bind, Except.bind, throw, throwThe, MonadExceptOf.throw] at hs
  split at hs
  · cases hs
  · split at hs
    · cases hs
    · split at hs
      · cases hs
      · split at hs
        · exact ⟨_, _, _, hs⟩
        · obtain ⟨dir, -, hdir⟩ := searchIn_ok hs
          exact ⟨_, _, _, hdir⟩

/-- Nothing is started with a word that is too long, or with too many of them. -/
theorem wordsFit_of_find {s : Startable} (hs : h.find i = .ok s) :
    wordsFit h.argumentRoom (i.program :: i.args) = true := by
  obtain ⟨v, isProgram, p, hstartable⟩ := startable_of_find hs
  obtain ⟨hshort, hspace⟩ := wordsFit_iff.1 (FileView.startable_cases hstartable).1
  exact wordsFit_iff.2 ⟨hshort, Nat.le_trans hspace (Nat.sub_le _ _)⟩

theorem find_of_long (hlong : ∃ arg ∈ i.args, argumentLimit ≤ arg.utf8ByteSize) :
    ∃ e, h.find i = .error e := by
  cases hfind : h.find i with
  | error e => exact ⟨e, rfl⟩
  | ok s =>
    obtain ⟨arg, harg, hlong⟩ := hlong
    have hshort := (wordsFit_iff.1 (wordsFit_of_find hfind)).1 arg (List.mem_cons_of_mem _ harg)
    omega

theorem find_of_many (hmany : h.argumentRoom ≤ wordBytes i.args) : ∃ e, h.find i = .error e := by
  cases hfind : h.find i with
  | error e => exact ⟨e, rfl⟩
  | ok s =>
    have hspace := (wordsFit_iff.1 (wordsFit_of_find hfind)).2
    rw [wordBytes_cons] at hspace
    omega

/-- Two calls of one program find the same, if the system takes the longer one and they run in one
directory, or else nothing is looked for relative to it. -/
theorem find_same {program : String} {args args' : List String} {dir dir' : Option Path}
    (hwords : ∀ word ∈ program :: args, word.toList.contains '\x00' = false)
    (hwords' : ∀ word ∈ program :: args', word.toList.contains '\x00' = false)
    (hshort : ∀ word ∈ args, word.utf8ByteSize < argumentLimit)
    (hcount : args.length ≤ args'.length) (hbytes : wordBytes args ≤ wordBytes args')
    (hdir : h.childDir ⟨program, args, dir⟩ = .ok place)
    (hdir' : h.childDir ⟨program, args', dir'⟩ = .ok place')
    (hplace : place' = place ∨ program.toList.contains '/' = false ∧ h.Anchored) :
    SameProgram (h.find ⟨program, args', dir'⟩) (h.find ⟨program, args, dir⟩) := by
  have hshorter (p : Path) :
      FileView.Shorter (h.wordSpace p args) args (h.wordSpace p args') args' := by
    refine ⟨hshort, ?_⟩
    unfold wordSpace
    omega
  rw [find_of_childDir hwords hdir, find_of_childDir hwords' hdir']
  dsimp only
  split
  · exact fun _ => rfl
  · split
    · rename_i hslash
      refine FileView.startable_same ?_ ?_ (hshorter _)
      · rfl
      · rcases hplace with hplace | ⟨hnoSlash, -⟩
        · exact .inl hplace
        · rw [hslash] at hnoSlash
          cases hnoSlash
    · apply searchIn_same
      intro d hd
      refine FileView.startable_same ?_ ?_ (hshorter _)
      · rfl
      · refine hplace.imp id fun hanchored => ?_
        exact ⟨isAbsolute_inSearchDirectory (hanchored.2.searchPath d hd) _,
          hanchored.2.interpreters⟩

end Host

end RiscvBoot
