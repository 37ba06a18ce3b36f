import RiscvBoot.Proofs.Path.Absolute

/-!
# The ancestors of a path, by their steps

Going to the parent takes away the last step of a path, however the path is spelled
(`Path.components_of_parent`), and only a path without steps and a mere root have no parent. So the
ancestors of a path are its beginnings, each of them once, and their number is known from the steps.
-/

set_option autoImplicit false

namespace RiscvBoot

/-! ## Pieces -/

namespace Text

variable {sep : Char}

theorem pieces_append (xs ys : List Char) :
    pieces sep (xs ++ sep :: ys) = pieces sep xs ++ pieces sep ys := by
  induction xs with
  | nil => simp [pieces]
  | cons x xs ih =>
    by_cases hx : x = sep
    · simp [pieces, hx, ih]
    · obtain ⟨first, rest, hfirst⟩ := List.exists_cons_of_ne_nil (pieces_ne_nil sep xs)
      simp [pieces, hx, ih, hfirst]

theorem pieces_of_not_mem {xs : List Char} (hxs : sep ∉ xs) : pieces sep xs = [xs] := by
  induction xs with
  | nil => rfl
  | cons x xs ih =>
    have hx : x ≠ sep := fun heq => hxs (heq ▸ List.mem_cons_self)
    have hrest : sep ∉ xs := fun hmem => hxs (List.mem_cons_of_mem x hmem)
    simp [pieces, hx, ih hrest]

end Text

namespace Path

variable {p q : Path}

/-! ## Steps -/

/-- The steps that a text without a lead stands for. -/
def steps (cs : List Char) : List Component := (Text.pieces '/' cs).filterMap Component.ofPiece?

theorem steps_append (xs ys : List Char) : steps (xs ++ '/' :: ys) = steps xs ++ steps ys := by
  unfold steps
  rw [Text.pieces_append, List.filterMap_append]

@[simp] theorem steps_nil : steps [] = [] := rfl

@[simp] theorem steps_dot : steps ['.'] = [] := rfl

theorem steps_append_slash (xs : List Char) : steps (xs ++ ['/']) = steps xs := by
  rw [steps_append, steps_nil, List.append_nil]

theorem steps_append_slash_dot (xs : List Char) : steps (xs ++ ['/', '.']) = steps xs := by
  rw [steps_append, steps_dot, List.append_nil]

theorem steps_dropBlankTail (cs : List Char) :
    steps (dropBlankTail cs).reverse = steps cs.reverse := by
  fun_induction dropBlankTail cs with
  | case1 rest ih => rw [ih, List.reverse_cons, steps_append_slash]
  | case2 rest ih =>
    rw [ih, List.reverse_cons, List.reverse_cons, List.append_assoc]
    exact (steps_append_slash_dot rest.reverse).symm
  | case3 => rfl
  | case4 cs => rfl

theorem dropBlankTail_eq_cons {cs rest : List Char} {c : Char} (h : dropBlankTail cs = c :: rest) :
    c ≠ '/' ∧ (c = '.' → rest ≠ [] ∧ rest.head? ≠ some '/') := by
  fun_induction dropBlankTail cs with
  | case1 rest ih => exact ih h
  | case2 rest ih => exact ih h
  | case3 => cases h
  | case4 cs hslash hdotslash hdot =>
    refine ⟨fun hc => hslash rest (hc ▸ h), ?_⟩
    rintro rfl
    refine ⟨fun hrest => hdot (hrest ▸ h), ?_⟩
    intro hhead
    obtain ⟨more, hmore⟩ := List.head?_eq_some_iff.1 hhead
    exact hdotslash more (hmore ▸ h)

/-- The last piece of a text with no blank tail is a step. -/
theorem ofPiece?_last {cs rest : List Char} {c : Char} (h : dropBlankTail cs = c :: rest) :
    ∃ step, Component.ofPiece? ((c :: rest).takeWhile (· ≠ '/')).reverse = some step := by
  obtain ⟨hslash, hdot⟩ := dropBlankTail_eq_cons h
  rw [List.takeWhile_cons_of_pos (by simpa using hslash), List.reverse_cons]
  unfold Component.ofPiece?
  split
  · rename_i hnil
    simp at hnil
  · rename_i hpiece
    have hreverse := congrArg List.reverse hpiece
    rw [List.reverse_append, List.reverse_reverse] at hreverse
    obtain ⟨hc, hword⟩ := List.cons.inj hreverse
    obtain ⟨hne, hhead⟩ := hdot hc
    obtain ⟨d, more, rfl⟩ := List.exists_cons_of_ne_nil hne
    have hd : d ≠ '/' := by simpa using hhead
    rw [List.takeWhile_cons_of_pos (by simpa using hd)] at hword
    cases hword
  · exact ⟨_, rfl⟩
  · exact ⟨_, rfl⟩

/-- What is left of a text without its last step, both read backwards. -/
def aboveLast (cs : List Char) : List Char :=
  dropBlankTail ((cs.dropWhile (· ≠ '/')).drop 1)

theorem steps_aboveLast {cs : List Char} {c : Char} {rest : List Char}
    (h : dropBlankTail cs = c :: rest) :
    ∃ step, steps cs.reverse = steps (aboveLast (c :: rest)).reverse ++ [step] := by
  obtain ⟨step, hstep⟩ := ofPiece?_last h
  refine ⟨step, ?_⟩
  have hlast : steps ((c :: rest).takeWhile (· ≠ '/')).reverse = [step] := by
    have hno : '/' ∉ ((c :: rest).takeWhile (· ≠ '/')).reverse := by
      intro hmem
      simpa using List.all_eq_true.1 List.all_takeWhile '/' (List.mem_reverse.1 hmem)
    unfold steps
    rw [Text.pieces_of_not_mem hno, List.filterMap_cons_some hstep, List.filterMap_nil]
  have hcut := List.takeWhile_append_dropWhile (p := (· ≠ '/')) (l := c :: rest)
  rw [← steps_dropBlankTail cs, h, aboveLast, steps_dropBlankTail]
  generalize (c :: rest).takeWhile (· ≠ '/') = word at *
  cases habove : (c :: rest).dropWhile (· ≠ '/') with
  | nil =>
    rw [habove, List.append_nil] at hcut
    rw [← hcut]
    exact hlast
  | cons d above =>
    have hd : d = '/' := by
      have := List.head?_dropWhile_not (· ≠ '/') (c :: rest)
      rw [habove] at this
      simpa using this
    rw [habove, hd] at hcut
    rw [← hcut, List.reverse_append, List.reverse_cons, List.append_assoc]
    change steps (above.reverse ++ '/' :: word.reverse) = steps above.reverse ++ [step]
    rw [steps_append, hlast]

theorem dropBlankTail_cut (cs : List Char) :
    dropBlankTail cs = cs ∨ dropBlankTail cs = [] ∨
      ∃ front, cs = front ++ '/' :: dropBlankTail cs := by
  fun_induction dropBlankTail cs with
  | case1 rest ih =>
    rcases ih with hsame | hnil | ⟨front, hfront⟩
    · exact .inr (.inr ⟨[], by rw [hsame]; rfl⟩)
    · exact .inr (.inl hnil)
    · exact .inr (.inr ⟨'/' :: front, congrArg ('/' :: ·) hfront⟩)
  | case2 rest ih =>
    rcases ih with hsame | hnil | ⟨front, hfront⟩
    · exact .inr (.inr ⟨['.'], by rw [hsame]; rfl⟩)
    · exact .inr (.inl hnil)
    · exact .inr (.inr ⟨'.' :: '/' :: front, congrArg ('.' :: '/' :: ·) hfront⟩)
  | case3 => exact .inr (.inl rfl)
  | case4 cs => exact .inl rfl

theorem dropBlankTail_suffix (cs : List Char) : dropBlankTail cs <:+ cs := by
  rcases dropBlankTail_cut cs with hsame | hnil | ⟨front, hfront⟩
  · exact ⟨[], by rw [List.nil_append, hsame]⟩
  · rw [hnil]
    exact List.nil_suffix
  · exact ⟨front ++ ['/'], by rw [List.append_assoc]; exact hfront.symm⟩

theorem aboveLast_cut (cs : List Char) :
    aboveLast cs = [] ∨ ∃ front, cs = front ++ '/' :: aboveLast cs := by
  have hcut := List.takeWhile_append_dropWhile (p := (· ≠ '/')) (l := cs)
  unfold aboveLast
  cases habove : cs.dropWhile (· ≠ '/') with
  | nil => exact .inl rfl
  | cons d above =>
    have hd : d = '/' := by
      have hnot := List.head?_dropWhile_not (· ≠ '/') cs
      rw [habove] at hnot
      simpa using hnot
    rw [habove, hd] at hcut
    rw [List.drop_one, List.tail_cons]
    rcases dropBlankTail_cut above with hsame | hnil | ⟨front, hfront⟩
    · exact .inr ⟨_, by rw [hsame]; exact hcut.symm⟩
    · exact .inl hnil
    · refine .inr ⟨cs.takeWhile (· ≠ '/') ++ '/' :: front, ?_⟩
      rw [List.append_assoc, List.cons_append, ← hfront]
      exact hcut.symm

/-! ## The lead of a path -/

/-- A text that begins with its first piece: no slash before it, and not a single point. -/
def HasNoLead (cs : List Char) : Prop :=
  cs.head? ≠ some '/' ∧ cs ≠ ['.'] ∧ ∀ rest, cs ≠ '.' :: '/' :: rest

theorem hasNoLead_nil : HasNoLead [] := ⟨nofun, nofun, nofun⟩

theorem HasNoLead.of_append {xs ys : List Char} (h : HasNoLead (xs ++ '/' :: ys)) :
    HasNoLead xs := by
  obtain ⟨hslash, -, hdot⟩ := h
  cases xs with
  | nil => exact hasNoLead_nil
  | cons x xs =>
    refine ⟨hslash, ?_, ?_⟩
    · intro heq
      exact hdot ys (by rw [heq]; rfl)
    · intro rest heq
      exact hdot (rest ++ '/' :: ys) (by rw [heq]; rfl)

theorem split_cases (p : Path) :
    (∃ body, p.chars = '/' :: body ∧ p.split = (['/'], body)) ∨
    (∃ body, p.chars = '.' :: body ∧ p.split = (['.'], body) ∧
      (body = [] ∨ ∃ rest, body = '/' :: rest)) ∨
    (HasNoLead p.chars ∧ p.split = ([], p.chars)) := by
  unfold split
  split
  · rename_i rest hchars
    exact .inl ⟨rest, hchars, rfl⟩
  · rename_i hchars
    exact .inr (.inl ⟨[], hchars, rfl, .inl rfl⟩)
  · rename_i rest hchars
    exact .inr (.inl ⟨'/' :: rest, hchars, rfl, .inr ⟨rest, rfl⟩⟩)
  · rename_i hslash hdot hdotslash
    refine .inr (.inr ⟨⟨?_, hdot, hdotslash⟩, rfl⟩)
    intro hhead
    obtain ⟨rest, hrest⟩ := List.head?_eq_some_iff.1 hhead
    exact hslash rest hrest

theorem split_of_hasNoLead (h : HasNoLead p.chars) : p.split = ([], p.chars) := by
  obtain ⟨hslash, hdot, hdotslash⟩ := h
  unfold split
  split
  · rename_i rest hchars
    exact absurd (by rw [hchars]; rfl) hslash
  · rename_i hchars
    exact absurd hchars hdot
  · rename_i rest hchars
    exact absurd hchars (hdotslash rest)
  · rfl

theorem chars_ofChars (cs : List Char) : (ofChars cs).chars = cs := String.toList_ofList

/-- A path that is cut at a slash after its lead keeps that lead. -/
theorem split_of_cut {lead body above : List Char} (hsplit : p.split = (lead, body))
    (hcut : above = [] ∨ ∃ below, body = above ++ '/' :: below) :
    (ofChars (lead ++ above)).split = (lead, above) := by
  rcases p.split_cases with ⟨body', -, hroot⟩ | ⟨body', -, hdot, hbody⟩ | ⟨hnoLead, hplain⟩
  · obtain ⟨rfl, rfl⟩ := Prod.mk.inj (hroot.symm.trans hsplit)
    unfold split
    rw [chars_ofChars]
    rfl
  · obtain ⟨rfl, rfl⟩ := Prod.mk.inj (hdot.symm.trans hsplit)
    have habove : above = [] ∨ ∃ rest, above = '/' :: rest := by
      rcases hcut with hnil | ⟨below, hbelow⟩
      · exact .inl hnil
      · cases above with
        | nil => exact .inl rfl
        | cons c above =>
          rcases hbody with hnil | ⟨rest, hrest⟩
          · rw [hnil] at hbelow
            cases hbelow
          · rw [hrest] at hbelow
            exact .inr ⟨above, by rw [← (List.cons.inj hbelow).1]⟩
    unfold split
    rw [chars_ofChars]
    rcases habove with rfl | ⟨rest, rfl⟩
    · rfl
    · rfl
  · obtain ⟨rfl, rfl⟩ := Prod.mk.inj (hplain.symm.trans hsplit)
    have habove : HasNoLead above := by
      rcases hcut with rfl | ⟨below, hbelow⟩
      · exact hasNoLead_nil
      · rw [hbelow] at hnoLead
        exact hnoLead.of_append
    have hchars : (ofChars ([] ++ above)).chars = above := chars_ofChars above
    rw [← hchars] at habove
    rw [split_of_hasNoLead habove, hchars]

/-! ## Parents -/

def leadSteps : List Char → List Component
  | ['/'] => [.root]
  | ['.'] => [.current]
  | _ => []

theorem components_of_split {lead body : List Char} (h : p.split = (lead, body)) :
    p.components = leadSteps lead ++ steps body := by
  unfold components
  rw [h]
  rfl

theorem steps_eq_nil_iff (body : List Char) :
    steps body = [] ↔ dropBlankTail body.reverse = [] := by
  have hsteps := steps_dropBlankTail body.reverse
  rw [List.reverse_reverse] at hsteps
  constructor
  · intro hnil
    cases htail : dropBlankTail body.reverse with
    | nil => rfl
    | cons c rest =>
      obtain ⟨step, hstep⟩ := steps_aboveLast htail
      rw [List.reverse_reverse, hnil] at hstep
      simp at hstep
  · intro hnil
    rw [← hsteps, hnil]
    rfl

/-- The parent of a path is the path without its last step. -/
theorem components_of_parent (h : p.parent? = some q) :
    ∃ step, p.components = q.components ++ [step] := by
  unfold parent? at h
  split at h
  rename_i lead body hsplit
  split at h
  · rename_i hblank
    split at h
    · rename_i hlead
      obtain rfl := Option.some.inj h
      refine ⟨.current, ?_⟩
      rw [components_of_split hsplit, hlead, (steps_eq_nil_iff body).2 hblank]
      rfl
    · cases h
  · rename_i c rest hbody
    obtain rfl := Option.some.inj h
    change ∃ step, p.components =
      (ofChars (lead ++ (aboveLast (c :: rest)).reverse)).components ++ [step]
    have hcut : (aboveLast (c :: rest)).reverse = [] ∨
        ∃ below, body = (aboveLast (c :: rest)).reverse ++ '/' :: below := by
      rcases aboveLast_cut (c :: rest) with hnil | ⟨front, hfront⟩
      · exact .inl (by rw [hnil]; rfl)
      · obtain ⟨blank, hblank⟩ := dropBlankTail_suffix body.reverse
        rw [hbody, hfront, ← List.reverse_inj, List.reverse_reverse] at hblank
        refine .inr ⟨(blank ++ front).reverse, ?_⟩
        rw [← hblank]
        simp
    obtain ⟨step, hstep⟩ := steps_aboveLast hbody
    rw [List.reverse_reverse] at hstep
    refine ⟨step, ?_⟩
    rw [components_of_split hsplit, components_of_split (split_of_cut hsplit hcut), hstep,
      List.append_assoc]

theorem of_mem_steps {cs : List Char} {step : Component} (h : step ∈ steps cs) :
    step = .parent ∨ ∃ text, step = .name text := by
  obtain ⟨piece, -, hpiece⟩ := List.mem_filterMap.1 h
  unfold Component.ofPiece? at hpiece
  split at hpiece
  · cases hpiece
  · cases hpiece
  · exact .inl (Option.some.inj hpiece).symm
  · exact .inr ⟨_, (Option.some.inj hpiece).symm⟩

theorem root_not_mem_steps (cs : List Char) : .root ∉ steps cs := by
  intro hmem
  rcases of_mem_steps hmem with hroot | ⟨text, hroot⟩ <;> cases hroot

theorem current_not_mem_steps (cs : List Char) : .current ∉ steps cs := by
  intro hmem
  rcases of_mem_steps hmem with hcurrent | ⟨text, hcurrent⟩ <;> cases hcurrent

theorem parent?_eq_none_iff : p.parent? = none ↔ p.components = [] ∨ p.components = [.root] := by
  have hparent {lead body : List Char} (hsplit : p.split = (lead, body)) :
      p.parent? = none ↔ steps body = [] ∧ lead ≠ ['.'] := by
    rw [steps_eq_nil_iff]
    unfold parent?
    rw [hsplit]
    dsimp only
    split
    · rename_i hnil
      simp [hnil]
    · rename_i hcons
      simp [hcons]
  rcases p.split_cases with ⟨body, -, hsplit⟩ | ⟨body, -, hsplit, -⟩ | ⟨-, hsplit⟩
  · rw [hparent hsplit, components_of_split hsplit]
    simp [leadSteps]
  · rw [hparent hsplit, components_of_split hsplit]
    simp [leadSteps]
  · rw [hparent hsplit, components_of_split hsplit]
    have hroot : steps p.chars ≠ [.root] := by
      intro hsteps
      exact root_not_mem_steps p.chars (hsteps ▸ List.mem_cons_self)
    simp [leadSteps, hroot]

theorem isAbsolute_iff_root_mem : p.isAbsolute = true ↔ .root ∈ p.components := by
  have hsteps := root_not_mem_steps p.split.2
  unfold isAbsolute
  rcases p.split_cases with ⟨body, hchars, hsplit⟩ | ⟨body, hchars, hsplit, -⟩ | ⟨hnoLead, hsplit⟩
  · rw [components_of_split hsplit, hchars]
    simp [leadSteps]
  · rw [hsplit] at hsteps
    rw [components_of_split hsplit, hchars]
    simp [leadSteps, hsteps]
  · rw [hsplit] at hsteps
    rw [components_of_split hsplit]
    simp [leadSteps, hsteps, hnoLead.1]

theorem isAbsolute_of_parent (h : p.parent? = some q) : q.isAbsolute = p.isAbsolute := by
  obtain ⟨step, hstep⟩ := components_of_parent h
  rw [Bool.eq_iff_iff]
  constructor
  · intro hq
    rw [isAbsolute_iff_root_mem] at hq ⊢
    rw [hstep]
    exact List.mem_append_left [step] hq
  · intro hp
    exact isAbsolute_parent hp h

/-! ## Ancestors -/

theorem ancestors_of_parent (h : p.parent? = some q) : p.ancestors = p :: q.ancestors := by
  rw [ancestors]
  split
  · rename_i hnone
    rw [h] at hnone
    cases hnone
  · rename_i parent hparent
    obtain rfl := Option.some.inj (hparent.symm.trans h)
    rfl

theorem ancestors_of_no_parent (h : p.parent? = none) : p.ancestors = [p] := by
  rw [ancestors]
  split
  · rfl
  · rename_i parent hparent
    rw [h] at hparent
    cases hparent

/-- A property of a path that holds of the paths without a parent, and of each other path if it
holds of its parent. -/
theorem parent_induction {motive : Path → Prop}
    (root : ∀ p : Path, p.parent? = none → motive p)
    (step : ∀ p q : Path, p.parent? = some q → motive q → motive p) (p : Path) : motive p := by
  induction p using ancestors.induct with
  | case1 p ih =>
    cases hparent : p.parent? with
    | none => exact root p hparent
    | some q => exact step p q hparent (ih q hparent)

theorem getElem?_ancestors_zero (p : Path) : p.ancestors[0]? = some p := by
  rw [ancestors]
  rfl

theorem getElem?_ancestors_succ (p : Path) (k : Nat) :
    p.ancestors[k + 1]? = p.ancestors[k]?.bind parent? := by
  induction p using parent_induction generalizing k with
  | root p hparent =>
    rw [ancestors_of_no_parent hparent]
    cases k with
    | zero => exact hparent.symm
    | succ k => rfl
  | step p q hparent ih =>
    rw [ancestors_of_parent hparent, List.getElem?_cons_succ]
    cases k with
    | zero => rw [getElem?_ancestors_zero, List.getElem?_cons_zero, Option.bind_some, hparent]
    | succ k => rw [List.getElem?_cons_succ, ih k]

/-- The `k`-th ancestor is the path without its last `k` steps. -/
theorem components_of_ancestor {k : Nat} (h : p.ancestors[k]? = some q) :
    q.components = p.components.take (p.components.length - k) := by
  induction p using parent_induction generalizing k with
  | root p hparent =>
    rw [ancestors_of_no_parent hparent] at h
    cases k with
    | zero =>
      obtain rfl : p = q := Option.some.inj h
      rw [Nat.sub_zero, List.take_length]
    | succ k => cases h
  | step p parent hparent ih =>
    rw [ancestors_of_parent hparent] at h
    cases k with
    | zero =>
      obtain rfl : p = q := Option.some.inj h
      rw [Nat.sub_zero, List.take_length]
    | succ k =>
      obtain ⟨step, hstep⟩ := components_of_parent hparent
      have hlength : p.components.length = parent.components.length + 1 := by
        rw [hstep, List.length_append, List.length_singleton]
      have hk : p.components.length - (k + 1) = parent.components.length - k := by omega
      rw [ih h, hk, hstep, List.take_append_of_le_length (by omega)]

/-- A relative path has an ancestor without any step, and an absolute one ends at its root. -/
theorem length_ancestors (p : Path) :
    p.ancestors.length = p.components.length + if p.isAbsolute then 0 else 1 := by
  induction p using parent_induction with
  | root p hparent =>
    rw [ancestors_of_no_parent hparent]
    rcases parent?_eq_none_iff.1 hparent with hnone | hroot
    · have habsolute : ¬p.isAbsolute = true := by
        rw [isAbsolute_iff_root_mem, hnone]
        exact List.not_mem_nil
      rw [hnone, if_neg habsolute]
      rfl
    · have habsolute : p.isAbsolute = true := by
        rw [isAbsolute_iff_root_mem, hroot]
        exact List.mem_cons_self
      rw [hroot, if_pos habsolute]
      rfl
  | step p q hparent ih =>
    obtain ⟨step, hstep⟩ := components_of_parent hparent
    rw [ancestors_of_parent hparent, List.length_cons, ih, isAbsolute_of_parent hparent, hstep,
      List.length_append, List.length_singleton]
    omega

/-- No two ancestors of a path have the same steps. -/
theorem nodup_components_ancestors (p : Path) : (p.ancestors.map components).Nodup := by
  have hshorter : p.ancestors.Pairwise fun a b => b.components.length < a.components.length := by
    rw [List.pairwise_iff_getElem]
    intro i j hi hj hij
    have hlength := p.length_ancestors
    rw [components_of_ancestor (List.getElem?_eq_getElem hi),
      components_of_ancestor (List.getElem?_eq_getElem hj), List.length_take, List.length_take]
    split at hlength <;> omega
  rw [List.nodup_iff_pairwise_ne, List.pairwise_map]
  apply hshorter.imp
  intro a b hlt heq
  rw [heq] at hlt
  exact Nat.lt_irrefl _ hlt

end Path

end RiscvBoot
