import RiscvBoot.Proofs.Json.Scalars

/-!
# JSON written and read

A tree that JSON can express is read back from both of its written forms (`read?_compact`,
`read?_pretty`). The two forms differ only in the blanks between the items and entries, and the
reader skips these.
-/

set_option autoImplicit false

namespace RiscvBoot.Json

variable {c : Char} {cs rest before after gap : List Char} {t : Tree} {fuel : Nat}

/-- JSON has a spelling for every value in the tree. -/
inductive Expressible : Tree → Prop where
  | null : Expressible .null
  | boolean (b : Bool) : Expressible (.boolean b)
  | integer (n : Int) : Expressible (.integer n)
  | text (s : String) : Expressible (.text s)
  | list {items : List Tree} (h : ∀ t ∈ items, Expressible t) : Expressible (.list items)
  | record {entries : List (String × Tree)} (h : ∀ e ∈ entries, Expressible e.2) :
      Expressible (.record entries)

/-- The characters are the value, whatever comes after them that does not go on with a number. -/
structure Spells (cs : List Char) (t : Tree) : Prop where
  starts : ∃ c rest, cs = c :: rest ∧ isBlank c = false ∧ c ≠ ']'
  reads : ∀ fuel rest, cs.length ≤ fuel → EndsNumber rest →
    readValue fuel (cs ++ rest) = some (t, rest)

/-! ## Blanks -/

theorem skipBlanks_append (hbefore : ∀ c ∈ before, isBlank c = true) (cs : List Char) :
    skipBlanks (before ++ cs) = skipBlanks cs :=
  List.dropWhile_append_of_pos hbefore

theorem skipBlanks_cons (hc : isBlank c = false) (cs : List Char) :
    skipBlanks (c :: cs) = c :: cs :=
  List.dropWhile_cons_of_neg (by rw [hc]; exact Bool.false_ne_true)

theorem Spells.skipBlanks_eq (h : Spells cs t) (rest : List Char) :
    skipBlanks (cs ++ rest) = cs ++ rest := by
  obtain ⟨c, tail, rfl, hblank, -⟩ := h.starts
  exact skipBlanks_cons hblank (tail ++ rest)

theorem endsNumber_cons (hdigit : c.isDigit = false) (hpoint : c ≠ '.') (hlower : c ≠ 'e')
    (hupper : c ≠ 'E') (cs : List Char) : EndsNumber (c :: cs) := by
  intro d hd
  obtain rfl := Option.some.inj hd
  exact ⟨hdigit, hpoint, hlower, hupper⟩

/-- Blanks and a mark that stands between values end a number. -/
theorem endsNumber_append (hbefore : ∀ c ∈ before, isBlank c = true) (h : EndsNumber cs) :
    EndsNumber (before ++ cs) := by
  cases before with
  | nil => exact h
  | cons b before =>
    have hblank := hbefore b List.mem_cons_self
    unfold isBlank at hblank
    simp only [Bool.or_eq_true, decide_eq_true_eq] at hblank
    rcases hblank with ((rfl | rfl) | rfl) | rfl
    · exact endsNumber_cons rfl (by decide) (by decide) (by decide) _
    · exact endsNumber_cons rfl (by decide) (by decide) (by decide) _
    · exact endsNumber_cons rfl (by decide) (by decide) (by decide) _
    · exact endsNumber_cons rfl (by decide) (by decide) (by decide) _

theorem endsNumber_comma (cs : List Char) : EndsNumber (',' :: cs) :=
  endsNumber_cons rfl (by decide) (by decide) (by decide) cs

theorem endsNumber_bracket (cs : List Char) : EndsNumber (']' :: cs) :=
  endsNumber_cons rfl (by decide) (by decide) (by decide) cs

theorem endsNumber_brace (cs : List Char) : EndsNumber ('\x7d' :: cs) :=
  endsNumber_cons rfl (by decide) (by decide) (by decide) cs

/-! ## Scalars -/

/-- Fuel for at least one character is fuel for one step. -/
theorem exists_succ_of_length_le (h : (c :: cs).length ≤ fuel) :
    ∃ n, fuel = n + 1 ∧ cs.length ≤ n := by
  rw [List.length_cons] at h
  exact ⟨fuel - 1, by omega, by omega⟩

theorem spells_null : Spells (scalar .null) .null := by
  refine ⟨⟨_, _, rfl, rfl, by decide⟩, ?_⟩
  intro fuel rest hfuel _
  obtain ⟨n, rfl, -⟩ := exists_succ_of_length_le hfuel
  rfl

theorem spells_boolean (b : Bool) : Spells (scalar (.boolean b)) (.boolean b) := by
  cases b with
  | false =>
    refine ⟨⟨_, _, rfl, rfl, by decide⟩, ?_⟩
    intro fuel rest hfuel _
    obtain ⟨n, rfl, -⟩ := exists_succ_of_length_le hfuel
    rfl
  | true =>
    refine ⟨⟨_, _, rfl, rfl, by decide⟩, ?_⟩
    intro fuel rest hfuel _
    obtain ⟨n, rfl, -⟩ := exists_succ_of_length_le hfuel
    rfl

theorem spells_text (s : String) : Spells (quoted s) (.text s) := by
  refine ⟨⟨_, _, rfl, rfl, by decide⟩, ?_⟩
  intro fuel rest hfuel _
  obtain ⟨n, rfl, -⟩ := exists_succ_of_length_le hfuel
  have hquoted : quoted s ++ rest = '"' :: (s.toList.flatMap escape ++ '"' :: rest) := by
    simp [quoted]
  rw [hquoted, readValue, readString_quoted]
  rfl

theorem readValue_number (hc : c = '-' ∨ c.isDigit = true) (fuel : Nat) (cs : List Char) :
    readValue (fuel + 1) (c :: cs) = readNumber (c :: cs) := by
  have hne {e : Char} (hminus : e ≠ '-') (hdigit : e.isDigit = false) : c ≠ e := by
    rcases hc with rfl | hc
    · exact hminus.symm
    · exact Text.ne_of_isDigit hc hdigit
  rw [readValue]
  · exact fun _ h => hne (by decide) rfl (List.cons.inj h).1
  · exact fun _ h => hne (by decide) rfl (List.cons.inj h).1
  · exact fun _ h => hne (by decide) rfl (List.cons.inj h).1
  · exact fun _ h => hne (by decide) rfl (List.cons.inj h).1
  · exact fun _ h => hne (by decide) rfl (List.cons.inj h).1
  · exact fun _ h => hne (by decide) rfl (List.cons.inj h).1

theorem spells_integer (n : Int) : Spells (toString n).toList (.integer n) := by
  obtain ⟨c, cs, hcs, hc⟩ := Text.head_toString n
  refine ⟨⟨c, cs, hcs, ?_, ?_⟩, ?_⟩
  · rcases hc with rfl | hc
    · rfl
    · unfold isBlank
      simp [Text.ne_of_isDigit hc]
  · rcases hc with rfl | hc
    · decide
    · exact Text.ne_of_isDigit hc rfl
  · intro fuel rest hfuel hrest
    have hread := readNumber_toString n hrest
    rw [hcs] at hfuel hread ⊢
    obtain ⟨m, rfl, -⟩ := exists_succ_of_length_le hfuel
    exact (readValue_number hc m (cs ++ rest)).trans hread

/-! ## Rows -/

section Row

variable {α β : Type} {text : α → List Char} {a : α} {row : List α} {sep : List Char}

theorem separated_cons_cons (item next : List Char) (items : List (List Char)) :
    separated sep (item :: next :: items) = item ++ (sep ++ separated sep (next :: items)) := by
  rw [separated, List.append_assoc]
  exact List.cons_ne_nil next items

/-- A row starts with the first of its items. -/
theorem exists_separated_append (sep : List Char) (text : α → List Char) (a : α) (row : List α)
    (rest : List Char) :
    ∃ tail, separated sep ((a :: row).map text) ++ rest = text a ++ tail := by
  cases row with
  | nil => exact ⟨rest, rfl⟩
  | cons b row =>
    refine ⟨sep ++ separated sep ((b :: row).map text) ++ rest, ?_⟩
    rw [List.map_cons, List.map_cons, separated_cons_cons, List.append_assoc]

/-- A reader of rows that goes on after a separator and stops before `tail` reads a whole row. Each
item takes one unit of fuel and leaves what the item itself needs. -/
theorem readRow_separated {readRow : Nat → List Char → Option (List β × List Char)}
    {value : α → β} {tail rest : List Char} (hne : row ≠ [])
    (hstarts : ∀ a ∈ row, ∀ cs, skipBlanks (text a ++ cs) = text a ++ cs)
    (hlast : ∀ a ∈ row, ∀ fuel, (text a).length ≤ fuel →
      readRow (fuel + 1) (text a ++ tail) = some ([value a], rest))
    (hnext : ∀ a ∈ row, ∀ fuel cs values, (text a).length ≤ fuel → skipBlanks cs = cs →
      readRow fuel cs = some (values, rest) →
      readRow (fuel + 1) (text a ++ (sep ++ cs)) = some (value a :: values, rest))
    (hfuel : (separated sep (row.map text)).length < fuel) (hsep : sep ≠ []) :
    readRow fuel (separated sep (row.map text) ++ tail) = some (row.map value, rest) := by
  induction row generalizing fuel with
  | nil => exact absurd rfl hne
  | cons a row ih =>
    obtain ⟨n, rfl⟩ := Nat.exists_eq_add_one_of_ne_zero (Nat.ne_zero_of_lt hfuel)
    have ha := List.mem_cons_self (a := a) (l := row)
    cases row with
    | nil => exact hlast a ha n (Nat.le_of_lt_succ hfuel)
    | cons b row =>
      have hb := hstarts b (List.mem_cons_of_mem a List.mem_cons_self)
      have hpositive := List.length_pos_iff.2 hsep
      rw [List.map_cons, List.map_cons, separated_cons_cons, ← List.map_cons] at hfuel ⊢
      simp only [List.length_append] at hfuel
      rw [List.append_assoc, List.append_assoc]
      apply hnext a ha n _ _ (by omega)
      · obtain ⟨cs, hcs⟩ := exists_separated_append sep text b row tail
        rw [hcs]
        exact hb cs
      · apply ih (List.cons_ne_nil b row)
        · exact fun c hc => hstarts c (List.mem_cons_of_mem a hc)
        · exact fun c hc => hlast c (List.mem_cons_of_mem a hc)
        · exact fun c hc => hnext c (List.mem_cons_of_mem a hc)
        · omega

end Row

/-! ## Lists and records -/

section Parts

variable {f : Tree → List Char} (hbefore : ∀ c ∈ before, isBlank c = true)
  (hafter : ∀ c ∈ after, isBlank c = true)

/-- An entry with blanks after its colon. -/
def entryText (gap : List Char) (f : Tree → List Char) (e : String × Tree) : List Char :=
  quoted e.1 ++ ':' :: (gap ++ f e.2)

theorem readEntries_entryText (hgap : ∀ c ∈ gap, isBlank c = true) {e : String × Tree}
    (h : Spells (f e.2) e.2) (hfuel : (f e.2).length ≤ fuel) (hrest : EndsNumber rest) :
    readEntries (fuel + 1) (entryText gap f e ++ rest) =
      match skipBlanks rest with
      | ',' :: rest => do
        let (entries, after) ← readEntries fuel (skipBlanks rest)
        return ((some e.1, e.2) :: entries, after)
      | '\x7d' :: after => some ([(some e.1, e.2)], after)
      | _ => none := by
  have htext : entryText gap f e ++ rest =
      '"' :: (e.1.toList.flatMap escape ++ '"' :: ':' :: (gap ++ (f e.2 ++ rest))) := by
    simp [entryText, quoted]
  rw [htext, readEntries, readString_quoted]
  simp only [Option.bind_eq_bind, Option.bind_some, skipBlanks_cons (c := ':') rfl,
    skipBlanks_append hgap, h.skipBlanks_eq, h.reads fuel rest hfuel hrest]
  rfl

theorem recordOf_named (entries : List (String × Tree)) :
    recordOf (entries.map fun e => (some e.1, e.2)) = .record entries := by
  have hnames : ((entries.map fun e => (some e.1, e.2)).mapM fun e => e.1.map (·, e.2)) =
      some entries := by
    induction entries with
    | nil => rfl
    | cons e entries ih =>
      rw [List.map_cons, List.mapM_cons, ih]
      rfl
  unfold recordOf
  rw [hnames]

include hbefore hafter

theorem readItems_separated {items : List Tree} (hne : items ≠ [])
    (h : ∀ t ∈ items, Spells (f t) t)
    (hfuel : (separated (',' :: before) (items.map f)).length < fuel) (rest : List Char) :
    readItems fuel (separated (',' :: before) (items.map f) ++ (after ++ ']' :: rest)) =
      some (items, rest) := by
  have hclose : skipBlanks (after ++ ']' :: rest) = ']' :: rest := by
    rw [skipBlanks_append hafter, skipBlanks_cons rfl]
  have hrow : readItems fuel (separated (',' :: before) (items.map f) ++ (after ++ ']' :: rest)) =
      some (items.map id, rest) := by
    apply readRow_separated hne _ _ _ hfuel (List.cons_ne_nil ',' before)
    · exact fun t ht cs => (h t ht).skipBlanks_eq cs
    · intro t ht n hn
      have hend := endsNumber_append hafter (endsNumber_bracket rest)
      rw [readItems, (h t ht).reads n _ hn hend]
      simp only [Option.bind_eq_bind, Option.bind_some, hclose]
      rfl
    · intro t ht n cs values hn hskip hrest
      rw [List.cons_append, readItems, (h t ht).reads n _ hn (endsNumber_comma _)]
      simp only [Option.bind_eq_bind, Option.bind_some, skipBlanks_cons (c := ',') rfl,
        skipBlanks_append hbefore, hskip, hrest]
      rfl
  rwa [List.map_id] at hrow

theorem readEntries_separated (hgap : ∀ c ∈ gap, isBlank c = true)
    {entries : List (String × Tree)} (hne : entries ≠ []) (h : ∀ e ∈ entries, Spells (f e.2) e.2)
    (hfuel : (separated (',' :: before) (entries.map (entryText gap f))).length < fuel)
    (rest : List Char) :
    readEntries fuel (separated (',' :: before) (entries.map (entryText gap f)) ++
      (after ++ '\x7d' :: rest)) = some (entries.map fun e => (some e.1, e.2), rest) := by
  have hclose : skipBlanks (after ++ '\x7d' :: rest) = '\x7d' :: rest := by
    rw [skipBlanks_append hafter, skipBlanks_cons rfl]
  have hvalue {e : String × Tree} {n : Nat} (hn : (entryText gap f e).length ≤ n) :
      (f e.2).length ≤ n := by
    simp only [entryText, List.length_append, List.length_cons] at hn
    omega
  apply readRow_separated hne _ _ _ hfuel (List.cons_ne_nil ',' before)
  · exact fun e _ cs => skipBlanks_cons rfl _
  · intro e he n hn
    have hend := endsNumber_append hafter (endsNumber_brace rest)
    rw [readEntries_entryText hgap (h e he) (hvalue hn) hend, hclose]
    rfl
  · intro e he n cs values hn hskip hrest
    rw [List.cons_append, readEntries_entryText hgap (h e he) (hvalue hn) (endsNumber_comma _),
      skipBlanks_cons rfl]
    simp only [Option.bind_eq_bind, skipBlanks_append hbefore, hskip, hrest]
    rfl

theorem spells_list {items : List Tree} (h : ∀ t ∈ items, Spells (f t) t) :
    Spells ('[' :: (before ++ (separated (',' :: before) (items.map f) ++ (after ++ [']']))))
      (.list items) := by
  refine ⟨⟨_, _, rfl, rfl, by decide⟩, ?_⟩
  intro fuel rest hfuel _
  obtain ⟨n, rfl, hn⟩ := exists_succ_of_length_le hfuel
  simp only [List.cons_append, List.append_assoc, List.nil_append, List.length_append,
    List.length_cons] at hn ⊢
  rw [readValue, skipBlanks_append hbefore]
  cases items with
  | nil =>
    rw [List.map_nil, separated, List.nil_append, skipBlanks_append hafter, skipBlanks_cons rfl]
    rfl
  | cons t items =>
    obtain ⟨c, cs, hcs, hblank, hbracket⟩ := (h t List.mem_cons_self).starts
    obtain ⟨tail, htail⟩ := exists_separated_append (',' :: before) f t items (after ++ ']' :: rest)
    have hfuel : (separated (',' :: before) ((t :: items).map f)).length < n := by omega
    have hread := readItems_separated hbefore hafter (List.cons_ne_nil t items) h hfuel rest
    rw [htail, hcs, List.cons_append] at hread ⊢
    rw [skipBlanks_cons hblank]
    split
    · rename_i hclose
      exact absurd (List.cons.inj hclose).1 hbracket
    · rw [hread]
      rfl

theorem spells_record (hgap : ∀ c ∈ gap, isBlank c = true) {entries : List (String × Tree)}
    (h : ∀ e ∈ entries, Spells (f e.2) e.2) :
    Spells ('\x7b' :: (before ++ (separated (',' :: before) (entries.map (entryText gap f)) ++
      (after ++ ['\x7d'])))) (.record entries) := by
  refine ⟨⟨_, _, rfl, rfl, by decide⟩, ?_⟩
  intro fuel rest hfuel _
  obtain ⟨n, rfl, hn⟩ := exists_succ_of_length_le hfuel
  simp only [List.cons_append, List.append_assoc, List.nil_append, List.length_append,
    List.length_cons] at hn ⊢
  rw [readValue, skipBlanks_append hbefore]
  cases entries with
  | nil =>
    rw [List.map_nil, separated, List.nil_append, skipBlanks_append hafter, skipBlanks_cons rfl]
    rfl
  | cons e entries =>
    obtain ⟨tail, htail⟩ := exists_separated_append (',' :: before) (entryText gap f) e entries
      (after ++ '\x7d' :: rest)
    have hfuel : (separated (',' :: before) ((e :: entries).map (entryText gap f))).length < n := by
      omega
    have hread := readEntries_separated hbefore hafter hgap (List.cons_ne_nil e entries) h
      hfuel rest
    have hquote : entryText gap f e ++ tail = '"' :: (e.1.toList.flatMap escape ++ ['"'] ++
        ':' :: (gap ++ f e.2) ++ tail) := rfl
    rw [htail, hquote] at hread ⊢
    rw [skipBlanks_cons rfl]
    split
    · rename_i hclose
      exact absurd (List.cons.inj hclose).1 (by decide)
    · simp only [hread, Option.bind_eq_bind, Option.bind_some, recordOf_named]
      rfl

end Parts

/-! ## Both forms -/

theorem compactItems_eq_map (items : List Tree) : compactItems items = items.map compactChars := by
  induction items with
  | nil => rfl
  | cons t items ih => rw [compactItems, ih, List.map_cons]

theorem compactEntries_eq_map (entries : List (String × Tree)) :
    compactEntries entries = entries.map (entryText [] compactChars) := by
  induction entries with
  | nil => rfl
  | cons e entries ih =>
    rw [compactEntries, ih, List.map_cons]
    rfl

theorem prettyItems_eq_map (level : Nat) (items : List Tree) :
    prettyItems level items = items.map (prettyChars level) := by
  induction items with
  | nil => rfl
  | cons t items ih => rw [prettyItems, ih, List.map_cons]

theorem prettyEntries_eq_map (level : Nat) (entries : List (String × Tree)) :
    prettyEntries level entries = entries.map (entryText [' '] (prettyChars level)) := by
  induction entries with
  | nil => rfl
  | cons e entries ih =>
    rw [prettyEntries, ih, List.map_cons]
    simp [entryText]

theorem spells_compact (h : Expressible t) : Spells (compactChars t) t := by
  have hnone : ∀ c ∈ ([] : List Char), isBlank c = true := by simp
  induction h with
  | null => exact spells_null
  | boolean b => exact spells_boolean b
  | integer n => exact spells_integer n
  | text s => exact spells_text s
  | @list items _ ih =>
    have hlist := spells_list hnone hnone ih
    rwa [← compactItems_eq_map] at hlist
  | @record entries _ ih =>
    have hrecord := spells_record hnone hnone hnone ih
    rwa [← compactEntries_eq_map] at hrecord

theorem isBlank_of_mem_lineBreak (level : Nat) : ∀ c ∈ lineBreak level, isBlank c = true := by
  intro c hc
  rcases List.mem_cons.1 hc with rfl | hc
  · rfl
  · rw [List.eq_of_mem_replicate hc]
    rfl

theorem spells_pretty (h : Expressible t) (level : Nat) : Spells (prettyChars level t) t := by
  induction h generalizing level with
  | null => exact spells_null
  | boolean b => exact spells_boolean b
  | integer n => exact spells_integer n
  | text s => exact spells_text s
  | @list items _ ih =>
    have hlist := spells_list (isBlank_of_mem_lineBreak (level + 1))
      (isBlank_of_mem_lineBreak level) fun t ht => ih t ht (level + 1)
    rw [prettyChars, block, prettyItems_eq_map]
    split
    · rename_i hnil
      obtain rfl := List.map_eq_nil_iff.1 hnil
      exact spells_compact (t := .list []) (.list (by simp))
    · simpa using hlist
  | @record entries _ ih =>
    have hgap : ∀ c ∈ [' '], isBlank c = true := by simp [isBlank]
    have hrecord := spells_record (isBlank_of_mem_lineBreak (level + 1))
      (isBlank_of_mem_lineBreak level) hgap fun e he => ih e he (level + 1)
    rw [prettyChars, block, prettyEntries_eq_map]
    split
    · rename_i hnil
      obtain rfl := List.map_eq_nil_iff.1 hnil
      exact spells_compact (t := .record []) (.record (by simp))
    · simpa using hrecord

theorem read?_of_spells {text : String} (hcs : text.toList = cs ++ after) (h : Spells cs t)
    (hafter : ∀ c ∈ after, isBlank c = true) : read? text = some t := by
  have hend : EndsNumber after := by
    have hnil : EndsNumber [] := by simp [EndsNumber]
    have happend := endsNumber_append hafter hnil
    rwa [List.append_nil] at happend
  have hblank : skipBlanks after = [] := by
    have happend := skipBlanks_append hafter []
    rwa [List.append_nil] at happend
  have hread := h.reads (2 * (cs ++ after).length + 2) after
    (by rw [List.length_append]; omega) hend
  have hguard : (guard (skipBlanks after = []) : Option Unit) = some () := if_pos hblank
  unfold read?
  rw [hcs]
  dsimp only
  rw [h.skipBlanks_eq, hread, Option.bind_eq_bind, Option.bind_some]
  dsimp only
  rw [hguard]
  rfl

theorem read?_compact (h : Expressible t) : read? (compact t) = some t := by
  have htext : (compact t).toList = compactChars t ++ [] := by
    rw [compact, String.toList_ofList, List.append_nil]
  exact read?_of_spells htext (spells_compact h) (by simp)

/-- The pretty form is also read with a line break at its end. -/
theorem read?_pretty (h : Expressible t) :
    read? (pretty t) = some t ∧ read? (pretty t ++ "\n") = some t := by
  have htext : (pretty t).toList = prettyChars 0 t := by
    rw [pretty, String.toList_ofList]
  constructor
  · exact read?_of_spells (by rw [htext, List.append_nil]) (spells_pretty h 0) (by simp)
  · have hblank : ∀ c ∈ ['\n'], isBlank c = true := by simp [isBlank]
    refine read?_of_spells ?_ (spells_pretty h 0) hblank
    rw [String.toList_append, htext]
    rfl

end RiscvBoot.Json
