import RiscvBoot.Proofs.Toml.Integers
import RiscvBoot.Proofs.Toml.Quoted
import RiscvBoot.Proofs.Toml.Replacing

/-!
# Documents written and read

A record of settings is written and read back without its nulls (`read_write`). Its own values are
put into the document first and its sections after them, each under a header of its own, so the
lines fit into the tables that the ones before them have left.
-/

set_option autoImplicit false

namespace RiscvBoot

/-! ## Without nulls -/

namespace Tree

mutual

/-- The tree without the entries that are null. -/
def withoutNulls : Tree → Tree
  | .record entries => .record (entriesWithoutNulls entries)
  | t => t

def entriesWithoutNulls : List (String × Tree) → List (String × Tree)
  | [] => []
  | (_, .null) :: es => entriesWithoutNulls es
  | (name, t) :: es => (name, t.withoutNulls) :: entriesWithoutNulls es

end

theorem entriesWithoutNulls_append (es fs : List (String × Tree)) :
    entriesWithoutNulls (es ++ fs) = entriesWithoutNulls es ++ entriesWithoutNulls fs := by
  induction es with
  | nil => rfl
  | cons e es ih =>
    obtain ⟨name, t⟩ := e
    cases t <;> simp [entriesWithoutNulls, ih]

end Tree

namespace Toml

variable {x : Tree} {name : String} {c : Char} {cs rest : List Char}
  {es own sections : List (String × Tree)} {d d' d'' : Draft} {lines lines' : List String}
  {fuel room : Nat}

/-! ## Texts and lists of texts -/

theorem exists_quoted_cons (s : String) :
    ∃ c cs, quoted s = c :: cs ∧ (c = '"' ∨ c = '\'') := by
  unfold quoted styled
  cases Style.of s.toList with
  | basic => exact ⟨_, _, rfl, .inl rfl⟩
  | literal => exact ⟨_, _, rfl, .inr rfl⟩
  | longBasic => exact ⟨_, _, rfl, .inl rfl⟩
  | longLiteral => exact ⟨_, _, rfl, .inr rfl⟩

theorem noQuote_cons (hdouble : c ≠ '"') (hsingle : c ≠ '\'') (cs : List Char) :
    NoQuote (c :: cs) :=
  ⟨fun h => hdouble (Option.some.inj h), fun h => hsingle (Option.some.inj h)⟩

theorem readScalar_quoted (s : String) (hrest : NoQuote rest) :
    readScalar (quoted s ++ rest) = .ok (.text s, rest) := by
  have hstring := readString_quoted s hrest
  obtain ⟨c, cs, hcs, hc⟩ := exists_quoted_cons s
  rw [hcs, List.cons_append] at hstring ⊢
  unfold readScalar
  split
  · rename_i htrue
    obtain rfl := (List.cons.inj htrue).1
    exact absurd hc (by decide)
  · rename_i hfalse
    obtain rfl := (List.cons.inj hfalse).1
    exact absurd hc (by decide)
  · rename_i hcons
    cases hcons
    rw [if_pos hc, hstring]
    exact congrArg (fun s => Except.ok (Tree.text s, rest)) String.ofList_toList
  · rename_i hnil
    cases hnil

theorem spells_styled (s : String) : Spells (String.ofList (quoted s)) (.text s) := by
  obtain ⟨c, cs, hcs, hc⟩ := exists_quoted_cons s
  have hvalue : (String.ofList (quoted s)).toList = c :: cs := by
    rw [String.toList_ofList, hcs]
  have hne {e : Char} (hdouble : '"' ≠ e) (hsingle : '\'' ≠ e) : c ≠ e := by
    rcases hc with rfl | rfl
    · exact hdouble
    · exact hsingle
  have hblank : isBlank c = false := by
    rcases hc with rfl | rfl <;> rfl
  apply spells_scalar hvalue hblank (hne (by decide) (by decide)) (hne (by decide) (by decide))
  intro rest
  rw [String.toList_ofList]
  exact readScalar_quoted s (noQuote_cons (by decide) (by decide) rest)

theorem readValue_quoted (fuel room : Nat) (s : String) (hrest : NoQuote rest) :
    readValue (fuel + 1) room (quoted s ++ rest) = .ok (.text s, rest) := by
  have hscalar := readScalar_quoted s hrest
  obtain ⟨c, cs, hcs, hc⟩ := exists_quoted_cons s
  rw [hcs, List.cons_append] at hscalar ⊢
  unfold readValue
  split
  · rename_i hbracket
    cases hbracket
    exact absurd hc (by decide)
  · rename_i hbrace
    cases hbrace
    exact absurd hc (by decide)
  · exact hscalar

theorem skipTrivia_quoted (s : String) (rest : List Char) :
    skipTrivia false (quoted s ++ rest) = .ok (quoted s ++ rest) := by
  obtain ⟨c, cs, hcs, rfl | rfl⟩ := exists_quoted_cons s
  · rw [hcs]
    rfl
  · rw [hcs]
    rfl

/-- An item with a comma after it, and the next one. -/
theorem readItems_next {inner next : List Char} {items : List Tree}
    (hvalue : readValue fuel room cs = .ok (x, ',' :: inner))
    (hskip : skipTrivia false inner = .ok (c :: next)) (hc : c ≠ ']')
    (hitems : readItems fuel room (c :: next) = .ok (items, rest)) :
    readItems (fuel + 1) room cs = .ok (x :: items, rest) := by
  have hcomma : skipTrivia false (',' :: inner) = .ok (',' :: inner) := rfl
  rw [readItems, hvalue]
  simp only [bind, Except.bind, hcomma, Except.mapError, hskip]
  split
  · rename_i hclose
    exact absurd (List.cons.inj hclose).1 hc
  · rw [hitems]
    rfl

/-- The line of an item in a list of two or more. -/
def itemLine (s : String) : List Char := "\n    ".toList ++ quoted s ++ [',']

theorem itemLine_eq (s : String) : itemLine s = "\n    ".toList ++ quoted s ++ [','] := rfl

theorem readItems_lines (room : Nat) (s : String) (items : List String)
    (hfuel : items.length + 2 ≤ fuel) (rest : List Char) :
    readItems fuel room
        (quoted s ++ ',' :: (items.flatMap itemLine ++ '\n' :: ']' :: rest)) =
      .ok ((s :: items).map .text, rest) := by
  induction items generalizing s fuel with
  | nil =>
    obtain ⟨n, rfl⟩ := Nat.exists_eq_add_of_le' hfuel
    have hvalue := readValue_quoted n room s
      (noQuote_cons (c := ',') (by decide) (by decide) ('\n' :: ']' :: rest))
    rw [List.flatMap_nil, List.nil_append, List.length_nil, readItems, hvalue]
    rfl
  | cons next items ih =>
    rw [List.length_cons] at hfuel
    obtain ⟨n, rfl⟩ : ∃ n, fuel = n + 1 + 1 := ⟨fuel - 2, by omega⟩
    have htail : (next :: items).flatMap itemLine ++ '\n' :: ']' :: rest = "\n    ".toList ++
        (quoted next ++ ',' :: (items.flatMap itemLine ++ '\n' :: ']' :: rest)) := by
      simp [itemLine_eq]
    have hnext := ih next (show items.length + 2 ≤ n + 1 by omega)
    have hskip := skipTrivia_quoted next (',' :: (items.flatMap itemLine ++ '\n' :: ']' :: rest))
    obtain ⟨c, cs, hcs, hc⟩ := exists_quoted_cons next
    rw [htail]
    rw [hcs, List.cons_append] at hnext hskip ⊢
    have hcomma (tail : List Char) : NoQuote (',' :: tail) :=
      noQuote_cons (by decide) (by decide) tail
    have hclose : c ≠ ']' := by
      rcases hc with rfl | rfl
      · decide
      · decide
    exact readItems_next (readValue_quoted n room s (hcomma _)) hskip hclose hnext

theorem length_le_flatMap (items : List String) :
    items.length ≤ (items.flatMap itemLine).length := by
  induction items with
  | nil => exact Nat.le_refl 0
  | cons s items ih =>
    rw [List.flatMap_cons, List.length_append, List.length_cons]
    have hline : 0 < (itemLine s).length := by simp [itemLine_eq]
    omega

/-- A list that starts with a text is read if its items are. -/
theorem spells_items {value s : String} {items : List Tree} {gap body : List Char}
    (hvalue : value.toList = '[' :: (gap ++ (quoted s ++ body)))
    (hgap : ∀ cs, skipTrivia false (gap ++ cs) = skipTrivia false cs)
    (hreads : ∀ fuel room rest, body.length + 1 ≤ fuel →
      readItems fuel room (quoted s ++ (body ++ rest)) = .ok (items, rest)) :
    Spells value (.list items) := by
  refine ⟨by rw [hvalue]; simp [isBlank], fun fuel room rest hfuel => ?_⟩
  have hskip := hgap (quoted s ++ (body ++ '\n' :: rest))
  have hbody : body.length + 1 ≤ fuel := by
    rw [hvalue] at hfuel
    simp only [List.length_cons, List.length_append] at hfuel
    omega
  have hitems := hreads fuel room ('\n' :: rest) hbody
  rw [skipTrivia_quoted] at hskip
  obtain ⟨c, cs, hcs, hc⟩ := exists_quoted_cons s
  rw [hvalue, List.cons_append, List.append_assoc, List.append_assoc]
  rw [hcs, List.cons_append] at hitems hskip ⊢
  rw [readValue]
  simp only [bind, Except.bind, hskip]
  split
  · rename_i hclose
    obtain rfl := (List.cons.inj hclose).1
    exact absurd hc (by decide)
  · rw [hitems]
    rfl

theorem spells_texts (items : List String) :
    Spells (String.ofList (list (items.map quoted))) (.ofTexts items) := by
  match items with
  | [] => exact spells_empty
  | [s] =>
    have hvalue : (String.ofList (list ([s].map quoted))).toList =
        '[' :: ([] ++ (quoted s ++ [']'])) := String.toList_ofList
    apply spells_items hvalue (fun _ => rfl)
    intro fuel room rest hfuel
    obtain ⟨n, rfl⟩ := Nat.exists_eq_add_of_le' hfuel
    have hvalue := readValue_quoted n room s
      (noQuote_cons (c := ']') (by decide) (by decide) rest)
    rw [List.singleton_append, List.length_singleton, readItems, hvalue]
    rfl
  | s :: next :: items =>
    have hvalue : (String.ofList (list ((s :: next :: items).map quoted))).toList =
        '[' :: ("\n    ".toList ++ (quoted s ++
          ',' :: ((next :: items).flatMap itemLine ++ ['\n', ']']))) := by
      rw [String.toList_ofList]
      have hlines : (items.map quoted).flatMap (fun item => "\n    ".toList ++ item ++ [',']) =
          items.flatMap itemLine := List.flatMap_map quoted _ items
      simp only [list, List.map_cons, List.flatMap_cons, hlines, itemLine_eq]
      simp
    apply spells_items hvalue (fun _ => rfl)
    intro fuel room rest hfuel
    have hlines := length_le_flatMap (next :: items)
    have hlength : (next :: items).length + 2 ≤ fuel := by
      simp only [List.length_cons, List.length_append] at hfuel hlines ⊢
      omega
    simpa using readItems_lines room s (next :: items) hlength rest

/-! ## Values -/

/-- A value that stands after its key. -/
inductive Inline : Tree → Prop where
  | text (s : String) : Inline (.text s)
  | boolean (b : Bool) : Inline (.boolean b)
  | integer {n : Int} (h : fitsInt64 n = true) : Inline (.integer n)
  | texts (items : List String) : Inline (.ofTexts items)

theorem Inline.spells (h : Inline x) :
    ∃ cs, value? x = some cs ∧ Spells (String.ofList cs) x := by
  cases h with
  | text s => exact ⟨_, rfl, spells_styled s⟩
  | boolean b =>
    have hspells := spells_boolean b
    cases b with
    | false => exact ⟨_, rfl, hspells⟩
    | true => exact ⟨_, rfl, hspells⟩
  | @integer n h =>
    have hspells := spells_integer h
    refine ⟨(toString n).toList, ?_, ?_⟩
    · exact if_pos h
    · rwa [String.ofList_toList]
  | texts items =>
    have hitems : (items.map Tree.text).mapM scalar? = some (items.map quoted) := by
      induction items with
      | nil => rfl
      | cons s items ih =>
        rw [List.map_cons, List.mapM_cons, ih]
        rfl
    refine ⟨list (items.map quoted), ?_, spells_texts items⟩
    change ((items.map Tree.text).mapM scalar?).map list = _
    rw [hitems]
    rfl

theorem Inline.ownLines_cons (h : Inline x) (name : String) (es : List (String × Tree)) :
    ownLines ((name, x) :: es) = do
      let v ← value? x
      let rest ← ownLines es
      return key name ++ " = ".toList ++ v ++ '\n' :: rest := by
  cases h <;> rfl

theorem Inline.entriesWithoutNulls_cons (h : Inline x) (name : String)
    (es : List (String × Tree)) :
    Tree.entriesWithoutNulls ((name, x) :: es) = (name, x) :: Tree.entriesWithoutNulls es := by
  cases h <;> rfl

theorem Inline.sectionLines_cons (h : Inline x) (name : String) (es : List (String × Tree)) :
    sectionLines ((name, x) :: es) = sectionLines es := by
  cases h <;> rfl

/-! ## Tables -/

/-- The entries of a table are values or null, each under a bare name of its own. -/
structure Rows (es : List (String × Tree)) : Prop where
  bare : ∀ e ∈ es, isBareKey e.1.toList = true
  distinct : (es.map Prod.fst).Nodup
  inline : ∀ e ∈ es, e.2 = .null ∨ Inline e.2

theorem Rows.tail {e : String × Tree} (h : Rows (e :: es)) : Rows es where
  bare := fun e' he' => h.bare e' (List.mem_cons_of_mem e he')
  distinct := (List.nodup_cons.1 h.distinct).2
  inline := fun e' he' => h.inline e' (List.mem_cons_of_mem e he')

theorem rows_of_names (names : List String) (hnames : es.map Prod.fst = names)
    (hbare : ∀ name ∈ names, isBareKey name.toList = true) (hdistinct : names.Nodup)
    (hinline : ∀ x ∈ es.map Prod.snd, x = .null ∨ Inline x) : Rows es where
  bare := fun _ he => hbare _ (hnames ▸ List.mem_map_of_mem he)
  distinct := hnames ▸ hdistinct
  inline := fun _ he => hinline _ (List.mem_map_of_mem he)

theorem Drafts.append (h : Drafts d lines d') (h' : Drafts d' lines' d'') :
    Drafts d (lines ++ lines') d'' := by
  induction h with
  | nil d => exact h'
  | cons isLine fits _ ih => exact .cons isLine fits (ih h')

theorem lookup_eq_none_iff {entries : Entries} :
    entries.lookup name = none ↔ name ∉ entries.map Prod.fst := by
  induction entries with
  | nil => simp
  | cons e entries ih =>
    rw [List.lookup_cons, List.map_cons, List.mem_cons, not_or]
    by_cases hname : name = e.1
    · subst hname
      simp
    · rw [beq_false_of_ne hname, ← ih]
      simp [hname]

theorem set_of_absent {entries : Entries} (h : name ∉ entries.map Prod.fst) (node : Node) :
    entries.set name node = entries ++ [(name, node)] := by
  induction entries with
  | nil => rfl
  | cons e entries ih =>
    rw [List.map_cons, List.mem_cons, not_or] at h
    rw [Entries.set, if_neg (Ne.symm h.1), ih h.2]
    rfl

theorem set_last {entries : Entries} (h : name ∉ entries.map Prod.fst) (n m : Node) :
    Entries.set name m (entries ++ [(name, n)]) = entries ++ [(name, m)] := by
  induction entries with
  | nil => exact if_pos rfl
  | cons e entries ih =>
    rw [List.map_cons, List.mem_cons, not_or] at h
    rw [List.cons_append, Entries.set, if_neg (Ne.symm h.1), ih h.2]
    rfl

/-- A key with a new name goes to the end of the open table. -/
def Takes (put : Entries → Draft) : Prop :=
  ∀ entries name x, name ∉ entries.map Prod.fst →
    (put entries).add (.pair ⟨⟨[], name⟩, x⟩) = .ok (put (entries ++ [(name, .value x)]))

theorem takes_root : Takes fun entries => { root := entries } := by
  intro entries name x hname
  have hinsert : insert .header [] [] name x entries = .ok _ :=
    insert_here_iff.2 ⟨lookup_eq_none_iff.2 hname, rfl⟩
  rw [set_of_absent hname] at hinsert
  exact bind_eq_ok_iff.2 ⟨_, hinsert, rfl⟩

theorem takes_section {base : Entries} (hname : name ∉ base.map Prod.fst) :
    Takes fun entries =>
      { root := base ++ [(name, .table .header entries)], here := [name] } := by
  intro entries key x hkey
  have hinsert : insert .header [] [] key x entries = .ok _ :=
    insert_here_iff.2 ⟨lookup_eq_none_iff.2 hkey, rfl⟩
  rw [set_of_absent hkey] at hinsert
  have hlookup : (base ++ [(name, Node.table .header entries)]).lookup name =
      some (.table .header entries) := by
    rw [List.lookup_append, lookup_eq_none_iff.2 hname]
    simp
  have hunder : under [] [name] (insert .header [] [] key x)
      (base ++ [(name, .table .header entries)]) =
        .ok (base ++ [(name, .table .header (entries ++ [(key, .value x)]))]) := by
    rw [under, hlookup]
    refine bind_eq_ok_iff.2 ⟨_, hinsert, ?_⟩
    rw [set_last hname]
    rfl
  exact bind_eq_ok_iff.2 ⟨_, hunder, rfl⟩

def valueNodes (es : List (String × Tree)) : Entries := es.map fun e => (e.1, .value e.2)

theorem entriesToTrees_append (es fs : Entries) :
    entriesToTrees (es ++ fs) = entriesToTrees es ++ entriesToTrees fs := by
  induction es with
  | nil => rfl
  | cons e es ih =>
    rw [List.cons_append, entriesToTrees, ih]
    rfl

theorem entriesToTrees_valueNodes (es : List (String × Tree)) :
    entriesToTrees (valueNodes es) = es := by
  induction es with
  | nil => rfl
  | cons e es ih =>
    have hcons : entriesToTrees (valueNodes (e :: es)) =
        (e.1, e.2) :: entriesToTrees (valueNodes es) := rfl
    rw [hcons, ih]

theorem entriesWithoutNulls_names_subset (es : List (String × Tree)) :
    (Tree.entriesWithoutNulls es).map Prod.fst ⊆ es.map Prod.fst := by
  induction es with
  | nil => exact List.Subset.refl []
  | cons e es ih =>
    obtain ⟨name, t⟩ := e
    cases t with
    | null => exact List.subset_cons_of_subset name ih
    | _ => exact List.cons_subset_cons name ih

/-- The lines of the values are put in one after the other. -/
theorem drafts_own {put : Entries → Draft} (hput : Takes put) (hes : Rows es) (start : Entries)
    (hfresh : ∀ e ∈ es, e.1 ∉ start.map Prod.fst) : ∃ lines,
      ownLines es = some (lines.flatMap String.toList) ∧
        Drafts (put start) lines (put (start ++ valueNodes (Tree.entriesWithoutNulls es))) := by
  induction es generalizing start with
  | nil =>
    refine ⟨[], rfl, ?_⟩
    rw [Tree.entriesWithoutNulls, valueNodes, List.map_nil, List.append_nil]
    exact .nil _
  | cons e es ih =>
    have hrest : ∀ e' ∈ es, e'.1 ∉ start.map Prod.fst :=
      fun e' he' => hfresh e' (List.mem_cons_of_mem e he')
    obtain ⟨name, x⟩ := e
    have hbare := hes.bare (name, x) List.mem_cons_self
    have hname := hfresh (name, x) List.mem_cons_self
    rcases hes.inline (name, x) List.mem_cons_self with hnull | hinline
    · obtain rfl : x = .null := hnull
      exact ih hes.tail start hrest
    · obtain ⟨value, hvalue, hspells⟩ := hinline.spells
      have hdistinct := (List.nodup_cons.1 hes.distinct).1
      obtain ⟨lines, hlines, hdrafts⟩ := ih hes.tail (start ++ [(name, .value x)]) (by
        intro e' he' hmem
        rw [List.map_append, List.mem_append] at hmem
        rcases hmem with hmem | hmem
        · exact hrest e' he' hmem
        · have hsame : e'.1 = name := List.mem_singleton.1 hmem
          have hmem : e'.1 ∈ es.map Prod.fst := List.mem_map_of_mem he'
          exact hdistinct (hsame ▸ hmem))
      refine ⟨pairLine name (String.ofList value) :: lines, ?_, ?_⟩
      · have hkey : key name = name.toList := if_pos hbare
        rw [hinline.ownLines_cons, hvalue, hlines, hkey]
        simp [pairLine]
      · rw [List.append_assoc] at hdrafts
        rw [hinline.entriesWithoutNulls_cons]
        exact .cons (isLine_pair hbare hspells) (hput start name x hname) hdrafts

/-- A section of its own. -/
structure IsSection (e : String × Tree) : Prop where
  bare : isBareKey e.1.toList = true
  rows : ∃ es, e.2 = .record es ∧ Rows es

theorem Rows.sectionLines_cons (h : Rows es) (name : String) (sections : List (String × Tree)) :
    sectionLines ((name, .record es) :: sections) = do
      let own ← ownLines es
      let rest ← sectionLines sections
      return '\n' :: '[' :: key name ++ ']' :: '\n' :: own ++ rest := by
  rw [sectionLines, if_neg]
  rw [List.any_eq_true]
  rintro ⟨⟨name, t⟩, he, hrecord⟩
  rcases h.inline _ he with hnull | hinline
  · obtain rfl : t = .null := hnull
    cases hrecord
  · cases hinline <;> cases hrecord

theorem drafts_sections (hsections : ∀ e ∈ sections, IsSection e)
    (hdistinct : (sections.map Prod.fst).Nodup)
    (hfresh : ∀ e ∈ sections, e.1 ∉ d.root.map Prod.fst) : ∃ lines d',
      sectionLines sections = some (lines.flatMap String.toList) ∧ Drafts d lines d' ∧
        entriesToTrees d'.root =
          entriesToTrees d.root ++ Tree.entriesWithoutNulls sections := by
  induction sections generalizing d with
  | nil => exact ⟨[], d, rfl, .nil d, (List.append_nil _).symm⟩
  | cons e sections ih =>
    obtain ⟨name, t⟩ := e
    obtain ⟨hbare, es, rfl, hrows⟩ := hsections (name, t) List.mem_cons_self
    have hname := hfresh _ List.mem_cons_self
    rw [List.map_cons, List.nodup_cons] at hdistinct
    -- The header opens an empty section, which takes its values.
    obtain ⟨own, hown, hownDrafts⟩ := drafts_own (takes_section hname) hrows [] (by simp)
    obtain ⟨lines, d', hlines, hdrafts, hroot⟩ := ih
      (d := { root := d.root ++ [(name, .table .header (valueNodes (Tree.entriesWithoutNulls es)))],
              here := [name] })
      (fun e he => hsections e (List.mem_cons_of_mem _ he)) hdistinct.2 (by
        intro e he hmem
        rw [List.map_append, List.mem_append] at hmem
        rcases hmem with hmem | hmem
        · exact hfresh e (List.mem_cons_of_mem _ he) hmem
        · have hsame : e.1 = name := List.mem_singleton.1 hmem
          have hmem : e.1 ∈ sections.map Prod.fst := List.mem_map_of_mem he
          exact hdistinct.1 (hsame ▸ hmem))
    refine ⟨"\n" :: headerLine name :: (own ++ lines), d', ?_, ?_, ?_⟩
    · have hkey : key name = name.toList := if_pos hbare
      rw [hrows.sectionLines_cons, hown, hlines, hkey]
      simp [headerLine]
    · have hopen : openTable ⟨⟨[], name⟩, false⟩ d.root =
          .ok (d.root ++ [(name, .table .header [])]) := by
        unfold openTable
        rw [lookup_eq_none_iff.2 hname]
        dsimp only
        rw [set_of_absent hname]
      have hheader : d.add (.header ⟨⟨[], name⟩, false⟩) =
          .ok { root := d.root ++ [(name, .table .header [])], here := [name] } :=
        bind_eq_ok_iff.2 ⟨_, hopen, rfl⟩
      refine .cons isLine_nothing rfl (.cons (isLine_header hbare) hheader ?_)
      exact hownDrafts.append hdrafts
    · rw [hroot, entriesToTrees_append, List.append_assoc]
      simp [entriesToTrees, Node.toTree, Tree.entriesWithoutNulls, Tree.withoutNulls,
        entriesToTrees_valueNodes]

theorem ownLines_sections (hsections : ∀ e ∈ sections, IsSection e) :
    ownLines sections = some [] := by
  induction sections with
  | nil => rfl
  | cons e sections ih =>
    obtain ⟨name, t⟩ := e
    obtain ⟨-, es, rfl, -⟩ := hsections _ List.mem_cons_self
    exact ih fun e he => hsections e (List.mem_cons_of_mem _ he)

theorem ownLines_append (hown : Rows own) (hsections : ∀ e ∈ sections, IsSection e) :
    ownLines (own ++ sections) = ownLines own := by
  induction own with
  | nil => exact ownLines_sections hsections
  | cons e own ih =>
    obtain ⟨name, x⟩ := e
    have hrest := ih hown.tail
    rcases hown.inline _ List.mem_cons_self with hnull | hinline
    · obtain rfl : x = .null := hnull
      exact hrest
    · have hinline : Inline x := hinline
      rw [List.cons_append, hinline.ownLines_cons, hinline.ownLines_cons, hrest]

theorem sectionLines_append (hown : Rows own) (sections : List (String × Tree)) :
    sectionLines (own ++ sections) = sectionLines sections := by
  induction own with
  | nil => rfl
  | cons e own ih =>
    obtain ⟨name, x⟩ := e
    have hrest := ih hown.tail
    rcases hown.inline _ List.mem_cons_self with hnull | hinline
    · obtain rfl : x = .null := hnull
      exact hrest
    · have hinline : Inline x := hinline
      rw [List.cons_append, hinline.sectionLines_cons, hrest]

/-- Values and then sections, all under names of their own. -/
structure Writable (own sections : List (String × Tree)) : Prop where
  rows : Rows own
  each : ∀ e ∈ sections, IsSection e
  distinct : ((own ++ sections).map Prod.fst).Nodup

/-- Such a record can be written, and it is read back without its nulls. -/
theorem Writable.read_write (h : Writable own sections) : ∃ text,
    write? (.record (own ++ sections)) = some text ∧
      read text = .ok (Tree.withoutNulls (.record (own ++ sections))) := by
  have hdistinct := h.distinct
  rw [List.map_append, List.nodup_append] at hdistinct
  obtain ⟨-, hsections, happart⟩ := hdistinct
  obtain ⟨lines, hlines, hdrafts⟩ := drafts_own takes_root h.rows [] (by simp)
  obtain ⟨lines', d, hlines', hdrafts', hroot⟩ := drafts_sections
    (d := { root := valueNodes (Tree.entriesWithoutNulls own) }) h.each hsections (by
      intro e he hmem
      have hnames : (valueNodes (Tree.entriesWithoutNulls own)).map Prod.fst =
          (Tree.entriesWithoutNulls own).map Prod.fst := List.map_map
      rw [hnames] at hmem
      exact happart _ (entriesWithoutNulls_names_subset own hmem) _ (List.mem_map_of_mem he) rfl)
  refine ⟨String.join (lines ++ lines'), ?_, ?_⟩
  · rw [write?, ownLines_append h.rows h.each, sectionLines_append h.rows, hlines, hlines']
    have htext : String.ofList (lines.flatMap String.toList ++ lines'.flatMap String.toList) =
        String.join (lines ++ lines') := by
      rw [← List.flatMap_append, ← String.toList_join, String.ofList_toList]
    exact congrArg some htext
  · have hdata : d.toTree = Tree.withoutNulls (.record (own ++ sections)) := by
      rw [Draft.toTree, hroot, entriesToTrees_valueNodes, ← Tree.entriesWithoutNulls_append]
      rfl
    rw [read_of_drafts (hdrafts.append hdrafts'), hdata]

end Toml

end RiscvBoot
