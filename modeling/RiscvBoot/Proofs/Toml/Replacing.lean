import RiscvBoot.Proofs.Toml.Lines

/-!
# Replacing a value

Whether a document can be read does not depend on the value of a key. Two drafts that differ in one
value take the same lines and still differ in that value only (`Draft.add_of_replaced`), so a value
in the middle of a document can be replaced (`Gap.read_of_replaced`). Only the message of a conflict
can tell what the value was.
-/

set_option autoImplicit false

namespace RiscvBoot.Toml

variable {α β : Type} {R S : α → α → Prop} {name key : String} {a b : α}

/-! ## One entry of a list -/

/-- The lists differ in the first entry of this name only, and there as `R` tells. -/
inductive Replaced (R : α → α → Prop) (name : String) :
    List (String × α) → List (String × α) → Prop where
  | head {a b : α} (entries : List (String × α)) (h : R a b) :
      Replaced R name ((name, a) :: entries) ((name, b) :: entries)
  | tail {key : String} {es fs : List (String × α)} (hkey : key ≠ name) (c : α)
      (h : Replaced R name es fs) : Replaced R name ((key, c) :: es) ((key, c) :: fs)

namespace Replaced

variable {es fs : List (String × α)}

theorem lookup_self (h : Replaced R name es fs) :
    ∃ a b, es.lookup name = some a ∧ fs.lookup name = some b ∧ R a b := by
  induction h with
  | @head a b entries h => exact ⟨a, b, List.lookup_cons_self, List.lookup_cons_self, h⟩
  | tail hkey c _ ih =>
    obtain ⟨a, b, ha, hb, hab⟩ := ih
    have hne : (name == _) = false := beq_false_of_ne hkey.symm
    exact ⟨a, b, by rw [List.lookup_cons, hne, ha], by rw [List.lookup_cons, hne, hb], hab⟩

theorem lookup_of_ne (h : Replaced R name es fs) (hkey : key ≠ name) :
    fs.lookup key = es.lookup key := by
  induction h with
  | head entries _ =>
    have hne : (key == name) = false := beq_false_of_ne hkey
    rw [List.lookup_cons, List.lookup_cons, hne]
  | tail _ c _ ih => rw [List.lookup_cons, List.lookup_cons, ih]

theorem append (h : Replaced R name es fs) (rest : List (String × α)) :
    Replaced R name (es ++ rest) (fs ++ rest) := by
  induction h with
  | head entries h => exact .head (entries ++ rest) h
  | tail hkey c _ ih => exact .tail hkey c ih

theorem of_absent (habsent : ∀ e ∈ es, e.1 ≠ name) (h : R a b) :
    Replaced R name (es ++ [(name, a)]) (es ++ [(name, b)]) := by
  induction es with
  | nil => exact .head [] h
  | cons e es ih =>
    exact .tail (habsent e List.mem_cons_self) e.2 (ih fun e' he' =>
      habsent e' (List.mem_cons_of_mem e he'))

theorem filter_ne (h : Replaced R name es fs) (hkey : key ≠ name) :
    Replaced R name (es.filter (·.1 ≠ key)) (fs.filter (·.1 ≠ key)) := by
  induction h with
  | head entries h =>
    rw [List.filter_cons_of_pos (by simpa using hkey.symm),
      List.filter_cons_of_pos (by simpa using hkey.symm)]
    exact .head _ h
  | @tail k es fs hk c _ ih =>
    by_cases hsame : k = key
    · rwa [List.filter_cons_of_neg (by simp [hsame]), List.filter_cons_of_neg (by simp [hsame])]
    · rw [List.filter_cons_of_pos (by simpa using hsame),
        List.filter_cons_of_pos (by simpa using hsame)]
      exact .tail hk c ih

theorem filter_self (h : Replaced R name es fs) :
    fs.filter (·.1 ≠ name) = es.filter (·.1 ≠ name) := by
  induction h with
  | head entries _ => rw [List.filter_cons_of_neg (by simp), List.filter_cons_of_neg (by simp)]
  | tail hkey c _ ih =>
    rw [List.filter_cons_of_pos (by simpa using hkey),
      List.filter_cons_of_pos (by simpa using hkey), ih]

/-- Beside the entry that differs there are as many others of its name. -/
theorem filter_eq_self (h : Replaced R name es fs) : ∃ a b rest,
    es.filter (·.1 = name) = (name, a) :: rest ∧ fs.filter (·.1 = name) = (name, b) :: rest ∧
      R a b := by
  induction h with
  | @head a b entries h =>
    exact ⟨a, b, _, List.filter_cons_of_pos (by simp), List.filter_cons_of_pos (by simp), h⟩
  | tail hkey c _ ih =>
    rwa [List.filter_cons_of_neg (by simpa using hkey),
      List.filter_cons_of_neg (by simpa using hkey)]

theorem filter_eq_of_ne (h : Replaced R name es fs) (hkey : key ≠ name) :
    fs.filter (·.1 = key) = es.filter (·.1 = key) := by
  induction h with
  | head entries _ =>
    rw [List.filter_cons_of_neg (by simpa using hkey.symm),
      List.filter_cons_of_neg (by simpa using hkey.symm)]
  | tail _ c _ ih => rw [List.filter_cons, List.filter_cons, ih]

end Replaced

/-! ## One value of a draft -/

variable {x y : Tree} {path : List String} {es fs out : Entries} {n m : Node}

/-- The value that the names lead to is `x` in one node and `y` in the other, and this is all that
they differ in. -/
def Node.Replaced (x y : Tree) : List String → Node → Node → Prop
  | [], n, m => n = .value x ∧ m = .value y
  | name :: path, n, m => ∃ origin es fs, n = .table origin es ∧ m = .table origin fs ∧
      Toml.Replaced (Node.Replaced x y path) name es fs

theorem Node.Replaced.cases (h : Node.Replaced x y path n m) :
    path = [] ∧ n = .value x ∧ m = .value y ∨
      ∃ name inner origin es fs, path = name :: inner ∧ n = .table origin es ∧
        m = .table origin fs ∧ Toml.Replaced (Node.Replaced x y inner) name es fs := by
  cases path with
  | nil => exact .inl ⟨rfl, h⟩
  | cons name inner =>
    obtain ⟨origin, es, fs, hn, hm, hentries⟩ := h
    exact .inr ⟨name, inner, origin, es, fs, rfl, hn, hm, hentries⟩

theorem Replaced.set_of_ne (h : Replaced (Node.Replaced x y path) name es fs) (hkey : key ≠ name)
    (node : Node) :
    Replaced (Node.Replaced x y path) name (Entries.set key node es) (Entries.set key node fs) := by
  induction h with
  | head entries h =>
    rw [Entries.set, Entries.set, if_neg hkey.symm, if_neg hkey.symm]
    exact .head _ h
  | @tail k es fs hk c htail ih =>
    rw [Entries.set, Entries.set]
    split
    · exact .tail hk node htail
    · exact .tail hk c ih

theorem Replaced.set_self {path' : List String}
    (h : Replaced (Node.Replaced x y path) name es fs) (hnodes : Node.Replaced x y path' n m) :
    Replaced (Node.Replaced x y path') name (Entries.set name n es) (Entries.set name m fs) := by
  induction h with
  | head entries _ =>
    rw [Entries.set, Entries.set, if_pos rfl, if_pos rfl]
    exact .head entries hnodes
  | tail hkey c _ ih =>
    rw [Entries.set, Entries.set, if_neg hkey, if_neg hkey]
    exact .tail hkey c ih

theorem Replaced.bind_set_of_ne (h : Replaced (Node.Replaced x y path) name es fs)
    (hkey : key ≠ name) {filling : Except Conflict Entries} {wrap : Entries → Node}
    (hout : (do return Entries.set key (wrap (← filling)) es) = Except.ok out) :
    ∃ out', (do return Entries.set key (wrap (← filling)) fs) = Except.ok out' ∧
      Replaced (Node.Replaced x y path) name out out' := by
  obtain ⟨filled, hfilled, hset⟩ := bind_eq_ok_iff.1 hout
  cases hset
  exact ⟨_, bind_eq_ok_iff.2 ⟨filled, hfilled, rfl⟩, h.set_of_ne hkey _⟩

/-- What works on the entries with one value works on those with the other. -/
def Keeps (x y : Tree) (f : Entries → Except Conflict Entries) : Prop :=
  ∀ ⦃path name es fs out⦄, Replaced (Node.Replaced x y path) name es fs → f es = .ok out →
    ∃ out', f fs = .ok out' ∧ Replaced (Node.Replaced x y path) name out out'

theorem insert_of_table {origin o : Origin} {above keys : List String} {next : String}
    {value : Tree} {inner : Entries} (ho : o ≠ .header)
    (h : es.lookup next = some (.table o inner)) :
    insert origin above (next :: keys) key value es =
      (insert o (above ++ [next]) keys key value inner).map fun filled =>
        Entries.set next (.table o filled) es := by
  rw [insert, h]
  cases o with
  | header => exact absurd rfl ho
  | passed => rfl
  | dotted => rfl

theorem keeps_insert (x y : Tree) (origin : Origin) (above path : List String) (key : String)
    (value : Tree) : Keeps x y (insert origin above path key value) := by
  -- The names of the key are followed until they end, or part from those of the replaced value.
  induction path generalizing origin above with
  | nil =>
    intro path name es fs out h hout
    unfold insert at hout ⊢
    split at hout
    · cases hout
    · rename_i hopen
      rw [if_neg hopen]
      split at hout
      · cases hout
      · rename_i hfree
        cases hout
        have hkey : key ≠ name := by
          rintro rfl
          obtain ⟨a, b, ha, -, -⟩ := h.lookup_self
          rw [hfree] at ha
          cases ha
        rw [h.lookup_of_ne hkey, hfree]
        exact ⟨_, rfl, h.set_of_ne hkey _⟩
  | cons next keys ih =>
    intro path name es fs out h hout
    by_cases hnext : next = name
    · subst hnext
      obtain ⟨n, m, hn, hm, hnodes⟩ := h.lookup_self
      rcases hnodes.cases with ⟨-, rfl, rfl⟩ | ⟨_, path, o, inner, inner', rfl, rfl, rfl, hinner⟩
      · rw [insert, hn] at hout
        cases hout
      · by_cases ho : o = .header
        · subst ho
          rw [insert, hn] at hout
          cases hout
        · rw [insert_of_table ho hn] at hout
          obtain ⟨filled, hfilled, rfl⟩ := map_eq_ok_iff.1 hout
          obtain ⟨filled', hfilled', hreplaced⟩ := ih o (above ++ [next]) hinner hfilled
          refine ⟨Entries.set next (.table o filled') fs, ?_, ?_⟩
          · rw [insert_of_table ho hm, hfilled']
            rfl
          · exact h.set_self ⟨o, filled, filled', rfl, rfl, hreplaced⟩
    · -- The key does not go where the lists differ, so it does the same to both.
      unfold insert at hout ⊢
      rw [h.lookup_of_ne hnext]
      split at hout
      · exact h.bind_set_of_ne hnext hout
      · cases hout
      · cases hout
      · exact h.bind_set_of_ne hnext hout
      · exact h.bind_set_of_ne hnext hout

theorem keeps_openTable (x y : Tree) (header : Header) : Keeps x y (openTable header) := by
  intro path name es fs out h hout
  unfold openTable at hout ⊢
  by_cases hname : header.name = name
  · obtain ⟨n, m, hn, hm, hnodes⟩ := h.lookup_self
    rw [hname, hn] at hout
    rw [hname, hm]
    generalize header.repeated = repeated at hout ⊢
    rcases hnodes.cases with ⟨-, rfl, rfl⟩ | ⟨_, path, o, inner, inner', rfl, rfl, rfl, hinner⟩
    · cases repeated <;> cases hout
    · match repeated, o with
      | true, _ => cases hout
      | false, .header => cases hout
      | false, .dotted => cases hout
      | false, .passed =>
        -- A table that was passed through moves to the end, with the value that is replaced.
        cases hout
        dsimp only
        rw [h.filter_self]
        refine ⟨_, rfl, .of_absent ?_ ⟨.header, inner, inner', rfl, rfl, hinner⟩⟩
        intro e he
        simpa using (List.mem_filter.1 he).2
  · rw [h.lookup_of_ne hname]
    split at hout
    · cases hout
      exact ⟨_, rfl, h.set_of_ne hname _⟩
    · cases hout
      exact ⟨_, rfl, (h.filter_ne hname).append _⟩
    · cases hout
      exact ⟨_, rfl, h.set_of_ne hname _⟩
    · cases hout
      exact ⟨_, rfl, h.set_of_ne hname _⟩
    · cases hout

theorem Keeps.under {f : Entries → Except Conflict Entries} (hf : Keeps x y f)
    (above path : List String) : Keeps x y (under above path f) := by
  induction path generalizing above with
  | nil => exact hf
  | cons next keys ih =>
    intro path name es fs out h hout
    unfold Toml.under at hout ⊢
    by_cases hnext : next = name
    · subst hnext
      obtain ⟨n, m, hn, hm, hnodes⟩ := h.lookup_self
      rw [hn] at hout
      rw [hm]
      rcases hnodes.cases with ⟨-, rfl, rfl⟩ | ⟨_, path, o, inner, inner', rfl, rfl, rfl, hinner⟩
      · cases hout
      · obtain ⟨filled, hfilled, hset⟩ := bind_eq_ok_iff.1 hout
        cases hset
        obtain ⟨filled', hfilled', hreplaced⟩ := ih (above ++ [next]) hinner hfilled
        refine ⟨_, bind_eq_ok_iff.2 ⟨filled', hfilled', rfl⟩, ?_⟩
        exact h.set_self ⟨o, filled, filled', rfl, rfl, hreplaced⟩
    · rw [h.lookup_of_ne hnext]
      split at hout
      · exact h.bind_set_of_ne hnext hout
      · cases hout
      · exact h.bind_set_of_ne hnext hout
      · exact h.bind_set_of_ne hnext hout

/-! ## One value of a document -/

/-- The drafts are in the same section and differ in one value. -/
structure Draft.Replaced (x y : Tree) (path : List String) (name : String) (d e : Draft) :
    Prop where
  here : e.here = d.here
  root : Toml.Replaced (Node.Replaced x y path) name d.root e.root

theorem Draft.add_of_replaced {d e d' : Draft} {l : Line} (h : d.Replaced x y path name e)
    (hadd : d.add l = .ok d') : ∃ e', e.add l = .ok e' ∧ d'.Replaced x y path name e' := by
  cases l with
  | blank =>
    cases hadd
    exact ⟨e, rfl, h⟩
  | pair kv =>
    obtain ⟨root, hroot, hd⟩ := bind_eq_ok_iff.1 hadd
    cases hd
    have hkeeps := (keeps_insert x y .header [] kv.path kv.name kv.value).under [] d.here
    obtain ⟨root', hroot', hreplaced⟩ := hkeeps h.root hroot
    rw [← h.here] at hroot'
    exact ⟨_, bind_eq_ok_iff.2 ⟨root', hroot', rfl⟩, h.here, hreplaced⟩
  | header header =>
    obtain ⟨root, hroot, hd⟩ := bind_eq_ok_iff.1 hadd
    cases hd
    have hkeeps := (keeps_openTable x y header).under [] header.path
    obtain ⟨root', hroot', hreplaced⟩ := hkeeps h.root hroot
    exact ⟨_, bind_eq_ok_iff.2 ⟨root', hroot', rfl⟩, rfl, hreplaced⟩

theorem readLines_of_replaced {d e d' : Draft} {fuel fuel' : Nat} {cs : List Char}
    (h : d.Replaced x y path name e) (hfuel : fuel ≤ fuel')
    (hread : readLines fuel d cs = .ok d') :
    ∃ e', readLines fuel' e cs = .ok e' ∧ d'.Replaced x y path name e' := by
  -- A line is read without the draft, which only has to take it.
  induction fuel generalizing fuel' d e cs with
  | zero =>
    cases cs with
    | nil =>
      cases hread
      exact ⟨e, by cases fuel' <;> rfl, h⟩
    | cons c cs => cases hread
  | succ fuel ih =>
    obtain ⟨fuel', rfl⟩ := Nat.exists_eq_add_of_le' (Nat.le_trans (Nat.le_add_left 1 fuel) hfuel)
    cases cs with
    | nil =>
      cases hread
      exact ⟨e, rfl, h⟩
    | cons c cs =>
      unfold readLines at hread ⊢
      obtain ⟨⟨line, rest⟩, hline, hread⟩ := bind_eq_ok_iff.1 hread
      obtain ⟨next, hnext, hread⟩ := bind_eq_ok_iff.1 hread
      obtain ⟨next', hnext', hreplaced⟩ := Draft.add_of_replaced h (mapError_eq_ok_iff.1 hnext)
      obtain ⟨e', hread', he'⟩ := ih hreplaced (Nat.le_of_succ_le_succ hfuel) hread
      refine ⟨e', ?_, he'⟩
      rw [hline]
      refine bind_eq_ok_iff.2 ⟨(line, rest), rfl, bind_eq_ok_iff.2 ⟨next', ?_, hread'⟩⟩
      exact mapError_eq_ok_iff.2 hnext'

/-! ## One value of the data -/

/-- The value that the names lead to is `x` in one tree and `y` in the other, and this is all that
they differ in. -/
def Tree.Replaced (x y : Tree) : List String → Tree → Tree → Prop
  | [], t, u => t = x ∧ u = y
  | name :: path, t, u => ∃ es fs, t = .record es ∧ u = .record fs ∧
      Toml.Replaced (Tree.Replaced x y path) name es fs

theorem replaced_toTrees {es fs : Entries}
    (hnodes : ∀ n m, Node.Replaced x y path n m → Tree.Replaced x y path n.toTree m.toTree)
    (h : Replaced (Node.Replaced x y path) name es fs) :
    Replaced (Tree.Replaced x y path) name (entriesToTrees es) (entriesToTrees fs) := by
  induction h with
  | @head n m entries h =>
    rw [entriesToTrees, entriesToTrees]
    exact .head _ (hnodes n m h)
  | tail hkey c _ ih =>
    rw [entriesToTrees, entriesToTrees]
    exact .tail hkey c.toTree ih

theorem Node.Replaced.toTree (path : List String) (n m : Node) (h : Node.Replaced x y path n m) :
    Tree.Replaced x y path n.toTree m.toTree := by
  induction path generalizing n m with
  | nil =>
    obtain ⟨rfl, rfl⟩ := h
    exact ⟨rfl, rfl⟩
  | cons name path ih =>
    obtain ⟨origin, es, fs, rfl, rfl, hentries⟩ := h
    exact ⟨_, _, rfl, rfl, replaced_toTrees ih hentries⟩

theorem Draft.Replaced.toTree {d e : Draft} (h : d.Replaced x y path name e) :
    Tree.Replaced x y (name :: path) d.toTree e.toTree :=
  ⟨_, _, rfl, rfl, replaced_toTrees (Node.Replaced.toTree path) h.root⟩

/-! ## A place in a text -/

theorem replaced_set (h : Node.Replaced x y path n m) (name : String) (es : Entries) :
    Replaced (Node.Replaced x y path) name (Entries.set name n es) (Entries.set name m es) := by
  induction es with
  | nil => exact .head [] h
  | cons e es ih =>
    rw [Entries.set, Entries.set]
    split
    · rename_i hsame
      rw [hsame]
      exact .head es h
    · rename_i hne
      exact .tail hne e.2 ih

/-- A document with a place for one more key in a table with a header: the lines before it, and what
comes after it. -/
structure Gap (table : String) where
  before : List String
  draft : Draft
  drafts : Drafts {} before draft
  here : draft.here = [table]
  opened : ∃ origin entries, draft.root.lookup table = some (.table origin entries)
  after : String

variable {table line line' : String} {d' : Draft} {t : Tree}

def Gap.text (g : Gap table) (line : String) : String :=
  String.join g.before ++ line ++ g.after

theorem insert_here_iff {entries filled : Entries} {value : Tree} :
    insert .header [] [] key value entries = .ok filled ↔
      entries.lookup key = none ∧ filled = Entries.set key (.value value) entries := by
  unfold insert
  rw [if_neg (by simp)]
  cases entries.lookup key with
  | some node => simp
  | none => simp [eq_comm]

theorem Gap.add_pair (g : Gap table) (hadd : g.draft.add (.pair ⟨⟨[], key⟩, x⟩) = .ok d')
    (y : Tree) :
    ∃ e', g.draft.add (.pair ⟨⟨[], key⟩, y⟩) = .ok e' ∧ d'.Replaced x y [key] table e' := by
  obtain ⟨origin, entries, hopened⟩ := g.opened
  have hunder (z : Tree) : under [] g.draft.here (insert .header [] [] key z) g.draft.root =
      (insert .header [] [] key z entries).map fun filled =>
        Entries.set table (.table origin filled) g.draft.root := by
    rw [g.here, Toml.under, hopened]
    rfl
  obtain ⟨root, hroot, hd⟩ := bind_eq_ok_iff.1 hadd
  cases hd
  obtain ⟨filled, hfilled, rfl⟩ := map_eq_ok_iff.1 ((hunder x).symm.trans hroot)
  obtain ⟨hfree, rfl⟩ := insert_here_iff.1 hfilled
  have hinsert := insert_here_iff.2 ⟨hfree, (rfl : Entries.set key (.value y) entries = _)⟩
  have hvalue : Node.Replaced x y [] (.value x) (.value y) := ⟨rfl, rfl⟩
  have hnode : Node.Replaced x y [key] (.table origin (Entries.set key (.value x) entries))
      (.table origin (Entries.set key (.value y) entries)) :=
    ⟨origin, _, _, rfl, rfl, replaced_set hvalue key entries⟩
  have hroot' := (hunder y).trans (map_eq_ok_iff.2 ⟨_, hinsert, rfl⟩)
  exact ⟨_, bind_eq_ok_iff.2 ⟨_, hroot', rfl⟩, rfl, replaced_set hnode table g.draft.root⟩

theorem Drafts.eq_of_nil {d e : Draft} (h : Drafts d [] e) : e = d := by
  cases h
  rfl

theorem Gap.before_ne_nil (g : Gap table) : g.before ≠ [] := by
  intro hnil
  have hdrafts := g.drafts
  rw [hnil] at hdrafts
  have hhere := g.here
  rw [hdrafts.eq_of_nil] at hhere
  cases hhere

theorem Gap.read_text (g : Gap table) {l : Line} (hline : IsLine line l) :
    ∃ fuel, g.before.length + fuel + 1 = (g.text line).length ∧
      read (g.text line) = do
        let d ← g.draft.addLine l (skipBlanks (line.toList ++ g.after.toList))
        return (← readLines fuel d g.after.toList).toTree := by
  have hchars : (g.text line).toList =
      g.before.flatMap String.toList ++ (line.toList ++ g.after.toList) := by
    rw [text, String.toList_append, String.toList_append, String.toList_join, List.append_assoc]
  have hbefore := g.drafts.length_le
  have hpositive := List.length_pos_iff.2 hline.not_empty
  have hlength : (g.text line).length = (g.text line).toList.length := String.length_toList.symm
  rw [hchars, List.length_append, List.length_append] at hlength
  obtain ⟨fuel, hfuel⟩ := Nat.exists_eq_add_of_le
    (show g.before.length + 1 ≤ (g.text line).length by omega)
  refine ⟨fuel, by omega, ?_⟩
  have hsteps : (g.text line).toList.length = fuel + 1 + g.before.length := by
    rw [String.length_toList]
    omega
  unfold read
  dsimp only
  rw [hchars, g.drafts.dropMark g.before_ne_nil, ← hchars, hsteps, hchars,
    readLines_append g.drafts, readLines_line hline]
  cases g.draft.addLine l (skipBlanks (line.toList ++ g.after.toList)) with
  | error e => rfl
  | ok d => rfl

/-- A document that is read with one value for a key is read with any other, and that value is all
that its data differ in. A longer line gives more steps to the rest. -/
theorem Gap.read_of_replaced (g : Gap table) (hx : IsLine line (.pair ⟨⟨[], key⟩, x⟩))
    (hy : IsLine line' (.pair ⟨⟨[], key⟩, y⟩)) (hlength : line.length ≤ line'.length)
    (hread : read (g.text line) = .ok t) :
    ∃ u, read (g.text line') = .ok u ∧ Tree.Replaced x y [table, key] t u := by
  obtain ⟨fuel, hfuel, htext⟩ := g.read_text hx
  obtain ⟨fuel', hfuel', htext'⟩ := g.read_text hy
  have hmore : fuel ≤ fuel' := by
    have hgrows : (g.text line).length ≤ (g.text line').length := by
      unfold text
      simp only [String.length_append]
      omega
    omega
  rw [htext] at hread
  obtain ⟨d, hadd, hread⟩ := bind_eq_ok_iff.1 hread
  obtain ⟨out, hout, ht⟩ := bind_eq_ok_iff.1 hread
  cases ht
  obtain ⟨e, hadd', hreplaced⟩ := g.add_pair (mapError_eq_ok_iff.1 hadd) y
  obtain ⟨out', hout', hreplaced'⟩ := readLines_of_replaced hreplaced hmore hout
  refine ⟨out'.toTree, ?_, hreplaced'.toTree⟩
  rw [htext']
  refine bind_eq_ok_iff.2 ⟨e, mapError_eq_ok_iff.2 hadd', bind_eq_ok_iff.2 ⟨out', hout', rfl⟩⟩

end RiscvBoot.Toml
