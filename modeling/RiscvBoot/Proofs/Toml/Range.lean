import RiscvBoot.Proofs.Except
import RiscvBoot.Toml.Reader

/-!
# The range of integers

Every integer of a document that is read has 64 bits and a sign (`inRange_of_read`). Only one reader
makes integers, and it checks them; what puts values into tables makes none of its own.
-/

set_option autoImplicit false

namespace RiscvBoot.Toml

variable {t x : Tree} {n : Int} {cs rest : List Char} {name : String}

/-- All integers in the tree have 64 bits and a sign. -/
inductive InRange : Tree → Prop where
  | null : InRange .null
  | boolean (b : Bool) : InRange (.boolean b)
  | integer {n : Int} (h : fitsInt64 n = true) : InRange (.integer n)
  | real (literal : String) : InRange (.real literal)
  | text (s : String) : InRange (.text s)
  | dateTime (literal : String) : InRange (.dateTime literal)
  | list {items : List Tree} (h : ∀ t ∈ items, InRange t) : InRange (.list items)
  | record {entries : List (String × Tree)} (h : ∀ e ∈ entries, InRange e.2) :
      InRange (.record entries)
  | illFormed : InRange .illFormed

theorem InRange.fitsInt64 (h : InRange (.integer n)) : fitsInt64 n = true := by
  cases h with
  | integer h => exact h

/-! ## Scalars -/

theorem inRange_of_integerInRange (h : integerInRange n cs = .ok (some (t, rest))) :
    InRange t := by
  unfold integerInRange at h
  split at h
  · rename_i hfits
    cases h
    exact .integer hfits
  · cases h

theorem inRange_of_readInBase {base : Nat} {kind : String}
    (h : readInBase base kind cs = .ok (some (t, rest))) : InRange t := by
  obtain ⟨r, -, h⟩ := bind_eq_ok_iff.1 h
  exact inRange_of_integerInRange h

theorem inRange_of_readInteger (h : readInteger cs = .ok (some (t, rest))) : InRange t := by
  unfold readInteger at h
  split at h
  · exact inRange_of_readInBase h
  · exact inRange_of_readInBase h
  · exact inRange_of_readInBase h
  · obtain ⟨whole, -, h⟩ := bind_eq_ok_iff.1 h
    cases whole with
    | none => cases h
    | some r => exact inRange_of_integerInRange h

theorem inRange_of_readDateTime (h : readDateTime cs = .ok (some (t, rest))) : InRange t := by
  obtain ⟨date, -, h⟩ := bind_eq_ok_iff.1 h
  cases date with
  | some rest =>
    obtain ⟨after, -, h⟩ := bind_eq_ok_iff.1 h
    cases h
    exact .dateTime _
  | none =>
    obtain ⟨found, -, h⟩ := bind_eq_ok_iff.1 h
    cases found with
    | none => cases h
    | some after =>
      cases h
      exact .dateTime _

theorem inRange_of_readSpecialFloat (h : readSpecialFloat cs = some (t, rest)) : InRange t := by
  unfold readSpecialFloat at h
  split at h
  · cases h
    exact .real _
  · cases h
    exact .real _
  · cases h

theorem inRange_of_readDecimalFloat (h : readDecimalFloat cs = .ok (some (t, rest))) :
    InRange t := by
  unfold readDecimalFloat at h
  generalize readSign cs = sign at h
  obtain ⟨whole, -, h⟩ := bind_eq_ok_iff.1 h
  cases whole with
  | none => cases h
  | some r =>
    obtain ⟨fraction, -, h⟩ := bind_eq_ok_iff.1 h
    cases fraction with
    | none => cases h
    | some r =>
      obtain ⟨exponent, -, h⟩ := bind_eq_ok_iff.1 h
      dsimp only at h
      split at h
      · cases h
      · cases h
        exact .real _

theorem inRange_of_readNumber (h : readNumber cs = .ok (some (t, rest))) : InRange t := by
  have hfirst : ∀ readings : List (List Char → Except Fault (Found Tree)),
      (∀ read ∈ readings, ∀ t rest, read cs = .ok (some (t, rest)) → InRange t) →
      firstReading readings cs = .ok (some (t, rest)) → InRange t := by
    intro readings hreadings h
    induction readings with
    | nil => cases h
    | cons read readings ih =>
      obtain ⟨found, hfound, h⟩ := bind_eq_ok_iff.1 h
      cases found with
      | some r =>
        cases h
        exact hreadings read List.mem_cons_self _ _ hfound
      | none => exact ih (fun read hread => hreadings read (List.mem_cons_of_mem _ hread)) h
  apply hfirst _ _ h
  simp only [List.mem_cons, List.not_mem_nil, or_false]
  rintro read (rfl | rfl | rfl | rfl) t rest h
  · exact inRange_of_readDateTime h
  · exact inRange_of_readDecimalFloat h
  · exact inRange_of_readSpecialFloat (Except.ok.inj h)
  · exact inRange_of_readInteger h

theorem inRange_of_readScalar (h : readScalar cs = .ok (t, rest)) : InRange t := by
  unfold readScalar at h
  split at h
  · cases h
    exact .boolean true
  · cases h
    exact .boolean false
  · split at h
    · obtain ⟨r, -, h⟩ := map_eq_ok_iff.1 h
      cases h
      exact .text _
    · dsimp only at h
      split at h
      · obtain ⟨found, hfound, h⟩ := bind_eq_ok_iff.1 h
        cases found with
        | none => cases h
        | some r =>
          cases h
          exact inRange_of_readNumber hfound
      · obtain ⟨found, hfound, h⟩ := bind_eq_ok_iff.1 h
        cases found with
        | none => cases h
        | some r =>
          cases h
          exact inRange_of_readSpecialFloat (Except.ok.inj hfound)
  · cases h

/-! ## Tables -/

theorem InRange.entries {entries : List (String × Tree)} (h : InRange (.record entries)) :
    ∀ e ∈ entries, InRange e.2 := by
  cases h with
  | record h => exact h

theorem InRange.items {items : List Tree} (h : InRange (.list items)) :
    ∀ t ∈ items, InRange t := by
  cases h with
  | list h => exact h

def Entries.InRange (entries : Entries) : Prop := Toml.InRange (.record (entriesToTrees entries))

variable {entries filled : Entries}

theorem inRange_nil : Entries.InRange [] := .record (by simp [entriesToTrees])

theorem inRange_cons {e : String × Node} :
    Entries.InRange (e :: entries) ↔ Toml.InRange e.2.toTree ∧ entries.InRange := by
  unfold Entries.InRange
  rw [entriesToTrees]
  constructor
  · intro h
    refine ⟨h.entries _ List.mem_cons_self, .record ?_⟩
    exact fun e' he' => h.entries e' (List.mem_cons_of_mem _ he')
  · rintro ⟨hnode, hentries⟩
    refine .record fun e' he' => ?_
    rcases List.mem_cons.1 he' with rfl | he'
    · exact hnode
    · exact hentries.entries e' he'

theorem Entries.InRange.set (h : entries.InRange) (name : String) (node : Node)
    (hnode : Toml.InRange node.toTree) : (entries.set name node).InRange := by
  induction entries with
  | nil => exact inRange_cons.2 ⟨hnode, inRange_nil⟩
  | cons e entries ih =>
    obtain ⟨he, hentries⟩ := inRange_cons.1 h
    rw [Entries.set]
    split
    · exact inRange_cons.2 ⟨hnode, hentries⟩
    · exact inRange_cons.2 ⟨he, ih hentries⟩

theorem Entries.InRange.lookup {node : Node} (h : entries.InRange)
    (hnode : entries.lookup name = some node) : Toml.InRange node.toTree := by
  induction entries with
  | nil => cases hnode
  | cons e entries ih =>
    obtain ⟨he, hentries⟩ := inRange_cons.1 h
    rw [List.lookup_cons] at hnode
    split at hnode
    · cases hnode
      exact he
    · exact ih hentries hnode

theorem inRange_tables {items : List Entries} :
    InRange (.list (tablesToTrees items)) ↔ ∀ es ∈ items, es.InRange := by
  have hitems : (∀ t ∈ tablesToTrees items, InRange t) ↔ ∀ es ∈ items, es.InRange := by
    induction items with
    | nil => simp [tablesToTrees]
    | cons es items ih =>
      rw [tablesToTrees, List.forall_mem_cons, List.forall_mem_cons, ih]
      rfl
  rw [← hitems]
  exact ⟨InRange.items, .list⟩

theorem inRange_last {items : List Entries} (h : ∀ es ∈ items, es.InRange) :
    (items.getLastD []).InRange := by
  cases hlast : items.getLast? with
  | none =>
    rw [List.getLastD_eq_getLast?, hlast]
    exact inRange_nil
  | some es =>
    rw [List.getLastD_eq_getLast?, hlast]
    exact h es (List.mem_of_getLast? hlast)

theorem inRange_replaceLast {items : List Entries} (h : ∀ es ∈ items, es.InRange)
    (hfilled : filled.InRange) : InRange (Node.tables (items.dropLast ++ [filled])).toTree := by
  refine inRange_tables.2 fun es hes => ?_
  rcases List.mem_append.1 hes with hes | hes
  · exact h es (List.dropLast_subset items hes)
  · rw [List.mem_singleton.1 hes]
    exact hfilled

theorem inRange_of_insert {origin : Origin} {above path : List String} (hx : InRange x)
    (hentries : entries.InRange) (h : insert origin above path name x entries = .ok filled) :
    filled.InRange := by
  induction path generalizing origin above entries filled with
  | nil =>
    unfold insert at h
    split at h
    · cases h
    · split at h
      · cases h
      · cases h
        exact hentries.set name (.value x) hx
  | cons key path ih =>
    unfold insert at h
    split at h
    · obtain ⟨inner, hinner, h⟩ := bind_eq_ok_iff.1 h
      cases h
      exact hentries.set key (.table .dotted inner) (ih inRange_nil hinner)
    · cases h
    · cases h
    · rename_i o _ _ hlookup
      obtain ⟨inner, hinner, h⟩ := bind_eq_ok_iff.1 h
      cases h
      exact hentries.set key (.table o inner) (ih (hentries.lookup hlookup) hinner)
    · rename_i hlookup
      obtain ⟨last, hlast, h⟩ := bind_eq_ok_iff.1 h
      cases h
      have hitems := inRange_tables.1 (hentries.lookup hlookup)
      exact hentries.set key _ (inRange_replaceLast hitems (ih (inRange_last hitems) hlast))

theorem inRange_filter {keep : String × Node → Bool} (h : entries.InRange) :
    Entries.InRange (entries.filter keep) := by
  induction entries with
  | nil => exact inRange_nil
  | cons e entries ih =>
    obtain ⟨he, hentries⟩ := inRange_cons.1 h
    rw [List.filter_cons]
    split
    · exact inRange_cons.2 ⟨he, ih hentries⟩
    · exact ih hentries

theorem inRange_append {es fs : Entries} (hes : es.InRange) (hfs : fs.InRange) :
    Entries.InRange (es ++ fs) := by
  induction es with
  | nil => exact hfs
  | cons e es ih =>
    obtain ⟨he, hes⟩ := inRange_cons.1 hes
    exact inRange_cons.2 ⟨he, ih hes⟩

theorem inRange_of_openTable {header : Header} (hentries : entries.InRange)
    (h : openTable header entries = .ok filled) : filled.InRange := by
  unfold openTable at h
  split at h
  · cases h
    exact hentries.set _ (.table .header []) inRange_nil
  · rename_i inner _ hlookup
    cases h
    have hinner : Entries.InRange inner := hentries.lookup hlookup
    exact inRange_append (inRange_filter hentries) (inRange_cons.2 ⟨hinner, inRange_nil⟩)
  · cases h
    refine hentries.set _ (.tables [[]]) (inRange_tables.2 ?_)
    intro es hes
    rw [List.mem_singleton.1 hes]
    exact inRange_nil
  · rename_i items _ hlookup
    cases h
    have hitems := inRange_tables.1 (hentries.lookup hlookup)
    refine hentries.set _ (.tables (items ++ [[]])) (inRange_tables.2 ?_)
    intro es hes
    rcases List.mem_append.1 hes with hes | hes
    · exact hitems es hes
    · rw [List.mem_singleton.1 hes]
      exact inRange_nil
  · cases h

theorem inRange_of_under {f : Entries → Except Conflict Entries} {above path : List String}
    (hf : ∀ entries filled, Entries.InRange entries → f entries = .ok filled → filled.InRange)
    (hentries : entries.InRange) (h : under above path f entries = .ok filled) :
    filled.InRange := by
  induction path generalizing above entries filled with
  | nil => exact hf entries filled hentries h
  | cons key path ih =>
    unfold under at h
    split at h
    · obtain ⟨inner, hinner, h⟩ := bind_eq_ok_iff.1 h
      cases h
      exact hentries.set key (.table .passed inner) (ih inRange_nil hinner)
    · cases h
    · rename_i o _ hlookup
      obtain ⟨inner, hinner, h⟩ := bind_eq_ok_iff.1 h
      cases h
      exact hentries.set key (.table o inner) (ih (hentries.lookup hlookup) hinner)
    · rename_i hlookup
      obtain ⟨last, hlast, h⟩ := bind_eq_ok_iff.1 h
      cases h
      have hitems := inRange_tables.1 (hentries.lookup hlookup)
      exact hentries.set key _ (inRange_replaceLast hitems (ih (inRange_last hitems) hlast))

/-! ## Values -/

theorem inRange_of_inserts {pairs : List KeyValue} (hpairs : ∀ kv ∈ pairs, InRange kv.value)
    (hentries : entries.InRange)
    (h : pairs.foldlM (fun es kv => insert .header [] kv.path kv.name kv.value es) entries =
      .ok filled) : filled.InRange := by
  induction pairs generalizing entries with
  | nil =>
    cases h
    exact hentries
  | cons kv pairs ih =>
    rw [List.foldlM_cons] at h
    obtain ⟨next, hnext, h⟩ := bind_eq_ok_iff.1 h
    have hnext := inRange_of_insert (hpairs kv List.mem_cons_self) hentries hnext
    exact ih (fun kv hkv => hpairs kv (List.mem_cons_of_mem _ hkv)) hnext h

theorem inRange_of_inlineTable {pairs : List KeyValue} (hpairs : ∀ kv ∈ pairs, InRange kv.value)
    (h : inlineTable pairs = .ok t) : InRange t := by
  obtain ⟨filled, hfilled, h⟩ := bind_eq_ok_iff.1 h
  cases h
  exact inRange_of_inserts hpairs inRange_nil hfilled

/-- What the readers of values return, for any fuel that is enough. -/
theorem inRange_of_readValue (fuel : Nat) :
    (∀ room cs t rest, readValue fuel room cs = .ok (t, rest) → InRange t) ∧
    (∀ room cs items rest, readItems fuel room cs = .ok (items, rest) →
      ∀ t ∈ items, InRange t) ∧
    ∀ room closing cs pairs rest, readPairs fuel room closing cs = .ok (pairs, rest) →
      ∀ kv ∈ pairs, InRange kv.value := by
  induction fuel with
  | zero =>
    refine ⟨?_, ?_, ?_⟩
    · intro room cs t rest h
      cases h
    · intro room cs items rest h
      cases h
    · intro room closing cs pairs rest h
      cases h
  | succ fuel ih =>
    obtain ⟨hvalue, hitems, hpairs⟩ := ih
    refine ⟨?_, ?_, ?_⟩
    · intro room cs t rest h
      unfold readValue at h
      split at h
      · split at h
        · cases h
        · obtain ⟨inner, -, h⟩ := bind_eq_ok_iff.1 h
          split at h
          · cases h
            exact .list (by simp)
          · obtain ⟨⟨items, after⟩, hread, h⟩ := bind_eq_ok_iff.1 h
            cases h
            exact .list (hitems _ _ _ _ hread)
      · split at h
        · cases h
        · obtain ⟨⟨pairs, closing⟩, hread, h⟩ := bind_eq_ok_iff.1 h
          obtain ⟨table, htable, h⟩ := bind_eq_ok_iff.1 h
          obtain ⟨after, -, h⟩ := bind_eq_ok_iff.1 h
          cases h
          exact inRange_of_inlineTable (hpairs _ _ _ _ _ hread) (mapError_eq_ok_iff.1 htable)
      · exact inRange_of_readScalar h
    · intro room cs items rest h
      obtain ⟨⟨item, after⟩, hitem, h⟩ := bind_eq_ok_iff.1 h
      have hitem := hvalue _ _ _ _ hitem
      obtain ⟨trivia, -, h⟩ := bind_eq_ok_iff.1 h
      split at h
      · obtain ⟨inner, -, h⟩ := bind_eq_ok_iff.1 h
        split at h
        · cases h
          simpa using hitem
        · obtain ⟨⟨more, after⟩, hread, h⟩ := bind_eq_ok_iff.1 h
          cases h
          exact List.forall_mem_cons.2 ⟨hitem, hitems _ _ _ _ hread⟩
      · obtain ⟨after, -, h⟩ := bind_eq_ok_iff.1 h
        cases h
        simpa using hitem
    · intro room closing cs pairs rest h
      obtain ⟨key, -, h⟩ := bind_eq_ok_iff.1 h
      cases key with
      | none =>
        cases h
        simp
      | some key =>
        obtain ⟨after, -, h⟩ := bind_eq_ok_iff.1 h
        obtain ⟨⟨value, after⟩, hread, h⟩ := bind_eq_ok_iff.1 h
        have hread := hvalue _ _ _ _ hread
        dsimp only at h
        split at h
        · obtain ⟨⟨more, closing⟩, hmore, h⟩ := bind_eq_ok_iff.1 h
          cases h
          exact List.forall_mem_cons.2 ⟨hread, hpairs _ _ _ _ _ hmore⟩
        · cases h
          simpa using hread

/-! ## Documents -/

theorem inRange_of_readLine {key : KeyValue} (h : readLine cs = .ok (.pair key, rest)) :
    InRange key.value := by
  unfold readLine at h
  split at h
  · obtain ⟨header, -, h⟩ := bind_eq_ok_iff.1 h
    obtain ⟨after, -, h⟩ := bind_eq_ok_iff.1 h
    cases h
  · split at h
    · cases h
    · obtain ⟨name, -, h⟩ := bind_eq_ok_iff.1 h
      obtain ⟨after, -, h⟩ := bind_eq_ok_iff.1 h
      obtain ⟨⟨value, after⟩, hread, h⟩ := bind_eq_ok_iff.1 h
      obtain ⟨after, -, h⟩ := bind_eq_ok_iff.1 h
      cases h
      exact (inRange_of_readValue _).1 _ _ _ _ hread

theorem inRange_of_add {d d' : Draft} {l : Line} (hd : d.root.InRange)
    (hl : ∀ kv, l = .pair kv → InRange kv.value) (h : d.add l = .ok d') : d'.root.InRange := by
  cases l with
  | blank =>
    cases h
    exact hd
  | pair kv =>
    obtain ⟨root, hroot, h⟩ := bind_eq_ok_iff.1 h
    cases h
    exact inRange_of_under (fun _ _ => inRange_of_insert (hl kv rfl)) hd hroot
  | header header =>
    obtain ⟨root, hroot, h⟩ := bind_eq_ok_iff.1 h
    cases h
    exact inRange_of_under (fun _ _ => inRange_of_openTable) hd hroot

theorem inRange_of_readLines {fuel : Nat} {d d' : Draft} (hd : d.root.InRange)
    (h : readLines fuel d cs = .ok d') : d'.root.InRange := by
  induction fuel generalizing d cs with
  | zero =>
    cases cs with
    | nil =>
      cases h
      exact hd
    | cons c cs => cases h
  | succ fuel ih =>
    cases cs with
    | nil =>
      cases h
      exact hd
    | cons c cs =>
      unfold readLines at h
      obtain ⟨⟨line, rest⟩, hline, h⟩ := bind_eq_ok_iff.1 h
      obtain ⟨next, hnext, h⟩ := bind_eq_ok_iff.1 h
      refine ih (inRange_of_add hd ?_ (mapError_eq_ok_iff.1 hnext)) h
      rintro kv rfl
      exact inRange_of_readLine hline

theorem inRange_of_read {text : String} (h : read text = .ok t) : InRange t := by
  obtain ⟨d, hd, h⟩ := bind_eq_ok_iff.1 h
  cases h
  exact inRange_of_readLines inRange_nil hd

end RiscvBoot.Toml
