import RiscvBoot.Toml.Reader

/-!
# Tables that may hold anything

Where tables may hold anything, one that begins with the reserved name has to be a date-time.
Opening the tables of a document fails exactly if one of them is not
(`withOpenTables?_eq_none_iff`), and otherwise it keeps every text where it was
(`text?_of_opened`).
-/

set_option autoImplicit false

namespace RiscvBoot.Toml

/-- The table begins with the reserved name. -/
def Reserved (entries : List (String × Tree)) : Prop :=
  ∃ value rest, entries = (dateTimeName, value) :: rest

/-- Somewhere in the data there is a table that begins with the reserved name and holds no date-time
under it. What stands inside a table that begins with the name is not looked at. -/
inductive IllDated : Tree → Prop where
  | here {value : Tree} {rest : List (String × Tree)} (bad : dateTime? value = none) :
      IllDated (.record ((dateTimeName, value) :: rest))
  | field {entries : List (String × Tree)} {entry : String × Tree} (plain : ¬Reserved entries)
      (mem : entry ∈ entries) (inside : IllDated entry.2) : IllDated (.record entries)
  | item {items : List Tree} {item : Tree} (mem : item ∈ items) (inside : IllDated item) :
      IllDated (.list items)

variable {entries entries' : List (String × Tree)} {items : List Tree} {t t' x : Tree}
  {name text : String}

theorem not_reserved_of_ne {value : Tree} (hname : name ≠ dateTimeName) :
    ¬Reserved ((name, value) :: entries) := by
  rintro ⟨_, _, h⟩
  exact hname (Prod.ext_iff.1 (List.cons.inj h).1).1

/-- A table that does not begin with the reserved name is read entry by entry. -/
theorem withDateTimes_record (hplain : ¬Reserved entries) :
    withDateTimes (.record entries) = (entriesWithDateTimes entries).map .record := by
  cases entries with
  | nil => rfl
  | cons entry rest =>
    obtain ⟨name, value⟩ := entry
    have hname : name ≠ dateTimeName := by
      rintro rfl
      exact hplain ⟨value, rest, rfl⟩
    rw [withDateTimes, if_neg hname, entriesWithDateTimes]
    cases withDateTimes value with
    | none => rfl
    | some value => cases entriesWithDateTimes rest <;> rfl

theorem withDateTimes_reserved (value : Tree) (rest : List (String × Tree)) :
    withDateTimes (.record ((dateTimeName, value) :: rest)) = dateTime? value := by
  rw [withDateTimes, if_pos rfl]

theorem illDated_record_iff (hplain : ¬Reserved entries) :
    IllDated (.record entries) ↔ ∃ entry ∈ entries, IllDated entry.2 := by
  constructor
  · intro h
    cases h with
    | here => exact absurd ⟨_, _, rfl⟩ hplain
    | field _ mem inside => exact ⟨_, mem, inside⟩
  · rintro ⟨entry, hentry, hinside⟩
    exact .field hplain hentry hinside

theorem illDated_reserved_iff (value : Tree) (rest : List (String × Tree)) :
    IllDated (.record ((dateTimeName, value) :: rest)) ↔ dateTime? value = none := by
  constructor
  · intro h
    cases h with
    | here bad => exact bad
    | field plain => exact absurd ⟨_, _, rfl⟩ plain
  · exact .here

mutual

theorem withDateTimes_eq_none_iff : (t : Tree) → (withDateTimes t = none ↔ IllDated t)
  | .record [] => by
    rw [illDated_record_iff (by rintro ⟨_, _, h⟩; cases h), withDateTimes]
    simp
  | .record ((name, value) :: rest) => by
    have hvalue := withDateTimes_eq_none_iff value
    have hrest := entriesWithDateTimes_eq_none_iff rest
    by_cases hname : name = dateTimeName
    · subst hname
      rw [illDated_reserved_iff, withDateTimes_reserved]
    · have hplain : ¬Reserved ((name, value) :: rest) := not_reserved_of_ne hname
      rw [illDated_record_iff hplain, withDateTimes_record hplain, Option.map_eq_none_iff,
        entriesWithDateTimes]
      simp only [List.mem_cons, exists_eq_or_imp, ← hvalue, ← hrest]
      cases withDateTimes value with
      | none => simp
      | some value => cases entriesWithDateTimes rest <;> simp
  | .list items => by
    have hitems := itemsWithDateTimes_eq_none_iff items
    have hlist : IllDated (.list items) ↔ ∃ item ∈ items, IllDated item := by
      constructor
      · rintro ⟨⟩
        exact ⟨_, ‹_›, ‹_›⟩
      · rintro ⟨item, hitem, hinside⟩
        exact .item hitem hinside
    rw [hlist, ← hitems, withDateTimes]
    cases itemsWithDateTimes items <;> simp
  | .null | .boolean _ | .integer _ | .real _ | .text _ | .dateTime _ | .illFormed => by
    constructor
    · intro h
      simp [withDateTimes] at h
    · rintro ⟨⟩

theorem entriesWithDateTimes_eq_none_iff : (entries : List (String × Tree)) →
    (entriesWithDateTimes entries = none ↔ ∃ entry ∈ entries, IllDated entry.2)
  | [] => by simp [entriesWithDateTimes]
  | (name, value) :: rest => by
    have hvalue := withDateTimes_eq_none_iff value
    have hrest := entriesWithDateTimes_eq_none_iff rest
    rw [entriesWithDateTimes]
    simp only [List.mem_cons, exists_eq_or_imp, ← hvalue, ← hrest]
    cases withDateTimes value with
    | none => simp
    | some value => cases entriesWithDateTimes rest <;> simp

theorem itemsWithDateTimes_eq_none_iff : (items : List Tree) →
    (itemsWithDateTimes items = none ↔ ∃ item ∈ items, IllDated item)
  | [] => by simp [itemsWithDateTimes]
  | item :: rest => by
    have hitem := withDateTimes_eq_none_iff item
    have hrest := itemsWithDateTimes_eq_none_iff rest
    rw [itemsWithDateTimes]
    simp only [List.mem_cons, exists_eq_or_imp, ← hitem, ← hrest]
    cases withDateTimes item with
    | none => simp
    | some item => cases itemsWithDateTimes rest <;> simp

end

/-! ## Documents -/

/-- The document itself may begin with any name. -/
theorem withOpenTables?_eq_none_iff :
    withOpenTables? (.record entries) = none ↔ ∃ entry ∈ entries, IllDated entry.2 := by
  rw [← entriesWithDateTimes_eq_none_iff, withOpenTables?]
  cases entriesWithDateTimes entries <;> simp

theorem lookup_entriesWithDateTimes (h : entriesWithDateTimes entries = some entries')
    (name : String) : entries'.lookup name = (entries.lookup name).bind withDateTimes := by
  induction entries generalizing entries' with
  | nil =>
    cases h
    rfl
  | cons entry rest ih =>
    obtain ⟨key, value⟩ := entry
    rw [entriesWithDateTimes] at h
    obtain ⟨value', hvalue, h⟩ := Option.bind_eq_some_iff.1 h
    obtain ⟨rest', hrest, h⟩ := Option.bind_eq_some_iff.1 h
    cases h
    rw [List.lookup_cons, List.lookup_cons]
    cases name == key with
    | true => exact hvalue.symm
    | false => exact ih hrest

theorem get?_of_opened (h : withOpenTables? t = some t') (name : String) :
    t'.get? name = (t.get? name).bind withDateTimes := by
  cases t with
  | record entries =>
    obtain ⟨entries', hentries, h⟩ := Option.bind_eq_some_iff.1 h
    cases h
    exact lookup_entriesWithDateTimes hentries name
  | _ =>
    cases h
    rfl

theorem exists_withDateTimes_of_opened (h : withOpenTables? t = some t')
    (ht : t.get? name = some x) : ∃ x', withDateTimes x = some x' := by
  rw [← Option.isSome_iff_exists, ← Option.ne_none_iff_isSome]
  intro hnone
  cases t with
  | record entries =>
    obtain ⟨before, later, rfl, -⟩ := List.lookup_eq_some_iff.1 ht
    have hill : withOpenTables? (.record (before ++ (name, x) :: later)) = none :=
      withOpenTables?_eq_none_iff.2 ⟨(name, x), by simp, (withDateTimes_eq_none_iff x).1 hnone⟩
    rw [hill] at h
    cases h
  | _ => cases ht

/-- What is no table that begins with the reserved name keeps its texts, and has no others. -/
theorem text?_withDateTimes (t : Tree) : (withDateTimes t).bind Tree.text? = t.text? := by
  cases t with
  | record entries =>
    by_cases hreserved : Reserved entries
    · obtain ⟨value, rest, rfl⟩ := hreserved
      rw [withDateTimes_reserved]
      unfold dateTime?
      split
      · split <;> rfl
      · rfl
    · rw [withDateTimes_record hreserved]
      cases entriesWithDateTimes entries <;> rfl
  | list items =>
    rw [withDateTimes]
    cases itemsWithDateTimes items <;> rfl
  | _ => rfl

theorem get?_dateTime? (value : Tree) (name : String) :
    (dateTime? value).bind (Tree.get? name) = none := by
  unfold dateTime?
  split
  · split <;> rfl
  · rfl

/-- The texts in the tables of a document are those in the tables that do not begin with the
reserved name. -/
theorem text?_of_opened (h : withOpenTables? t = some t') (outer inner : String) :
    ((t'.get? outer).bind (Tree.get? inner)).bind Tree.text? = some text ↔
      ∃ table, t.get? outer = some (.record table) ∧ ¬Reserved table ∧
        table.lookup inner = some (.text text) := by
  rw [get?_of_opened h]
  cases houter : t.get? outer with
  | none => simp
  | some x =>
    obtain ⟨x', hx'⟩ := exists_withDateTimes_of_opened h houter
    rw [Option.bind_some]
    cases x with
    | record table =>
      by_cases hreserved : Reserved table
      · obtain ⟨value, rest, rfl⟩ := hreserved
        rw [withDateTimes_reserved, get?_dateTime?]
        constructor
        · intro hnone
          cases hnone
        · rintro ⟨_, hsame, hplain, -⟩
          cases hsame
          exact absurd ⟨value, rest, rfl⟩ hplain
      · rw [withDateTimes_record hreserved] at hx' ⊢
        obtain ⟨table', htable, rfl⟩ := Option.map_eq_some_iff.1 hx'
        have hinner : (Tree.record table').get? inner = (table.lookup inner).bind withDateTimes :=
          lookup_entriesWithDateTimes htable inner
        rw [hx', Option.bind_some, hinner, Option.bind_assoc]
        simp only [text?_withDateTimes]
        constructor
        · intro htext
          obtain ⟨entry, hentry, htext⟩ := Option.bind_eq_some_iff.1 htext
          cases entry with
          | text s =>
            cases htext
            exact ⟨table, rfl, hreserved, hentry⟩
          | _ => cases htext
        · rintro ⟨_, hsame, -, hlookup⟩
          cases hsame
          rw [hlookup]
          rfl
    | list items =>
      rw [withDateTimes] at hx' ⊢
      cases itemsWithDateTimes items <;> simp [Tree.get?]
    | _ => simp [withDateTimes, Tree.get?]

end RiscvBoot.Toml
