import RiscvBoot.Proofs.Project.Precedence
import RiscvBoot.Proofs.Toml.Integers
import RiscvBoot.Proofs.Toml.Replacing

/-!
# The hart count of a manifest

A hart count is written as an integer or as a text. Replacing one by the other changes that setting
and nothing else (`Manifest.ofText?_of_replaced`), and an integer stands for its digits. But an
integer below zero is no hart count, and a manifest with one is none.
-/

set_option autoImplicit false

namespace RiscvBoot

open Text Toml

variable {f : Format} {es ds : List (String × Tree)} {x y t u : Tree} {m m' : Manifest}

/-! ## Sections by their fields -/

namespace Schema

variable {α : Type} {name key : String} {a : α} {read : Option Tree → Option α}

/-- The entry of a name, which may be missing and may not occur twice. -/
def field? (entries : List (String × Tree)) (name : String) : Option (Option Tree) :=
  match entries.filter (·.1 = name) with
  | [] => some none
  | [(_, t)] => some (some t)
  | _ => none

theorem fields?_record (names : List String) :
    fields? f names (.record es) = names.mapM (field? es) := rfl

/-- What a setting is read as from the entries of its section. -/
def IsRead (entries : List (String × Tree)) (name : String) (read : Option Tree → Option α)
    (a : α) : Prop :=
  ∃ t, field? entries name = some t ∧ read t = some a

/-- The settings of a manifest, section by section. -/
structure Sections (f : Format) (es : List (String × Tree)) (m : Manifest) : Prop where
  kernel : IsRead es "kernel" (optional {} (kernelSettings? f)) m.kernel
  defaults : IsRead es "defaults" (optional {} (defaultSettings? f)) m.defaults
  emulator : IsRead es "emulator" (optional {} (tuning? f)) m.emulator
  sweeper : IsRead es "reaper" (optional {} (sweepSettings? f)) m.sweeper

theorem manifest?_record_iff : manifest? f (.record es) = some m ↔ Sections f es m := by
  unfold manifest?
  simp only [fields?_record, List.mapM_cons, List.mapM_nil, bind, pure, Option.bind_eq_some_iff]
  constructor
  · rintro ⟨_, ⟨kernel, hk, _, ⟨defaults, hd, _, ⟨emulator, he, _, ⟨sweeper, hs, _, h, h₁⟩, h₂⟩,
      h₃⟩, h₄⟩, hread⟩
    cases h
    cases h₁
    cases h₂
    cases h₃
    cases h₄
    simp only [Option.bind_eq_some_iff] at hread
    obtain ⟨_, hkernel, _, hdefaults, _, hemulator, _, hsweeper, h⟩ := hread
    cases h
    exact ⟨⟨kernel, hk, hkernel⟩, ⟨defaults, hd, hdefaults⟩, ⟨emulator, he, hemulator⟩,
      ⟨sweeper, hs, hsweeper⟩⟩
  · rintro ⟨⟨kernel, hk, hkernel⟩, ⟨defaults, hd, hdefaults⟩, ⟨emulator, he, hemulator⟩,
      ⟨sweeper, hs, hsweeper⟩⟩
    refine ⟨[kernel, defaults, emulator, sweeper],
      ⟨kernel, hk, _, ⟨defaults, hd, _, ⟨emulator, he, _, ⟨sweeper, hs, [], rfl, rfl⟩, rfl⟩, rfl⟩,
        rfl⟩, ?_⟩
    simp only [hkernel, hdefaults, hemulator, hsweeper, Option.bind_some]

/-- The settings of the defaults, one by one. -/
structure DefaultsRead (ds : List (String × Tree)) (d : DefaultSettings) : Prop where
  arch : IsRead ds "arch" (optional none (nullable Tree.text?)) d.arch
  harts : IsRead ds "harts" (optional none (nullable hartsSetting?)) d.harts
  strict : IsRead ds "strict" (optional false boolean?) d.strict

theorem defaultSettings?_record_iff {d : DefaultSettings} :
    defaultSettings? f (.record ds) = some d ↔ DefaultsRead ds d := by
  unfold defaultSettings?
  simp only [fields?_record, List.mapM_cons, List.mapM_nil, bind, pure, Option.bind_eq_some_iff]
  constructor
  · rintro ⟨_, ⟨arch, ha, _, ⟨harts, hh, _, ⟨strict, hs, _, h, h₁⟩, h₂⟩, h₃⟩, hread⟩
    cases h
    cases h₁
    cases h₂
    cases h₃
    simp only [Option.bind_eq_some_iff] at hread
    obtain ⟨_, harch, _, hharts, _, hstrict, h⟩ := hread
    cases h
    exact ⟨⟨arch, ha, harch⟩, ⟨harts, hh, hharts⟩, ⟨strict, hs, hstrict⟩⟩
  · rintro ⟨⟨arch, ha, harch⟩, ⟨harts, hh, hharts⟩, ⟨strict, hs, hstrict⟩⟩
    refine ⟨[arch, harts, strict],
      ⟨arch, ha, _, ⟨harts, hh, _, ⟨strict, hs, [], rfl, rfl⟩, rfl⟩, rfl⟩, ?_⟩
    simp only [harch, hharts, hstrict, Option.bind_some]

/-! ## One field replaced -/

variable {R : Tree → Tree → Prop} {fs : List (String × Tree)}

/-- Two lists that differ in another entry give the same setting. -/
theorem IsRead.eq_of_ne {b : α} (hread : IsRead es name read a) (h : Toml.Replaced R key es fs)
    (hname : name ≠ key) : IsRead fs name read b ↔ b = a := by
  obtain ⟨t, ht, hvalue⟩ := hread
  have hfs : field? fs name = some t := by
    unfold field? at ht ⊢
    rwa [h.filter_eq_of_ne hname]
  constructor
  · rintro ⟨u, hu, hvalue'⟩
    obtain rfl := Option.some.inj (hfs.symm.trans hu)
    exact Option.some.inj (hvalue'.symm.trans hvalue)
  · rintro rfl
    exact ⟨t, hfs, hvalue⟩

/-- An entry that is read still occurs once when it is replaced. -/
theorem IsRead.of_replaced (hread : IsRead es name read a) (h : Toml.Replaced R name es fs) :
    ∃ t u, R t u ∧ read (some t) = some a ∧
      ∀ b, IsRead fs name read b ↔ read (some u) = some b := by
  obtain ⟨t, u, rest, hes, hfs, hR⟩ := h.filter_eq_self
  obtain ⟨found, hfound, hvalue⟩ := hread
  unfold field? at hfound
  rw [hes] at hfound
  cases rest with
  | nil =>
    cases hfound
    refine ⟨t, u, hR, hvalue, fun b => ?_⟩
    unfold IsRead field?
    rw [hfs]
    simp
  | cons e rest => cases hfound

theorem defaultSettings?_of_replaced {d d' : DefaultSettings}
    (h : Toml.Tree.Replaced x y ["harts"] t u) (hd : defaultSettings? f t = some d) :
    defaultSettings? f u = some d' ↔
      ∃ harts, nullable hartsSetting? y = some harts ∧ d' = { d with harts } := by
  obtain ⟨ds, fs, rfl, rfl, hentries⟩ := h
  obtain ⟨harch, hharts, hstrict⟩ := defaultSettings?_record_iff.1 hd
  obtain ⟨_, _, ⟨rfl, rfl⟩, -, hreplaced⟩ := hharts.of_replaced hentries
  rw [defaultSettings?_record_iff]
  constructor
  · rintro ⟨harch', hharts', hstrict'⟩
    refine ⟨d'.harts, (hreplaced d'.harts).1 hharts', ?_⟩
    rw [← (harch.eq_of_ne hentries (by decide)).1 harch',
      ← (hstrict.eq_of_ne hentries (by decide)).1 hstrict']
  · rintro ⟨harts, hread, rfl⟩
    exact ⟨(harch.eq_of_ne hentries (by decide)).2 rfl, (hreplaced harts).2 hread,
      (hstrict.eq_of_ne hentries (by decide)).2 rfl⟩

theorem manifest?_of_replaced (h : Toml.Tree.Replaced x y ["defaults", "harts"] t u)
    (hm : manifest? f t = some m) :
    manifest? f u = some m' ↔
      ∃ harts, nullable hartsSetting? y = some harts ∧
        m' = m.withDefaults m.defaults.arch harts := by
  obtain ⟨es, fs, rfl, rfl, hentries⟩ := h
  obtain ⟨hkernel, hdefaults, hemulator, hsweeper⟩ := manifest?_record_iff.1 hm
  obtain ⟨ds, ds', hharts, hread, hreplaced⟩ := hdefaults.of_replaced hentries
  have hdefaults' (d : DefaultSettings) :=
    (hreplaced d).trans (defaultSettings?_of_replaced hharts hread)
  rw [manifest?_record_iff]
  constructor
  · rintro ⟨hkernel', hdefaults₁, hemulator', hsweeper'⟩
    obtain ⟨harts, hy, hd⟩ := (hdefaults' m'.defaults).1 hdefaults₁
    refine ⟨harts, hy, ?_⟩
    have hk := (hkernel.eq_of_ne hentries (by decide)).1 hkernel'
    have he := (hemulator.eq_of_ne hentries (by decide)).1 hemulator'
    have hs := (hsweeper.eq_of_ne hentries (by decide)).1 hsweeper'
    cases m'
    dsimp only at hd hk he hs
    rw [hd, hk, he, hs]
    rfl
  · rintro ⟨harts, hy, rfl⟩
    exact ⟨(hkernel.eq_of_ne hentries (by decide)).2 rfl, (hdefaults' _).2 ⟨harts, hy, rfl⟩,
      (hemulator.eq_of_ne hentries (by decide)).2 rfl,
      (hsweeper.eq_of_ne hentries (by decide)).2 rfl⟩

end Schema

/-! ## The texts of a count -/

variable {n : Int}

/-- The digits of an integer are a count if the integer is one. -/
theorem Harts.spells_toString_iff {k : Nat} :
    Harts.Spells ⟨toString n⟩ k ↔ n = k ∧ 1 ≤ k ∧ k ≤ 4294967295 := by
  have htext := toList_toString n
  have hwhole := isWhole_toDigits n.natAbs
  have hvalue : Nat.ofDigitChars 10 (Nat.toDigits 10 n.natAbs) 0 = n.natAbs :=
    Nat.ofDigitChars_toDigits (by omega) (by omega)
  constructor
  · rintro ⟨sign, digits, hlist, hsign, -, hdigits, hk, hlow, hhigh⟩
    dsimp only at hlist
    rw [htext] at hlist
    -- Neither a minus nor a plus is a digit.
    by_cases hn : n < 0
    · rw [if_pos hn] at hlist
      rcases hsign with rfl | rfl
      · have hminus := hdigits '-' (by rw [List.nil_append] at hlist; simp [← hlist])
        cases hminus
      · cases hlist
    · rw [if_neg hn, List.nil_append] at hlist
      rcases hsign with rfl | rfl
      · rw [List.nil_append] at hlist
        rw [← hlist, hvalue] at hk
        exact ⟨by omega, hlow, hhigh⟩
      · have hplus := hwhole.digits '+' (by simp [hlist])
        cases hplus
  · rintro ⟨rfl, hlow, hhigh⟩
    rw [if_neg (by omega), List.nil_append] at htext
    exact ⟨[], _, htext, .inl rfl, Nat.toDigits_ne_nil, hwhole.digits, hvalue, hlow, hhigh⟩

theorem Harts.isCount_toString_iff : Harts.IsCount ⟨toString n⟩ ↔ 1 ≤ n ∧ n ≤ 4294967295 := by
  constructor
  · rintro ⟨k, hk⟩
    obtain ⟨rfl, hlow, hhigh⟩ := spells_toString_iff.1 hk
    exact ⟨by omega, by omega⟩
  · rintro ⟨hlow, hhigh⟩
    exact ⟨n.toNat, spells_toString_iff.2 ⟨by omega, by omega, by omega⟩⟩

theorem Toml.fitsInt64_iff :
    fitsInt64 n = true ↔ -9223372036854775808 ≤ n ∧ n ≤ 9223372036854775807 := by
  unfold fitsInt64
  rw [Bool.and_eq_true, decide_eq_true_iff, decide_eq_true_iff]
  rfl

/-- What an integer in a manifest is kept as. -/
def HartsSetting.ofInt (n : Int) : HartsSetting := .number (UInt64.ofNat n.toNat)

theorem HartsSetting.toText_ofInt (hn : fitsInt64 n = true) (hzero : 0 ≤ n) :
    (ofInt n).toText = toString n := by
  obtain ⟨k, rfl⟩ := Int.eq_ofNat_of_zero_le hzero
  have hlimit := (fitsInt64_iff.1 hn).2
  have hword : (UInt64.ofNat (k : Int).toNat).toNat = k := by
    rw [UInt64.toNat_ofNat', Int.toNat_natCast]
    exact Nat.mod_eq_of_lt (by omega)
  unfold ofInt toText
  dsimp only
  rw [hword]
  rfl

theorem Schema.nullable_integer (hn : fitsInt64 n = true) :
    nullable hartsSetting? (.integer n) = if 0 ≤ n then some (some (.ofInt n)) else none := by
  have hlimit := (fitsInt64_iff.1 hn).2
  have hword : nullable hartsSetting? (.integer n) =
      ((if 0 ≤ n ∧ n < UInt64.size then some (UInt64.ofNat n.toNat) else none).map
        HartsSetting.number).map some := rfl
  rw [hword]
  by_cases hzero : 0 ≤ n
  · rw [if_pos hzero, if_pos ⟨hzero, by simp only [UInt64.size]; omega⟩]
    rfl
  · rw [if_neg hzero, if_neg fun h => hzero h.1]
    rfl

/-! ## Manifests that differ in their hart count -/

namespace Manifest

variable {line line' : String}

def withHarts (m : Manifest) (harts : HartsSetting) : Manifest :=
  m.withDefaults m.defaults.arch (some harts)

theorem ofText?_eq_some_iff {text : String} : ofText? text = some m ↔
    ∃ t, read text = .ok t ∧ Schema.manifest? .toml t = some m := by
  unfold ofText?
  cases read text with
  | error fault => simp [Except.toOption]
  | ok t => simp [Except.toOption]

/-- The hart count can be anything that a hart count may be, and the rest stays as it is. -/
theorem ofText?_of_replaced (g : Gap "defaults") (hx : IsLine line (.pair ⟨⟨[], "harts"⟩, x⟩))
    (hy : IsLine line' (.pair ⟨⟨[], "harts"⟩, y⟩)) (hlength : line.length ≤ line'.length)
    (hm : ofText? (g.text line) = some m) :
    ofText? (g.text line') =
      (Schema.nullable Schema.hartsSetting? y).map (m.withDefaults m.defaults.arch) := by
  obtain ⟨t, ht, hschema⟩ := ofText?_eq_some_iff.1 hm
  obtain ⟨u, hu, hreplaced⟩ := g.read_of_replaced hx hy hlength ht
  apply Option.ext
  intro m'
  rw [ofText?_eq_some_iff, Option.map_eq_some_iff]
  constructor
  · rintro ⟨u', hu', hschema'⟩
    obtain rfl := Except.ok.inj (hu.symm.trans hu')
    obtain ⟨harts, hy, rfl⟩ := (Schema.manifest?_of_replaced hreplaced hschema).1 hschema'
    exact ⟨harts, hy, rfl⟩
  · rintro ⟨harts, hy, rfl⟩
    exact ⟨u, hu, (Schema.manifest?_of_replaced hreplaced hschema).2 ⟨harts, hy, rfl⟩⟩

theorem isLine_number (hn : fitsInt64 n = true) :
    IsLine (pairLine "harts" (toString n)) (.pair ⟨⟨[], "harts"⟩, .integer n⟩) :=
  isLine_pair (by cbv) (spells_integer hn)

theorem isLine_digits (n : Int) :
    IsLine (pairLine "harts" (inQuotes (toString n))) (.pair ⟨⟨[], "harts"⟩, .text (toString n)⟩) :=
  isLine_pair (by cbv) (spells_quoted n)

/-- A manifest that may say that there is one hart may give any count as a text, and as an integer
any from zero on. -/
theorem ofText?_spellings {g : Gap "defaults"}
    (hm : ofText? (g.text (pairLine "harts" "1")) = some m) (hn : fitsInt64 n = true) :
    ofText? (g.text (pairLine "harts" (inQuotes (toString n)))) =
        some (m.withHarts (.text (toString n))) ∧
      ofText? (g.text (pairLine "harts" (toString n))) =
        if 0 ≤ n then some (m.withHarts (.ofInt n)) else none := by
  have hone : IsLine (pairLine "harts" "1") (.pair ⟨⟨[], "harts"⟩, .integer 1⟩) :=
    isLine_number (n := 1) (by decide)
  have hnonempty : 1 ≤ (toString n).length := by
    obtain ⟨c, cs, hcs, -⟩ := head_toString n
    rw [← String.length_toList, hcs, List.length_cons]
    omega
  have hquoted : 1 ≤ (inQuotes (toString n)).length := by
    simp only [inQuotes, String.length_append]
    omega
  constructor
  · rw [ofText?_of_replaced g hone (isLine_digits n) (length_pairLine_le _ hquoted) hm]
    rfl
  · rw [ofText?_of_replaced g hone (isLine_number hn) (length_pairLine_le _ hnonempty) hm,
      Schema.nullable_integer hn]
    by_cases hzero : 0 ≤ n
    · rw [if_pos hzero, if_pos hzero]
      rfl
    · rw [if_neg hzero, if_neg hzero]
      rfl

end Manifest

end RiscvBoot
