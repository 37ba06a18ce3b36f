import RiscvBoot.Proofs.Json.RoundTrip
import RiscvBoot.Proofs.Manifest.HartsSetting

/-!
# Settings written and read

The settings of a manifest are read back from the data that they are written to, whatever the
format (`Schema.manifest?_toTree`). JSON has a spelling for all of them, so nothing is lost in a
JSON text either.
-/

set_option autoImplicit false

namespace RiscvBoot

open Json (Expressible)

variable {f : Format} {es : List (String × Tree)}

/-! ## Data read back -/

namespace Schema

theorem filter_eq_nil_of_not_mem {name : String} (h : name ∉ es.map Prod.fst) :
    es.filter (·.1 = name) = [] := by
  rw [List.filter_eq_nil_iff]
  intro e he heq
  exact h (decide_eq_true_iff.1 heq ▸ List.mem_map_of_mem he)

theorem field?_of_mem (hnames : (es.map Prod.fst).Nodup) {e : String × Tree} (he : e ∈ es) :
    field? es e.1 = some (some e.2) := by
  have hfilter : es.filter (·.1 = e.1) = [e] := by
    induction es with
    | nil => exact absurd he List.not_mem_nil
    | cons first es ih =>
      rw [List.map_cons, List.nodup_cons] at hnames
      obtain ⟨hfirst, hnames⟩ := hnames
      rcases List.mem_cons.1 he with rfl | he
      · have hself : decide (e.1 = e.1) = true := decide_eq_true rfl
        rw [List.filter_cons, if_pos hself, filter_eq_nil_of_not_mem hfirst]
      · have hne : first.1 ≠ e.1 := fun heq => hfirst (heq ▸ List.mem_map_of_mem he)
        rw [List.filter_cons_of_neg (by rw [decide_eq_true_iff]; exact hne), ih hnames he]
  unfold field?
  rw [hfilter]

/-- A record with every field of a section once gives them in their order. -/
theorem fields?_of_names {names : List String} (hnodup : names.Nodup)
    (hnames : es.map Prod.fst = names) :
    fields? f names (.record es) = some (es.map (some ·.2)) := by
  subst hnames
  have hmap : ∀ es' ⊆ es, (es'.map Prod.fst).mapM (field? es) = some (es'.map (some ·.2)) := by
    intro es' hsub
    induction es' with
    | nil => rfl
    | cons e es' ih =>
      rw [List.cons_subset] at hsub
      rw [List.map_cons, List.mapM_cons, field?_of_mem hnodup hsub.1, ih hsub.2]
      rfl
  exact hmap es (List.Subset.refl es)

theorem nullable_text?_ofText? (s : Option String) : nullable Tree.text? (.ofText? s) = some s := by
  cases s <;> rfl

theorem nullable_path?_ofText? (p : Option Path) :
    nullable path? (.ofText? (p.map Path.text)) = some p := by
  cases p <;> rfl

theorem texts?_ofTexts (items : List String) : texts? (.ofTexts items) = some items := by
  change (items.map Tree.text).mapM Tree.text? = some items
  induction items with
  | nil => rfl
  | cons s items ih =>
    rw [List.map_cons, List.mapM_cons, ih]
    rfl

theorem word?_integer (n : UInt64) : word? (.integer n.toNat) = some n := by
  have hrange : (0 : Int) ≤ n.toNat ∧ (n.toNat : Int) < UInt64.size :=
    ⟨Int.natCast_nonneg _, Int.ofNat_lt.2 n.toNat_lt⟩
  simp only [word?, if_pos hrange, Int.toNat_natCast, UInt64.ofNat_toNat]

theorem nullable_word? (n : Option UInt64) :
    nullable word? ((n.map fun n => Tree.integer n.toNat).getD .null) = some n := by
  cases n with
  | none => rfl
  | some n =>
    have hread : nullable word? (.integer n.toNat) = (word? (.integer n.toNat)).map some := rfl
    rw [Option.map_some, Option.getD_some, hread, word?_integer, Option.map_some]

theorem hartsSetting?_toTree (h : HartsSetting) : hartsSetting? h.toTree = some h := by
  cases h with
  | text s => rfl
  | number n =>
    have hread : hartsSetting? (.integer n.toNat) = (word? (.integer n.toNat)).map .number := rfl
    rw [HartsSetting.toTree, hread, word?_integer, Option.map_some]

theorem nullable_hartsSetting? (h : Option HartsSetting) :
    nullable hartsSetting? ((h.map HartsSetting.toTree).getD .null) = some h := by
  cases h with
  | none => rfl
  | some h =>
    have hread : nullable hartsSetting? h.toTree = (hartsSetting? h.toTree).map some := by
      cases h <;> rfl
    rw [Option.map_some, Option.getD_some, hread, hartsSetting?_toTree, Option.map_some]

theorem sweepPolicy?_text (p : SweepPolicy) : sweepPolicy? f (.text p.name) = some p := by
  cases p <;> rfl

theorem layout?_toTree (l : Layout) : layout? f l.toTree = some l := by
  have hfields : fields? f ["target-dir", "binary"] l.toTree = some [_, _] :=
    fields?_of_names (by decide) rfl
  unfold layout?
  rw [hfields]
  rfl

theorem tuning?_toTree (m : Tuning) : tuning? f m.toTree = some m := by
  have hfields : fields? f ["memory", "bios", "extra-args"] m.toTree = some [_, _, _] :=
    fields?_of_names (by decide) rfl
  unfold tuning?
  rw [hfields]
  simp [optional, nullable_text?_ofText?, texts?_ofTexts]

theorem kernelSettings?_toTree (k : KernelSettings) : kernelSettings? f k.toTree = some k := by
  have hfields : fields? f ["binary", "package", "dir", "target-dir", "build-args"] k.toTree =
      some [_, _, _, _, _] := fields?_of_names (by decide) rfl
  unfold kernelSettings?
  rw [hfields]
  simp [optional, nullable_text?_ofText?, nullable_path?_ofText?, texts?_ofTexts]

theorem defaultSettings?_toTree (d : DefaultSettings) : defaultSettings? f d.toTree = some d := by
  have hfields : fields? f ["arch", "harts", "strict"] d.toTree = some [_, _, _] :=
    fields?_of_names (by decide) rfl
  unfold defaultSettings?
  rw [hfields]
  simp [optional, nullable_text?_ofText?, nullable_hartsSetting?, boolean?]

theorem sweepSettings?_toTree (r : SweepSettings) : sweepSettings? f r.toTree = some r := by
  have hfields : fields? f ["on-error", "settle-timeout-ms"] r.toTree = some [_, _] :=
    fields?_of_names (by decide) rfl
  unfold sweepSettings?
  rw [hfields]
  simp [optional, sweepPolicy?_text, nullable_word?]

theorem manifest?_toTree (m : Manifest) : manifest? f m.toTree = some m := by
  have hfields : fields? f ["kernel", "defaults", "emulator", "reaper"] m.toTree =
      some [_, _, _, _] := fields?_of_names (by decide) rfl
  unfold manifest?
  rw [hfields]
  simp [optional, kernelSettings?_toTree, defaultSettings?_toTree, tuning?_toTree,
    sweepSettings?_toTree]

end Schema

/-! ## Spelled in JSON -/

theorem Tree.expressible_ofText? (s : Option String) : Expressible (.ofText? s) := by
  cases s with
  | none => exact .null
  | some s => exact .text s

theorem Tree.expressible_ofTexts (items : List String) : Expressible (.ofTexts items) := by
  apply Expressible.list
  simp [Expressible.text]

theorem HartsSetting.expressible_toTree (h : HartsSetting) : Expressible h.toTree := by
  cases h with
  | number n => exact .integer n.toNat
  | text s => exact .text s

theorem Layout.expressible_toTree (l : Layout) : Expressible l.toTree := by
  apply Expressible.record
  simp [Expressible.text]

theorem Tuning.expressible_toTree (m : Tuning) : Expressible m.toTree := by
  apply Expressible.record
  simp [Tree.expressible_ofText?, Tree.expressible_ofTexts]

theorem KernelSettings.expressible_toTree (k : KernelSettings) : Expressible k.toTree := by
  apply Expressible.record
  simp [Tree.expressible_ofText?, Tree.expressible_ofTexts]

theorem DefaultSettings.expressible_toTree (d : DefaultSettings) : Expressible d.toTree := by
  have hharts : Expressible ((d.harts.map HartsSetting.toTree).getD .null) := by
    cases d.harts with
    | none => exact .null
    | some h => exact h.expressible_toTree
  apply Expressible.record
  simp [Tree.expressible_ofText?, Expressible.boolean, hharts]

theorem SweepSettings.expressible_toTree (r : SweepSettings) : Expressible r.toTree := by
  have htimeout : Expressible
      ((r.settleTimeoutMs.map fun n => Tree.integer n.toNat).getD .null) := by
    cases r.settleTimeoutMs with
    | none => exact .null
    | some n => exact .integer n.toNat
  apply Expressible.record
  simp [Expressible.text, htimeout]

theorem Manifest.expressible_toTree (m : Manifest) : Expressible m.toTree := by
  apply Expressible.record
  simp [m.kernel.expressible_toTree, m.defaults.expressible_toTree,
    m.emulator.expressible_toTree, m.sweeper.expressible_toTree]

/-! ## JSON texts -/

namespace Schema

variable {α : Type}

/-- What a JSON text says to a reader of settings. -/
def ofJson? (read : Tree → Option α) (text : String) : Option α := (Json.read? text).bind read

/-- JSON texts keep every value. -/
structure Restored (write : α → Tree) (read : Tree → Option α) : Prop where
  compact (a : α) : ofJson? read (Json.compact (write a)) = some a
  pretty (a : α) : ofJson? read (Json.pretty (write a)) = some a
  /-- However a value was spelled, writing and reading it again does not change it. -/
  again {text : String} {a : α} (h : ofJson? read text = some a) :
    ofJson? read (Json.compact (write a)) = ofJson? read text
  /-- Different values have different texts. -/
  apart {a b : α} (h : Json.compact (write a) = Json.compact (write b)) : a = b

theorem restored_of {write : α → Tree} {read : Tree → Option α}
    (hspelled : ∀ a, Expressible (write a)) (hread : ∀ a, read (write a) = some a) :
    Restored write read := by
  have hcompact (a : α) : ofJson? read (Json.compact (write a)) = some a := by
    unfold ofJson?
    rw [Json.read?_compact (hspelled a), Option.bind_some, hread]
  refine ⟨hcompact, ?_, ?_, ?_⟩
  · intro a
    unfold ofJson?
    rw [(Json.read?_pretty (hspelled a)).1, Option.bind_some, hread]
  · intro text a h
    rw [hcompact, h]
  · intro a b h
    apply Option.some.inj
    rw [← hcompact a, ← hcompact b, h]

end Schema

/-- Manifests, tunings, layouts and hart counts survive JSON. A hart count stays the number or the
text that it is, alone and in a manifest. -/
theorem Manifest.restored_from_json :
    Schema.Restored Manifest.toTree (Schema.manifest? .json) ∧
    Schema.Restored Tuning.toTree (Schema.tuning? .json) ∧
    Schema.Restored Layout.toTree (Schema.layout? .json) ∧
    Schema.Restored HartsSetting.toTree Schema.hartsSetting? ∧
    ∀ (m : Manifest) (n : UInt64) (s : String),
      Json.compact (HartsSetting.number n).toTree ≠ Json.compact (HartsSetting.text s).toTree ∧
      Json.compact (m.withHarts (.number n)).toTree ≠
        Json.compact (m.withHarts (.text s)).toTree := by
  have hmanifest : Schema.Restored Manifest.toTree (Schema.manifest? .json) :=
    Schema.restored_of Manifest.expressible_toTree Schema.manifest?_toTree
  have hharts : Schema.Restored HartsSetting.toTree Schema.hartsSetting? :=
    Schema.restored_of HartsSetting.expressible_toTree Schema.hartsSetting?_toTree
  refine ⟨hmanifest, ?_, ?_, hharts, ?_⟩
  · exact Schema.restored_of Tuning.expressible_toTree Schema.tuning?_toTree
  · exact Schema.restored_of Layout.expressible_toTree Schema.layout?_toTree
  · intro m n s
    constructor
    · intro h
      cases hharts.apart h
    · intro h
      have hequal := congrArg (·.defaults.harts) (hmanifest.apart h)
      cases hequal

end RiscvBoot
