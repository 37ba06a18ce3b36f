import RiscvBoot.Proofs.Choice.HartCount

/-!
# The strict policy and the lenient one

The strict policy accepts a choice iff the lenient one has no doubts about it, and then both make
the same of it (`Choice.strict_agrees`). Whatever a choice resolves to is what the lenient policy
makes of it (`Choice.eq_lenientTarget`), so no command has to ask which policy was in force.
-/

set_option autoImplicit false

namespace RiscvBoot

/-! ## Families -/

namespace Isa

variable {s : String}

theorem isSome_ofName?_iff : (ofName? s).isSome ↔ s = "rv32" ∨ s = "rv64" := by
  unfold ofName?
  rw [List.find?_isSome]
  constructor
  · rintro ⟨a, -, ha⟩
    obtain rfl := of_decide_eq_true ha
    cases a with
    | rv32 => exact .inl rfl
    | rv64 => exact .inr rfl
  · rintro (rfl | rfl)
    · exact ⟨.rv32, by decide, by decide⟩
    · exact ⟨.rv64, by decide, by decide⟩

theorem parse_of_known (hs : s = "rv32" ∨ s = "rv64") : parse s = .ok (lenient (some s)) := by
  rcases hs with rfl | rfl
  · rfl
  · rfl

theorem parse_of_unknown (hs : ¬(s = "rv32" ∨ s = "rv64")) : parse s = .error (.unknownArch s) := by
  have hnone : ofName? s = none := by
    rw [← Option.isNone_iff_eq_none, ← Option.isSome_eq_false_iff, Bool.eq_false_iff]
    exact fun hsome => hs (isSome_ofName?_iff.1 hsome)
  unfold parse
  rw [hnone]

theorem lenient_eq_ite (selector : Option String) :
    lenient selector = if selector = some "rv32" then .rv32 else .rv64 := rfl

/-- No selector selects the same family as the name of the fallback. -/
theorem lenient_getD (selector : Option String) :
    lenient (some (selector.getD "rv64")) = lenient selector := by
  cases selector with
  | none => rfl
  | some s => rfl

end Isa

namespace Choice

variable {c : Choice} {t : Target}

/-- The selector, if one is given, is the name of a family. -/
def NamesIsa (c : Choice) : Prop := ∀ s ∈ c.arch, s = "rv32" ∨ s = "rv64"

instance (c : Choice) : Decidable c.NamesIsa :=
  inferInstanceAs (Decidable (∀ s ∈ c.arch, s = "rv32" ∨ s = "rv64"))

theorem not_namesIsa_iff : ¬c.NamesIsa ↔ ∃ s, c.arch = some s ∧ ¬(s = "rv32" ∨ s = "rv64") := by
  unfold NamesIsa
  cases c.arch with
  | none => simp
  | some s => simp

theorem strict_arch_of_namesIsa (hnames : c.NamesIsa) :
    Isa.strict c.arch = .ok (.lenient c.arch) := by
  unfold NamesIsa at hnames
  cases harch : c.arch with
  | none => rfl
  | some s => exact Isa.parse_of_known (hnames s harch)

theorem text_hartCount (c : Choice) : c.hartCount.text = c.harts.getD "4" := by
  unfold hartCount Harts.orFallback
  cases c.harts with
  | none => rfl
  | some text => rfl

/-! ## Strict resolving, by what is wrong -/

theorem resolve_strict_of_unknown {s : String} (hs : c.arch = some s)
    (hunknown : ¬(s = "rv32" ∨ s = "rv64")) :
    c.resolve .strict = .error (.unknownArch s) := by
  have hstrict : Isa.strict c.arch = .error (.unknownArch s) := by
    rw [hs]
    exact Isa.parse_of_unknown hunknown
  unfold resolve
  dsimp only
  rw [hstrict]
  rfl

theorem resolve_strict_of_malformed (hnames : c.NamesIsa) (hharts : ¬c.hartCount.IsCount) :
    c.resolve .strict = .error (.invalidHartCount c.hartCount.text) := by
  have hparse : c.hartCount.parse = .error (.invalidHartCount c.hartCount.text) := by
    unfold Harts.parse
    rw [Harts.number?_eq_none_iff.2 hharts]
  unfold resolve
  dsimp only
  rw [strict_arch_of_namesIsa hnames, hparse]
  rfl

theorem resolve_strict_of_sound (hnames : c.NamesIsa) (hharts : c.hartCount.IsCount) :
    c.resolve .strict = .ok c.lenientTarget := by
  obtain ⟨n, hn⟩ := hharts
  have hparse : c.hartCount.parse = .ok n := by
    unfold Harts.parse
    rw [Harts.number?_eq_some_iff.2 hn]
  unfold resolve
  dsimp only
  rw [strict_arch_of_namesIsa hnames, hparse]
  rfl

theorem resolve_strict_eq_ok_iff :
    c.resolve .strict = .ok t ↔ c.NamesIsa ∧ c.hartCount.IsCount ∧ t = c.lenientTarget := by
  by_cases hnames : c.NamesIsa
  · by_cases hharts : c.hartCount.IsCount
    · rw [resolve_strict_of_sound hnames hharts]
      simp [hnames, hharts, eq_comm]
    · rw [resolve_strict_of_malformed hnames hharts]
      simp [hharts]
  · obtain ⟨s, hs, hunknown⟩ := not_namesIsa_iff.1 hnames
    rw [resolve_strict_of_unknown hs hunknown]
    simp [hnames]

theorem eq_lenientTarget {policy : Strictness} (h : c.resolve policy = .ok t) :
    t = c.lenientTarget := by
  cases policy with
  | lenient => exact (Except.ok.inj h).symm
  | strict => exact (resolve_strict_eq_ok_iff.1 h).2.2

/-! ## Doubts -/

theorem doubts_lenient (c : Choice) :
    c.doubts .lenient =
      (if c.NamesIsa then [] else c.arch.toList.map .unknownArch) ++
        (if c.hartCount.IsCount then [] else [.malformedHarts c.hartCount.text]) := by
  have hharts : c.hartCount.isNumber = true ↔ c.hartCount.IsCount := Harts.isNumber_iff
  unfold doubts
  simp only [hharts]
  congr 1
  by_cases hnames : c.NamesIsa
  · rw [if_pos hnames]
    cases harch : c.arch with
    | none => rfl
    | some s => exact if_pos (Isa.isSome_ofName?_iff.2 (hnames s harch))
  · obtain ⟨s, hs, hunknown⟩ := not_namesIsa_iff.1 hnames
    rw [if_neg hnames, hs]
    exact if_neg fun hsome => hunknown (Isa.isSome_ofName?_iff.1 hsome)

theorem doubts_lenient_eq_nil_iff : c.doubts .lenient = [] ↔ c.NamesIsa ∧ c.hartCount.IsCount := by
  rw [doubts_lenient, List.append_eq_nil_iff]
  refine and_congr ?_ ?_
  · by_cases hnames : c.NamesIsa
    · simp [hnames]
    · obtain ⟨s, hs, -⟩ := not_namesIsa_iff.1 hnames
      simp [hnames, hs]
  · simp

/-- What a choice resolves to and what is reported about it, under both policies. Of two faults the
strict policy reports the family. -/
theorem strict_agrees (c : Choice) :
    let harts : Harts := ⟨c.harts.getD "4"⟩
    let target : Target := ⟨if c.arch = some "rv32" then .rv32 else .rv64, harts⟩
    c.resolve .lenient = .ok target ∧
    c.doubts .lenient =
      (if c.NamesIsa then [] else c.arch.toList.map .unknownArch) ++
        (if harts.IsCount then [] else [.malformedHarts harts.text]) ∧
    c.doubts .strict = [] ∧
    ((∃ t, c.resolve .strict = .ok t) ↔ c.doubts .lenient = []) ∧
    (∀ t, c.resolve .strict = .ok t → t = target) ∧
    (∀ s, c.arch = some s → ¬(s = "rv32" ∨ s = "rv64") →
      c.resolve .strict = .error (.unknownArch s)) ∧
    (c.NamesIsa → ¬harts.IsCount → c.resolve .strict = .error (.invalidHartCount harts.text)) ∧
    ∀ policy t, c.resolve policy = .ok t →
      (t.buildTarget, t.emulator) =
        if c.arch = some "rv32" then ("riscv32imac-unknown-none-elf", "qemu-system-riscv32")
        else ("riscv64gc-unknown-none-elf", "qemu-system-riscv64") := by
  intro harts target
  have hharts : c.hartCount = harts := congrArg Harts.mk c.text_hartCount
  have htarget : c.lenientTarget = target := by
    rw [lenientTarget, hharts, Isa.lenient_eq_ite]
  refine ⟨?_, ?_, rfl, ?_, ?_, ?_, ?_, ?_⟩
  · rw [← htarget]
    rfl
  · rw [← hharts]
    exact c.doubts_lenient
  · simp only [resolve_strict_eq_ok_iff, doubts_lenient_eq_nil_iff, exists_and_left, exists_eq,
      and_true]
  · intro t ht
    rw [← htarget]
    exact eq_lenientTarget ht
  · intro s hs hunknown
    exact resolve_strict_of_unknown hs hunknown
  · intro hnames hmalformed
    rw [← hharts] at hmalformed ⊢
    exact resolve_strict_of_malformed hnames hmalformed
  · intro policy t ht
    rw [eq_lenientTarget ht, htarget]
    by_cases h32 : c.arch = some "rv32"
    · simp [target, h32, Target.buildTarget, Target.emulator, Isa.buildTarget, Isa.emulator]
    · simp [target, h32, Target.buildTarget, Target.emulator, Isa.buildTarget, Isa.emulator]

/-- Of two faults the family is reported; a padded count is a fault, and a signed one is not. -/
theorem strict_agrees_sample :
    resolve .strict ⟨some "RV32", some "0"⟩ = .error (.unknownArch "RV32") ∧
      resolve .strict ⟨some "rv32", some " 2"⟩ = .error (.invalidHartCount " 2") ∧
      resolve .strict ⟨some "rv32", some "+2"⟩ = .ok ⟨.rv32, ⟨"+2"⟩⟩ := by
  obtain ⟨-, -, -, -, -, hunknown, -, -⟩ := strict_agrees ⟨some "RV32", some "0"⟩
  obtain ⟨-, -, -, -, -, -, hmalformed, -⟩ := strict_agrees ⟨some "rv32", some " 2"⟩
  obtain ⟨-, -, -, hiff, htarget, -, -, -⟩ := strict_agrees ⟨some "rv32", some "+2"⟩
  refine ⟨hunknown "RV32" rfl (by decide), hmalformed (by decide) (by decide), ?_⟩
  obtain ⟨t, ht⟩ := hiff.2 (by decide)
  rw [ht, htarget t ht]
  rfl

end Choice

end RiscvBoot
