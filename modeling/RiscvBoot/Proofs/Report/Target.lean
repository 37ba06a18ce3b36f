import RiscvBoot.Manifest.Schema
import RiscvBoot.Proofs.Json.RoundTrip
import RiscvBoot.Proofs.Toml.Written

/-!
# Targets as texts

A target has a text in either format, and each of the texts tells what the target is, whatever
characters its hart count is made of.
-/

set_option autoImplicit false

namespace RiscvBoot.Target

variable {t u : Target}

theorem expressible_toTree (t : Target) : Json.Expressible t.toTree := by
  apply Json.Expressible.record
  simp [entries, Json.Expressible.text]

theorem writable_entries (t : Target) : Toml.Writable t.entries [] where
  rows := by
    apply Toml.rows_of_names ["arch", "harts", "build-target", "emulator"] rfl
    · decide
    · decide
    · simp [entries, Toml.Inline.text]
  each := by simp
  distinct := by
    change ["arch", "harts", "build-target", "emulator"].Nodup
    decide

theorem toTree_injective : Function.Injective toTree := by
  rintro ⟨arch, ⟨harts⟩⟩ ⟨arch', ⟨harts'⟩⟩ h
  obtain ⟨harch, hharts, -⟩ : arch.name = arch'.name ∧ harts = harts' ∧ _ := by
    simpa [toTree, entries] using h
  have hisa : some arch = some arch' := by
    rw [← Isa.ofName?_name arch, harch, Isa.ofName?_name]
  rw [Option.some.inj hisa, hharts]

/-- A target is written in both formats and read back as the same four texts, so neither text
belongs to another target. -/
theorem read_texts :
    (∀ t : Target,
      let data := Tree.record [("arch", .text t.arch.name), ("harts", .text t.harts.text),
        ("build-target", .text t.arch.buildTarget), ("emulator", .text t.arch.emulator)]
      Json.read? (Json.compact t.toTree) = some data ∧
        ∃ text, Toml.write? t.toTree = some text ∧ Toml.read text = .ok data) ∧
    Function.Injective (fun t : Target => Json.compact t.toTree) ∧
    Function.Injective (fun t : Target => Toml.write? t.toTree) := by
  have hjson (t : Target) : Json.read? (Json.compact t.toTree) = some t.toTree :=
    Json.read?_compact t.expressible_toTree
  have htoml (t : Target) :
      ∃ text, Toml.write? t.toTree = some text ∧ Toml.read text = .ok t.toTree := by
    have hwrite := t.writable_entries.read_write
    rwa [List.append_nil] at hwrite
  refine ⟨fun t => ⟨hjson t, htoml t⟩, ?_, ?_⟩
  · intro t u h
    apply toTree_injective
    have hread := congrArg Json.read? h
    dsimp only at hread
    rw [hjson, hjson] at hread
    exact Option.some.inj hread
  · intro t u h
    dsimp only at h
    apply toTree_injective
    obtain ⟨text, hwrite, hread⟩ := htoml t
    obtain ⟨text', hwrite', hread'⟩ := htoml u
    have hsame : text = text' := Option.some.inj (hwrite.symm.trans (h.trans hwrite'))
    rw [hsame, hread'] at hread
    exact (Except.ok.inj hread).symm

end RiscvBoot.Target
