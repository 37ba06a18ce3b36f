import RiscvBoot.Proofs.Manifest.Restored
import RiscvBoot.Proofs.Project.SettleTimeout
import RiscvBoot.Proofs.Report.Target
import RiscvBoot.Report.Configuration

/-!
# The configuration as data

Both formats show the same data (`Setup.shown_alike`). TOML cannot write integers beyond 64 bits,
but the only integer is the settle timeout, and a setup that is resolved has one within that range.
-/

set_option autoImplicit false

namespace RiscvBoot.Setup

open Json (Expressible)
open Toml (Rows Inline Writable)

variable {s : Setup} {v : FileView} {cwd : Path} {request : Request}

/-- The settings that are one value each. -/
def values (s : Setup) : List (String × Tree) :=
  s.target.entries ++
  [("policy", Tree.text s.policy.name),
    ("image", Tree.text s.image.text),
    ("kernel-dir", Tree.text s.kernelDir.text)] ++
  (match s.manifestPath with
    | some path => [("manifest", Tree.text path.text)]
    | none => []) ++
  [("machine", Tree.text machineType),
    ("serial", Tree.text serialBackend),
    ("reap-on-error", Tree.text s.sweepPolicy.name),
    ("reap-settle-timeout-ms", Tree.integer s.settleTimeout.millis)]

theorem toTree_eq (s : Setup) :
    s.toTree = .record (s.values ++ [("emulator-profile", s.tuning.toTree)]) := by
  rw [toTree, values, List.append_assoc _ _ [("emulator-profile", s.tuning.toTree)]]
  rfl

/-- The names of the settings. -/
def names (s : Setup) : List String :=
  ["arch", "harts", "build-target", "emulator", "policy", "image", "kernel-dir"] ++
  s.manifestPath.toList.map (fun _ => "manifest") ++
  ["machine", "serial", "reap-on-error", "reap-settle-timeout-ms"]

theorem names_values (s : Setup) : s.values.map Prod.fst = s.names := by
  unfold values names
  cases s.manifestPath with
  | none => rfl
  | some path => rfl

theorem names_distinct (s : Setup) : (s.names ++ ["emulator-profile"]).Nodup := by
  unfold names
  cases s.manifestPath with
  | none => decide
  | some path =>
    change (_ ++ ["manifest"] ++ _ ++ ["emulator-profile"]).Nodup
    decide

theorem names_bare (s : Setup) : ∀ name ∈ s.names, Toml.isBareKey name.toList = true := by
  unfold names
  cases s.manifestPath with
  | none => decide
  | some path =>
    change ∀ name ∈ _ ++ ["manifest"] ++ _, Toml.isBareKey name.toList = true
    decide

theorem rows_values (h : Toml.fitsInt64 s.settleTimeout.millis = true) : Rows s.values := by
  apply Toml.rows_of_names s.names s.names_values s.names_bare
  · exact (List.nodup_append.1 s.names_distinct).1
  · unfold values
    cases s.manifestPath with
    | none => simp [Target.entries, Inline.text, Inline.integer h]
    | some path => simp [Target.entries, Inline.text, Inline.integer h]

theorem rows_tuning (m : Tuning) : ∃ es, m.toTree = .record es ∧ Rows es := by
  have htext (s : Option String) : Tree.ofText? s = .null ∨ Inline (.ofText? s) := by
    cases s with
    | none => exact .inl rfl
    | some s => exact .inr (.text s)
  refine ⟨_, rfl, Toml.rows_of_names ["memory", "bios", "extra-args"] rfl ?_ ?_ ?_⟩
  · decide
  · decide
  · simp [htext, Inline.texts]

theorem writable (h : Toml.fitsInt64 s.settleTimeout.millis = true) :
    Writable s.values [("emulator-profile", s.tuning.toTree)] where
  rows := rows_values h
  each := by
    intro e he
    rw [List.mem_singleton.1 he]
    have hbare : Toml.isBareKey "emulator-profile".toList = true := by decide
    exact ⟨hbare, rows_tuning s.tuning⟩
  distinct := by
    rw [List.map_append, s.names_values]
    exact s.names_distinct

theorem expressible_toTree (s : Setup) : Expressible s.toTree := by
  rw [toTree_eq]
  apply Expressible.record
  unfold values
  cases s.manifestPath with
  | none =>
    simp [Target.entries, Expressible.text, Expressible.integer, s.tuning.expressible_toTree]
  | some path =>
    simp [Target.entries, Expressible.text, Expressible.integer, s.tuning.expressible_toTree]

theorem manifestPath_of_resolve (h : resolve v cwd request = .ok s) :
    ∃ found, Manifest.find v cwd = .ok found ∧
      s.manifestPath = found.map fun entry => entry.2.join Manifest.fileName := by
  obtain ⟨p, target, binary, hp, -, -, rfl⟩ := resolve_eq_ok_iff.1 h
  obtain ⟨found, hfound, rfl⟩ := map_eq_ok_iff.1 hp
  refine ⟨found, hfound, ?_⟩
  match found with
  | none => rfl
  | some (m, dir) => rfl

/-- A setup that is resolved is shown in both formats, and what they say is the same data, apart
from the nulls that JSON writes. Every setting is there once, with the value of the setup. -/
theorem shown_alike (h : resolve v cwd request = .ok s) : ∃ json toml entries,
    s.render (some "json") = .ok json ∧ Json.read? json = some (.record entries) ∧
    s.render (some "toml") = .ok toml ∧ Toml.read toml = .ok (Tree.record entries).withoutNulls ∧
    entries =
      [("arch", Tree.text s.target.arch.name),
        ("harts", Tree.text s.target.harts.text),
        ("build-target", Tree.text s.target.buildTarget),
        ("emulator", Tree.text s.target.emulator),
        ("policy", Tree.text s.policy.name),
        ("image", Tree.text s.image.text),
        ("kernel-dir", Tree.text s.kernelDir.text)] ++
      s.manifestPath.toList.map (fun path => ("manifest", Tree.text path.text)) ++
      [("machine", Tree.text machineType),
        ("serial", Tree.text serialBackend),
        ("reap-on-error", Tree.text s.sweepPolicy.name),
        ("reap-settle-timeout-ms", Tree.integer s.settleTimeout.millis),
        ("emulator-profile", Tree.record [
          ("memory", Tree.ofText? s.tuning.memory),
          ("bios", Tree.ofText? s.tuning.bios),
          ("extra-args", Tree.ofTexts s.tuning.extraArgs)])] ∧
    (entries.map Prod.fst).Nodup ∧
    s.settleTimeout = .ofMillis s.settleTimeout.millis ∧
    ∃ found, Manifest.find v cwd = .ok found ∧
      s.manifestPath = found.map fun entry => entry.2.join Manifest.fileName := by
  obtain ⟨hexact, hfits⟩ := fits_settleTimeout h
  obtain ⟨toml, hwrite, hread⟩ := (writable hfits).read_write
  rw [← toTree_eq] at hwrite
  have htoml : s.render (some "toml") = .ok toml := by
    have hrender : s.render (some "toml") =
        (Toml.write? s.toTree).elim (.error .outOfRange) .ok := rfl
    rw [hrender, hwrite]
    rfl
  have hjson := (Json.read?_pretty s.expressible_toTree).2
  rw [toTree_eq] at hjson
  refine ⟨_, toml, _, rfl, ?_, htoml, hread, ?_, ?_, hexact, manifestPath_of_resolve h⟩
  · rw [toTree_eq]
    exact hjson
  · unfold values
    cases s.manifestPath with
    | none => rfl
    | some path => rfl
  · rw [List.map_append, s.names_values]
    exact s.names_distinct

/-- A hart count that is no number, with a quote of either kind and a line break. -/
def oddRequest : Request := { choice := ⟨none, some "\"'\n"⟩ }

theorem resolve_oddRequest : resolve sampleView ⟨"/w"⟩ oddRequest =
    .ok (assemble ⟨"/w"⟩ ⟨sampleManifest, some ⟨"/w/hartctl.toml"⟩, ⟨"/w"⟩⟩ oddRequest
      ⟨.rv64, ⟨"\"'\n"⟩⟩ "k") :=
  resolve_of_manifest entry_sampleView ofText?_sampleManifest rfl rfl

theorem shown_alike_odd : ∃ s json toml entries, resolve sampleView ⟨"/w"⟩ oddRequest = .ok s ∧
    s.render (some "json") = .ok json ∧ Json.read? json = some (.record entries) ∧
    s.render (some "toml") = .ok toml ∧ Toml.read toml = .ok (Tree.record entries).withoutNulls ∧
    entries.lookup "harts" = some (.text "\"'\n") ∧
    entries.lookup "manifest" = some (.text "/w/hartctl.toml") ∧
    entries.lookup "reap-settle-timeout-ms" = some (.integer 2000) := by
  obtain ⟨json, toml, entries, hjson, hreadJson, htoml, hreadToml, rfl, -, -, -⟩ :=
    shown_alike resolve_oddRequest
  exact ⟨_, json, toml, _, resolve_oddRequest, hjson, hreadJson, htoml, hreadToml, rfl, rfl, rfl⟩

end RiscvBoot.Setup
