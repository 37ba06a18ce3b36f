import RiscvBoot.Proofs.Project.Frame
import RiscvBoot.Proofs.Toml.Integers

/-!
# The template

What a new project starts from, read as a manifest. It spells out what holds without a manifest, so
nothing that is resolved can tell the two apart (`Manifest.interchangeable_ofTemplate`).
-/

set_option autoImplicit false

namespace RiscvBoot.Manifest

open Toml

/-- The settings of the template. -/
def ofTemplate : Manifest where
  kernel := { dir := some ⟨"."⟩, targetDir := some ⟨"target"⟩ }
  defaults := { arch := some "rv64", harts := some (.number 4) }
  sweeper := { settleTimeoutMs := some 2000 }

def templateData : Tree :=
  .record [
    ("kernel", .record [("dir", .text "."), ("target-dir", .text "target")]),
    ("defaults",
      .record [("arch", .text "rv64"), ("harts", .integer 4), ("strict", .boolean false)]),
    ("emulator", .record [("extra-args", .list [])]),
    ("reaper", .record [("on-error", .text "continue"), ("settle-timeout-ms", .integer 2000)])]

def templateLines : List String :=
  [headerLine "kernel",
    commentLine " binary = \"kernel\"        # defaults to the [package] name in Cargo.toml",
    commentLine " package = \"kernel\"",
    pairLine "dir" (inQuotes "."),
    pairLine "target-dir" (inQuotes "target"),
    "\n",
    headerLine "defaults",
    pairLine "arch" (inQuotes "rv64"),
    pairLine "harts" (toString (4 : Int)),
    pairLine "strict" (toString false),
    "\n",
    headerLine "emulator",
    commentLine " memory = \"128M\"",
    commentLine " bios = \"default\"",
    pairLine "extra-args" "[]",
    "\n",
    headerLine "reaper",
    pairLine "on-error" (inQuotes "continue"),
    pairLine "settle-timeout-ms" (toString (2000 : Int))]

theorem template_eq_join : template = String.join templateLines := by
  -- Comments are too long to be compared character by character.
  have hbinary : "# binary = \"kernel\"        # defaults to the [package] name in Cargo.toml\n" =
      commentLine " binary = \"kernel\"        # defaults to the [package] name in Cargo.toml" := by
    simp [commentLine]
  unfold template
  rw [hbinary]
  rfl

theorem drafts_template : ∃ d, Drafts {} templateLines d ∧ d.toTree = templateData := by
  refine ⟨?d, ?hdrafts, ?hdata⟩
  case hdrafts =>
    refine .cons (isLine_header (by cbv)) rfl ?_
    refine .cons (isLine_comment (by cbv)) rfl ?_
    refine .cons (isLine_comment (by cbv)) rfl ?_
    refine .cons (isLine_pair (by cbv) (spells_text (by cbv))) rfl ?_
    refine .cons (isLine_pair (by cbv) (spells_text (by cbv))) rfl ?_
    refine .cons isLine_nothing rfl ?_
    refine .cons (isLine_header (by cbv)) rfl ?_
    refine .cons (isLine_pair (by cbv) (spells_text (by cbv))) rfl ?_
    refine .cons (isLine_pair (by cbv) (spells_integer (by decide))) rfl ?_
    refine .cons (isLine_pair (by cbv) (spells_boolean false)) rfl ?_
    refine .cons isLine_nothing rfl ?_
    refine .cons (isLine_header (by cbv)) rfl ?_
    refine .cons (isLine_comment (by cbv)) rfl ?_
    refine .cons (isLine_comment (by cbv)) rfl ?_
    refine .cons (isLine_pair (by cbv) spells_empty) rfl ?_
    refine .cons isLine_nothing rfl ?_
    refine .cons (isLine_header (by cbv)) rfl ?_
    refine .cons (isLine_pair (by cbv) (spells_text (by cbv))) rfl ?_
    refine .cons (isLine_pair (by cbv) (spells_integer (by decide))) rfl ?_
    exact .nil _
  case hdata => rfl

theorem read_template : read template = .ok templateData := by
  obtain ⟨d, hdrafts, hdata⟩ := drafts_template
  rw [template_eq_join, read_of_drafts hdrafts, hdata]

theorem ofText?_template : ofText? template = some ofTemplate := by
  unfold ofText?
  rw [read_template]
  rfl

/-! ## What it leaves as it is -/

/-- A choice falls back on what the template says. -/
theorem resolve_ofTemplate (given : Choice) (policy : Strictness) :
    (ofTemplate.choiceFor given).resolve policy = (({} : Manifest).choiceFor given).resolve policy ∧
      (ofTemplate.choiceFor given).doubts policy =
        (({} : Manifest).choiceFor given).doubts policy := by
  obtain ⟨arch, harts⟩ := given
  cases arch with
  | none => cases harts <;> cases policy <;> exact ⟨rfl, rfl⟩
  | some a => cases harts <;> cases policy <;> exact ⟨rfl, rfl⟩

theorem interchangeable_ofTemplate : Interchangeable {} ofTemplate where
  kernelDir := by
    have hsame : (Path.mk ".").sameAs ⟨"."⟩ = true := by cbv
    funext dir
    change (if (Path.mk ".").sameAs ⟨"."⟩ then dir else dir.join ⟨"."⟩) = dir
    rw [if_pos hsame]
  targetDir := rfl
  binary := rfl
  package := rfl
  buildArgs := rfl
  emulator := rfl
  onError := rfl
  settleTimeout := rfl
  policy := rfl
  resolve given policy := (resolve_ofTemplate given policy).1
  doubts given policy := (resolve_ofTemplate given policy).2

end RiscvBoot.Manifest
