import RiscvBoot.Tree
import RiscvBoot.Kernel.Layout
import RiscvBoot.Manifest.Basic

/-!
# Settings as plain data

How the settings are read from a tree and written to one. A section is a record whose unknown
names are passed over and whose known names may occur once, or a list of its fields in order; a
date-time counts as a record without any known name. The two text formats differ in two points
only, which a `Format` names.
-/

set_option autoImplicit false

namespace RiscvBoot

/-- What a text format allows beyond the tree. -/
structure Format where
  /-- A list that stands for a section may not be longer than its fields. -/
  exactLists : Bool
  /-- What may stand beside the name of a choice that is written as a record. -/
  isUnit : Tree → Bool

namespace Format

def json : Format where
  exactLists := true
  isUnit
    | .null => true
    | _ => false

def toml : Format where
  exactLists := false
  isUnit
    | .record [] => true
    | .list [] => true
    | _ => false

end Format

namespace Schema

/-- The fields of a section by their names, in the order of the names; `none` inside is a field
that is missing. -/
def fields? (f : Format) (names : List String) : Tree → Option (List (Option Tree))
  | .record entries =>
    names.mapM fun name =>
      match entries.filter (·.1 = name) with
      | [] => some none
      | [(_, t)] => some (some t)
      | _ => none
  | .list items =>
    if f.exactLists ∧ names.length < items.length then none
    else some ((List.range names.length).map (items[·]?))
  | .dateTime _ => some (names.map fun _ => none)
  | _ => none

/-- A field that may be missing. -/
def optional {α : Type} (fallback : α) (read : Tree → Option α) : Option Tree → Option α
  | none => some fallback
  | some t => read t

def nullable {α : Type} (read : Tree → Option α) : Tree → Option (Option α)
  | .null => some none
  | t => (read t).map some

def boolean? : Tree → Option Bool
  | .boolean b => some b
  | _ => none

def texts? : Tree → Option (List String)
  | .list items => items.mapM Tree.text?
  | _ => none

def path? (t : Tree) : Option Path := t.text?.map Path.mk

/-- An integer from 0 to 2⁶⁴ - 1. -/
def word? : Tree → Option UInt64
  | .integer n => if 0 ≤ n ∧ n < UInt64.size then some (UInt64.ofNat n.toNat) else none
  | _ => none

/-- One of several named choices: its name, or a record with the name alone. -/
def named? {α : Type} (f : Format) (name : α → String) (all : List α) : Tree → Option α
  | .text s => all.find? (name · = s)
  | .record [(s, t)] => if f.isUnit t then all.find? (name · = s) else none
  | _ => none

def hartsSetting? (t : Tree) : Option HartsSetting :=
  match t with
  | .text s => some (.text s)
  | t => (word? t).map .number

def hartCount? (t : Tree) : Option Harts := t.text?.map Harts.mk

def arch? (f : Format) : Tree → Option Isa := named? f Isa.name Isa.all

def policy? (f : Format) : Tree → Option Strictness := named? f Strictness.name Strictness.all

def sweepPolicy? (f : Format) : Tree → Option SweepPolicy :=
  named? f SweepPolicy.name SweepPolicy.all

def layout? (f : Format) (t : Tree) : Option Layout := do
  match ← fields? f ["target-dir", "binary"] t with
  | [some targetDir, some binary] => return ⟨← path? targetDir, ← binary.text?⟩
  | _ => none

def tuning? (f : Format) (t : Tree) : Option Tuning := do
  match ← fields? f ["memory", "bios", "extra-args"] t with
  | [memory, bios, extraArgs] =>
    return {
      memory := ← optional none (nullable Tree.text?) memory
      bios := ← optional none (nullable Tree.text?) bios
      extraArgs := ← optional [] texts? extraArgs }
  | _ => none

def kernelSettings? (f : Format) (t : Tree) : Option KernelSettings := do
  match ← fields? f ["binary", "package", "dir", "target-dir", "build-args"] t with
  | [binary, package, dir, targetDir, buildArgs] =>
    return {
      binary := ← optional none (nullable Tree.text?) binary
      package := ← optional none (nullable Tree.text?) package
      dir := ← optional none (nullable path?) dir
      targetDir := ← optional none (nullable path?) targetDir
      buildArgs := ← optional [] texts? buildArgs }
  | _ => none

def defaultSettings? (f : Format) (t : Tree) : Option DefaultSettings := do
  match ← fields? f ["arch", "harts", "strict"] t with
  | [arch, harts, strict] =>
    return {
      arch := ← optional none (nullable Tree.text?) arch
      harts := ← optional none (nullable hartsSetting?) harts
      strict := ← optional false boolean? strict }
  | _ => none

def sweepSettings? (f : Format) (t : Tree) : Option SweepSettings := do
  match ← fields? f ["on-error", "settle-timeout-ms"] t with
  | [onError, settleTimeoutMs] =>
    return {
      onError := ← optional .keepGoing (sweepPolicy? f) onError
      settleTimeoutMs := ← optional none (nullable word?) settleTimeoutMs }
  | _ => none

def manifest? (f : Format) (t : Tree) : Option Manifest := do
  match ← fields? f ["kernel", "defaults", "emulator", "reaper"] t with
  | [kernel, defaults, emulator, sweeper] =>
    return {
      kernel := ← optional {} (kernelSettings? f) kernel
      defaults := ← optional {} (defaultSettings? f) defaults
      emulator := ← optional {} (tuning? f) emulator
      sweeper := ← optional {} (sweepSettings? f) sweeper }
  | _ => none

/-- The first value that its reader cannot read, with its name. A section gives its values by name
or in the order of the readers. -/
def misfit? (readable : List (String × (Tree → Bool))) : Tree → Option (String × Tree)
  | .record entries =>
    entries.find? fun entry => (readable.lookup entry.1).any fun fits => !fits entry.2
  | .list items =>
    ((readable.zip items).find? fun pair => !pair.1.2 pair.2).map fun pair =>
      (pair.1.1, pair.2)
  | _ => none

/-- The settings of a manifest that are sections, each with whether it can be read. -/
def readableSections : List (String × (Tree → Bool)) :=
  [("kernel", fun t => (kernelSettings? .toml t).isSome),
    ("defaults", fun t => (defaultSettings? .toml t).isSome),
    ("emulator", fun t => (tuning? .toml t).isSome),
    ("reaper", fun t => (sweepSettings? .toml t).isSome)]

/-- The settings for stale emulators, each with whether it can be read. -/
def readableSweepSettings : List (String × (Tree → Bool)) :=
  [("on-error", fun t => (sweepPolicy? .toml t).isSome),
    ("settle-timeout-ms", fun t => (nullable word? t).isSome)]

/-- What is wrong with a value that names no policy, if it gives a name at all. -/
def unknownPolicy? (t : Tree) : Option String :=
  let known := SweepPolicy.all.map SweepPolicy.name
  let complaint (name : String) : Option String :=
    if known.contains name then none
    else
      let choices := " or ".intercalate (known.map fun choice => s!"\x60{choice}\x60")
      some s!"unknown variant \x60{name}\x60, expected {choices}"
  match t with
  | .text name => complaint name
  | .record [(name, _)] => complaint name
  | _ => none

/-- What is wrong with the first value of a manifest that cannot be read. Only a name that should
be a policy is repeated. -/
def complaint (t : Tree) : String :=
  let unknown : Option String :=
    match misfit? readableSections t with
    | some ("reaper", settings) =>
      match misfit? readableSweepSettings settings with
      | some ("on-error", policy) => unknownPolicy? policy
      | _ => none
    | _ => none
  unknown.getD "invalid type"

end Schema

def HartsSetting.toTree : HartsSetting → Tree
  | .number n => .integer n.toNat
  | .text s => .text s

def Layout.toTree (l : Layout) : Tree :=
  .record [("target-dir", .text l.targetDir.text), ("binary", .text l.binary)]

def Tuning.toTree (m : Tuning) : Tree :=
  .record [
    ("memory", .ofText? m.memory),
    ("bios", .ofText? m.bios),
    ("extra-args", .ofTexts m.extraArgs)]

def KernelSettings.toTree (k : KernelSettings) : Tree :=
  .record [
    ("binary", .ofText? k.binary),
    ("package", .ofText? k.package),
    ("dir", .ofText? (k.dir.map Path.text)),
    ("target-dir", .ofText? (k.targetDir.map Path.text)),
    ("build-args", .ofTexts k.buildArgs)]

def DefaultSettings.toTree (d : DefaultSettings) : Tree :=
  .record [
    ("arch", .ofText? d.arch),
    ("harts", (d.harts.map HartsSetting.toTree).getD .null),
    ("strict", .boolean d.strict)]

def SweepSettings.toTree (r : SweepSettings) : Tree :=
  .record [
    ("on-error", .text r.onError.name),
    ("settle-timeout-ms", (r.settleTimeoutMs.map fun n => Tree.integer n.toNat).getD .null)]

def Manifest.toTree (m : Manifest) : Tree :=
  .record [
    ("kernel", m.kernel.toTree),
    ("defaults", m.defaults.toTree),
    ("emulator", m.emulator.toTree),
    ("reaper", m.sweeper.toTree)]

/-- The settings of a resolved choice that are shown to others. -/
def Target.entries (t : Target) : List (String × Tree) :=
  [("arch", .text t.arch.name), ("harts", .text t.harts.text),
    ("build-target", .text t.buildTarget), ("emulator", .text t.emulator)]

def Target.toTree (t : Target) : Tree := .record t.entries

end RiscvBoot
