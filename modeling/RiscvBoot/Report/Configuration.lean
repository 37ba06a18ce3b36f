import RiscvBoot.Command.Error
import RiscvBoot.Json.Writer
import RiscvBoot.Toml.Writer

/-!
# Showing the configuration

A setup as a report for people, or as data in one of the two text formats. The data holds every
setting once, under a name of its own.
-/

set_option autoImplicit false

namespace RiscvBoot

namespace Setup

/-- The settings of a setup as data. The manifest is left out if there is none. -/
def toTree (s : Setup) : Tree :=
  .record (s.target.entries ++
    [("policy", .text s.policy.name),
      ("image", .text s.image.text),
      ("kernel-dir", .text s.kernelDir.text)] ++
    (match s.manifestPath with
      | some path => [("manifest", .text path.text)]
      | none => []) ++
    [("machine", .text machineType),
      ("serial", .text serialBackend),
      ("reap-on-error", .text s.sweepPolicy.name),
      ("reap-settle-timeout-ms", .integer s.settleTimeout.millis),
      ("emulator-profile", s.tuning.toTree)])

def describe (s : Setup) : String :=
  "=== hartctl configuration ===\n" ++
  "Manifest: " ++ (s.manifestPath.map Path.text).getD "(none)" ++ "\n" ++
  "\n--- Target ---\n" ++
  s!"  Arch:         {s.target.arch.name}\n" ++
  s!"  Build target: {s.target.buildTarget}\n" ++
  s!"  Policy:       {s.policy.title}\n" ++
  "\n--- Kernel ---\n" ++
  s!"  Crate: {s.kernelDir.text}\n" ++
  s!"  Image: {s.image.text}\n" ++
  "\n--- Emulator ---\n" ++
  s!"  Binary:  {s.target.emulator}\n" ++
  s!"  Machine: {machineType}\n" ++
  s!"  Harts:   {s.target.harts.text}\n" ++
  s!"  Serial:  {serialBackend}\n" ++
  Text.labelled "Memory: " s.tuning.memory ++
  Text.labelled "BIOS:   " s.tuning.bios ++
  (if s.tuning.extraArgs = [] then ""
    else Text.labelled "Extra:  " (some (Text.unwords s.tuning.extraArgs)))

/-- The settings of a setup in a format that is given by its name; the report for people if
none is given. -/
def render (s : Setup) (format : Option String) : Except CommandError String :=
  match format.getD "human" with
  | "human" => .ok s.describe
  | "toml" => (Toml.write? s.toTree).elim (.error .outOfRange) .ok
  | "json" => .ok (Json.pretty s.toTree ++ "\n")
  | other => .error (.unknownFormat other)

end Setup

end RiscvBoot
