import RiscvBoot.Project.Settings
import RiscvBoot.Sweep.Basic

/-!
# Whom to stop

Stopping emulators needs only the name of the emulator and the settle time. A `SweepOrder` is
resolved like a setup, but it needs no kernel crate, and where a setup would fail it goes on
with less: without the manifest, or under the lenient policy.
-/

set_option autoImplicit false

namespace RiscvBoot

/-- What stopping emulators needs to know. Resolving it needs no kernel crate and never fails. -/
structure SweepOrder where
  target : Target
  settleTimeout : Duration
  deriving DecidableEq, Repr

namespace SweepOrder

/-- The manifest that is used, and what is reported if the one that is there cannot be. -/
def manifest (v : FileView) (cwd : Path) : Manifest × List String :=
  match Manifest.find v cwd with
  | .ok found => ((found.map Prod.fst).getD {}, [])
  | .error e => ({}, [s!"ignoring {Manifest.fileName.text}: {Text.chained e.causes}"])

/-- The target of a request. A manifest that cannot be used is left out, and a choice that is
rejected is resolved again under the lenient policy. -/
def resolve (v : FileView) (cwd : Path) (given : Choice) (strict : Bool) : SweepOrder :=
  let m := (manifest v cwd).1
  let choice := m.choiceFor given
  match choice.resolve (m.policyFor strict) with
  | .ok target => ⟨target, m.settleTimeout⟩
  | .error _ => ⟨choice.lenientTarget, m.settleTimeout⟩

/-- What is reported while a request is resolved, with the part that reports it. -/
def warnings (v : FileView) (cwd : Path) (given : Choice) (strict : Bool) :
    List Log.Record :=
  let (m, skipped) := manifest v cwd
  let choice := m.choiceFor given
  let policy := m.policyFor strict
  skipped.map (⟨.warn, .command, ·⟩) ++
    (choice.doubts policy).map (⟨.warn, .choice, ·.message⟩) ++
    match choice.resolve policy with
    | .ok _ => []
    | .error e => [⟨.warn, .command, s!"{e.message}; resolving leniently"⟩]

def sweeper (t : SweepOrder) : Sweeper := { settleTimeout := t.settleTimeout }

end SweepOrder

end RiscvBoot
