import RiscvBoot.Isa
import RiscvBoot.Harts

/-!
# What is asked for, and what it resolves to

A `Choice` is raw text from a flag, the environment or a manifest. Choices are layered
with `Choice.or`, where the first text given wins in each field by itself. A `Target` is what
a choice resolves to. Under the lenient policy resolving never fails and doubtful texts are
reported by `Choice.doubts`; under the strict policy the same texts are errors.
-/

set_option autoImplicit false

namespace RiscvBoot

/-- The texts given for the family and the hart count, not yet checked. -/
structure Choice where
  arch : Option String := none
  harts : Option String := none
  deriving DecidableEq, Repr, Inhabited

/-- What becomes of a text that is not understood. -/
inductive Strictness where
  /-- An unknown family falls back and a malformed count is passed on; both are reported. -/
  | lenient
  | strict
  deriving DecidableEq, Repr, Inhabited

namespace Strictness

def ofFlag (strict : Bool) : Strictness := if strict then .strict else .lenient

def name : Strictness → String
  | .lenient => "lenient"
  | .strict => "strict"

def title : Strictness → String
  | .lenient => "Lenient"
  | .strict => "Strict"

def all : List Strictness := [.lenient, .strict]

end Strictness

inductive Rejection where
  | unknownArch (selector : String)
  | invalidHartCount (text : String)
  deriving DecidableEq, Repr

def Rejection.message : Rejection → String
  | .unknownArch s => s!"unknown architecture '{s}' (expected rv32 or rv64)"
  | .invalidHartCount t => s!"invalid hart count '{t}' (expected a positive integer)"

/-- What is reported about a choice under the lenient policy. -/
inductive Doubt where
  | unknownArch (selector : String)
  | malformedHarts (text : String)
  deriving DecidableEq, Repr

def Doubt.message : Doubt → String
  | .unknownArch s => s!"unrecognized architecture '{s}', using {Isa.rv64.name}"
  | .malformedHarts t =>
    s!"hart count '{t}' is not a positive integer; passing it to the emulator as-is"

/-- Everything that follows from a resolved choice. -/
structure Target where
  arch : Isa := .fallback
  harts : Harts := .fallback
  deriving DecidableEq, Repr, Inhabited

namespace Target

def buildTarget (t : Target) : String := t.arch.buildTarget

def emulator (t : Target) : String := t.arch.emulator

end Target

/-- The number that a hart count spells, or the error that carries its text. -/
def Harts.parse (h : Harts) : Except Rejection Nat :=
  match h.number? with
  | some n => .ok n
  | none => .error (.invalidHartCount h.text)

def Isa.parse (selector : String) : Except Rejection Isa :=
  match Isa.ofName? selector with
  | some a => .ok a
  | none => .error (.unknownArch selector)

/-- Exacting choice: no selector means the fallback, an unknown one is an error. -/
def Isa.strict (selector : Option String) : Except Rejection Isa :=
  match selector with
  | none => .ok .fallback
  | some s => Isa.parse s

namespace Choice

/-- Fill the fields that are not given from `below`. -/
def or (above below : Choice) : Choice :=
  ⟨above.arch.or below.arch, above.harts.or below.harts⟩

/-- Several layers, the first of them on top. -/
def ofLayers (layers : List Choice) : Choice := layers.foldl or {}

def hartCount (c : Choice) : Harts := .orFallback c.harts

def lenientTarget (c : Choice) : Target := ⟨.lenient c.arch, c.hartCount⟩

/-- Resolve a choice. Of two faults the family is the one reported. -/
def resolve (policy : Strictness) (c : Choice) : Except Rejection Target :=
  match policy with
  | .lenient => .ok c.lenientTarget
  | .strict => do
    let arch ← Isa.strict c.arch
    let _ ← c.hartCount.parse
    return ⟨arch, c.hartCount⟩

/-- What the lenient policy reports about a choice; the strict policy reports nothing. -/
def doubts (policy : Strictness) (c : Choice) : List Doubt :=
  match policy with
  | .strict => []
  | .lenient =>
    let arch := match c.arch with
      | some a => if (Isa.ofName? a).isSome then [] else [.unknownArch a]
      | none => []
    let harts := if c.hartCount.isNumber then [] else [.malformedHarts c.hartCount.text]
    arch ++ harts

end Choice

end RiscvBoot
