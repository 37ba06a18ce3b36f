/-!
# RISC-V families

The two supported families. The compiler target and the emulator program are functions of the
family, so they cannot disagree about the word width.
-/

set_option autoImplicit false

namespace RiscvBoot

/-- A RISC-V family: RV32IMAC or RV64GC. -/
inductive Isa where
  | rv32
  | rv64
  deriving DecidableEq, Repr

namespace Isa

/-- The family used when none is asked for. -/
def fallback : Isa := .rv64

instance : Inhabited Isa := ⟨fallback⟩

def all : List Isa := [.rv32, .rv64]

/-- The spelling that selects the family. -/
def name : Isa → String
  | .rv32 => "rv32"
  | .rv64 => "rv64"

def xlen : Isa → Nat
  | .rv32 => 32
  | .rv64 => 64

def buildTarget : Isa → String
  | .rv32 => "riscv32imac-unknown-none-elf"
  | .rv64 => "riscv64gc-unknown-none-elf"

def emulator : Isa → String
  | .rv32 => "qemu-system-riscv32"
  | .rv64 => "qemu-system-riscv64"

def ofName? (text : String) : Option Isa := all.find? (·.name = text)

/-- Forgiving choice: only the exact 32-bit name leaves the fallback. -/
def lenient (selector : Option String) : Isa :=
  if selector = some "rv32" then .rv32 else .rv64

theorem ofName?_name (a : Isa) : ofName? a.name = some a := by cases a <;> decide

theorem name_of_ofName? {text : String} {a : Isa} (h : ofName? text = some a) :
    a.name = text := by
  have := List.find?_some h
  simpa using this

end Isa

end RiscvBoot
