/-!
# Log records

What the program tells about its work, with the part that tells it. A record is only data here;
which records are shown is decided where they are printed.
-/

set_option autoImplicit false

namespace RiscvBoot.Log

/-- How urgent a record is, most urgent first. -/
inductive Level where
  | error
  | warn
  | info
  | debug
  | trace
  deriving DecidableEq, Repr

namespace Level

def name : Level → String
  | .error => "ERROR"
  | .warn => "WARN"
  | .info => "INFO"
  | .debug => "DEBUG"
  | .trace => "TRACE"

def rank : Level → Nat
  | .error => 1
  | .warn => 2
  | .info => 3
  | .debug => 4
  | .trace => 5

end Level

inductive Origin where
  | choice
  | boot
  | command
  deriving DecidableEq, Repr

structure Record where
  level : Level
  origin : Origin
  text : String
  deriving DecidableEq, Repr

/-- A place where records are kept in the order in which they are written. -/
class Writer (m : Type → Type) where
  write : Record → m Unit

def info {m : Type → Type} [Writer m] (text : String) : m Unit :=
  Writer.write ⟨.info, .boot, text⟩

/-- A record about a run that somebody should look at. -/
def warn {m : Type → Type} [Writer m] (text : String) : m Unit :=
  Writer.write ⟨.warn, .boot, text⟩

def debug {m : Type → Type} [Writer m] (text : String) : m Unit :=
  Writer.write ⟨.debug, .boot, text⟩

end RiscvBoot.Log
